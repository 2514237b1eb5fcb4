import Folio.Text.Cut
import Mathlib.Data.List.Basic

/-!
# Cutting at a separator

A text starts or ends with a mark when the mark is a prefix or a suffix of its characters. Where a
separator stands, a text is cut into the parts in front of it and those behind it. So parts without
the separator that are joined with it are cut apart again.
-/

namespace Folio.Text

variable {separator : Char}

/-! ### Beginnings and endings -/

theorem isSome_after?_iff {mark cs : List Char} : (after? mark cs).isSome ↔ mark <+: cs := by
  rw [Option.isSome_iff_exists]
  exact exists_congr fun rest => after?_eq_some_iff.trans eq_comm

theorem startsWith_iff {s mark : String} :
    startsWith s mark = true ↔ mark.toList <+: s.toList :=
  isSome_after?_iff

theorem endsWith_iff {s mark : String} : endsWith s mark = true ↔ mark.toList <:+ s.toList :=
  isSome_after?_iff.trans List.reverse_prefix

/-! ### Parts -/

/-- There is at least one part. -/
theorem splitAt_ne_nil (separator : Char) (cs : List Char) : splitAt separator cs ≠ [] := by
  cases cs with
  | nil => simp [splitAt]
  | cons c rest =>
    rw [splitAt]
    split
    · simp
    · split <;> simp

/-- A text without the separator is a single part. -/
theorem splitAt_of_not_mem {cs : List Char} (h : separator ∉ cs) : splitAt separator cs = [cs] := by
  induction cs with
  | nil => rfl
  | cons c rest ih =>
    obtain ⟨hc, hrest⟩ := List.ne_and_not_mem_of_not_mem_cons h
    rw [splitAt, if_neg (Ne.symm hc), ih hrest]

/-- A separator divides the parts in front of it from those behind it. -/
theorem splitAt_append_cons (separator : Char) (before after : List Char) :
    splitAt separator (before ++ separator :: after) =
      splitAt separator before ++ splitAt separator after := by
  induction before with
  | nil => simp [splitAt]
  | cons c before ih =>
    rw [List.cons_append, splitAt, splitAt]
    split
    · rw [ih, List.cons_append]
    · cases hparts : splitAt separator before with
      | nil => exact absurd hparts (splitAt_ne_nil separator before)
      | cons part parts =>
        rw [ih, hparts]
        rfl

/-- A text without the separator is put in front of the first part. -/
theorem splitAt_append_of_not_mem {before after first : List Char} {others : List (List Char)}
    (h : separator ∉ before) (hafter : splitAt separator after = first :: others) :
    splitAt separator (before ++ after) = (before ++ first) :: others := by
  induction before with
  | nil => exact hafter
  | cons c before ih =>
    obtain ⟨hc, hbefore⟩ := List.ne_and_not_mem_of_not_mem_cons h
    rw [List.cons_append, splitAt, if_neg (Ne.symm hc), ih hbefore]
    rfl

/-- The first part starts like the text, unless the text starts with the separator. -/
theorem exists_splitAt_cons {c : Char} (h : c ≠ separator) (rest : List Char) :
    ∃ first others, splitAt separator (c :: rest) = (c :: first) :: others := by
  obtain ⟨first, others, hrest⟩ := List.exists_cons_of_ne_nil (splitAt_ne_nil separator rest)
  have hbefore : separator ∉ [c] := by simpa using Ne.symm h
  exact ⟨first, others, splitAt_append_of_not_mem hbefore hrest⟩

/-- Parts without the separator that are joined with it are cut apart again. -/
theorem splitAt_intercalate {parts : List (List Char)} (h : ∀ part ∈ parts, separator ∉ part)
    (hne : parts ≠ []) : splitAt separator ([separator].intercalate parts) = parts := by
  induction parts with
  | nil => exact absurd rfl hne
  | cons part rest ih =>
    obtain ⟨hpart, hrest⟩ := List.forall_mem_cons.mp h
    cases rest with
    | nil => rw [List.intercalate_singleton, splitAt_of_not_mem hpart]
    | cons next others =>
      have hcut := ih hrest (List.cons_ne_nil next others)
      rw [List.intercalate_cons_cons, List.append_assoc, List.singleton_append,
        splitAt_append_cons, splitAt_of_not_mem hpart, hcut, List.singleton_append]

/-- Joined parts end with the last of them, and nothing of the parts before it reaches into an end
without the separator. -/
theorem suffix_intercalate_iff {ending last : List Char} {parts : List (List Char)}
    (h : separator ∉ ending) :
    ending <:+ [separator].intercalate (parts ++ [last]) ↔ ending <:+ last := by
  induction parts with
  | nil => rw [List.nil_append, List.intercalate_singleton]
  | cons part rest ih =>
    rw [List.cons_append, List.intercalate_cons_of_ne_nil (by simp), List.append_assoc,
      List.singleton_append, ← ih]
    constructor
    · intro hsuffix
      have hseparator := List.suffix_append part
        (separator :: [separator].intercalate (rest ++ [last]))
      rcases List.suffix_or_suffix_of_suffix hsuffix hseparator with hinside | haround
      · rcases List.suffix_cons_iff.mp hinside with rfl | hrest
        · exact absurd List.mem_cons_self h
        · exact hrest
      · exact absurd (haround.subset List.mem_cons_self) h
    · intro hsuffix
      exact hsuffix.trans ((List.suffix_cons _ _).trans (List.suffix_append _ _))

/-- The characters of joined texts. -/
theorem toList_joinWith (separator : String) (parts : List String) :
    (joinWith separator parts).toList = separator.toList.intercalate (parts.map String.toList) := by
  fun_induction joinWith separator parts with
  | case1 => rfl
  | case2 s => rw [List.map_singleton, List.intercalate_singleton]
  | case3 s t rest ih =>
    rw [String.toList_append, String.toList_append, ih]
    simp only [List.map_cons, List.intercalate_cons_cons]

end Folio.Text
