import Folio.Markup.Escape
import Mathlib.Data.List.Infix

/-!
# String arguments as they are read

A string argument ends at the first double quote that no backslash escapes. Only a backslash and a
double quote are escaped; a backslash in front of any other character stands for itself. An escaped
text is read back to the text, whatever follows its closing quote. A text that is written as it
stands is read back exactly if it has no double quote, no two backslashes in a row and no backslash
at its end.
-/

namespace Folio.Markup

/-- What a string argument holds from some place on, and what follows its closing quote; `escaped`
tells whether a backslash stands in front of the place. -/
def string? (escaped : Bool) : List Char → Option (List Char × List Char)
  | [] => none
  | c :: rest =>
    if escaped then
      (string? false rest).map
        (Prod.map ((if c = '\\' ∨ c = '"' then [c] else ['\\', c]) ++ ·) id)
    else if c = '"' then some ([], rest)
    else if c = '\\' then string? true rest
    else (string? false rest).map (Prod.map (c :: ·) id)

/-- Whether a text may stand in a string argument without escapes. -/
def IsPlain (t : List Char) : Prop :=
  '"' ∉ t ∧ ¬['\\', '\\'] <:+: t ∧ t.getLast? ≠ some '\\'

instance (t : List Char) : Decidable (IsPlain t) := inferInstanceAs (Decidable (_ ∧ _ ∧ _))

/-! ### Reading -/

/-- A character that is neither a backslash nor a double quote stands for itself. -/
theorem string?_cons {c : Char} (hbackslash : c ≠ '\\') (hquote : c ≠ '"') (rest : List Char) :
    string? false (c :: rest) = (string? false rest).map (Prod.map (c :: ·) id) := by
  rw [string?, if_neg Bool.false_ne_true, if_neg hquote, if_neg hbackslash]

/-- A backslash and the backslash or double quote behind it stand for the latter. -/
theorem string?_escape {c : Char} (h : c = '\\' ∨ c = '"') (rest : List Char) :
    string? false ('\\' :: c :: rest) = (string? false rest).map (Prod.map (c :: ·) id) := by
  change string? true (c :: rest) = _
  rw [string?, if_pos rfl, if_pos h]
  rfl

/-- A backslash in front of another character stands for itself, as does the character. -/
theorem string?_backslash {c : Char} (hbackslash : c ≠ '\\') (hquote : c ≠ '"')
    (rest : List Char) :
    string? false ('\\' :: c :: rest) =
      (string? false rest).map (Prod.map (['\\', c] ++ ·) id) := by
  change string? true (c :: rest) = _
  rw [string?, if_pos rfl, if_neg (by simp [hbackslash, hquote])]

/-- An escaped character is read back. -/
theorem string?_stringChar (c : Char) (rest : List Char) :
    string? false (stringChar c ++ rest) = (string? false rest).map (Prod.map (c :: ·) id) := by
  rw [stringChar]
  split
  · next hspecial => exact string?_escape hspecial rest
  · next hspecial =>
    rw [not_or] at hspecial
    exact string?_cons hspecial.1 hspecial.2 rest

/-- An escaped text is read back up to its closing quote. -/
theorem string?_flatMap_stringChar (t after : List Char) :
    string? false (t.flatMap stringChar ++ '"' :: after) = some (t, after) := by
  induction t with
  | nil => rfl
  | cons c t ih =>
    rw [List.flatMap_cons, List.append_assoc, string?_stringChar, ih]
    rfl

theorem toList_escapeString (s : String) : (escapeString s).toList = s.toList.flatMap stringChar :=
  String.toList_ofList

theorem string?_escapeString (s : String) (after : List Char) :
    string? false ((escapeString s).toList ++ '"' :: after) = some (s.toList, after) := by
  rw [toList_escapeString, string?_flatMap_stringChar]

/-- What is read back determines what has been escaped. -/
theorem escapeString_injective : Function.Injective escapeString := by
  intro s t h
  have hread := string?_escapeString s []
  rw [h, string?_escapeString, Option.some.injEq, Prod.mk.injEq] at hread
  exact String.toList_inj.mp hread.1.symm

/-- What is read and what follows it are together shorter than the text, by the closing quote at
least. -/
theorem length_lt_of_string? {escaped : Bool} {cs inside after : List Char}
    (h : string? escaped cs = some (inside, after)) :
    inside.length + after.length < cs.length + escaped.toNat := by
  induction cs generalizing escaped inside with
  | nil => cases h
  | cons c rest ih =>
    have hmap (front : List Char) (hfront : front.length ≤ 1 + escaped.toNat)
        (h : (string? false rest).map (Prod.map (front ++ ·) id) = some (inside, after)) :
        inside.length + after.length < (c :: rest).length + escaped.toNat := by
      obtain ⟨⟨inside', after'⟩, hrest, heq⟩ := Option.map_eq_some_iff.mp h
      obtain ⟨rfl, rfl⟩ := Prod.mk.inj heq
      have hlt := ih hrest
      simp only [List.length_append, List.length_cons, Bool.toNat_false, id] at hlt ⊢
      omega
    rw [string?] at h
    cases escaped with
    | true =>
      rw [if_pos rfl] at h
      refine hmap _ ?_ h
      split <;> simp
    | false =>
      rw [if_neg Bool.false_ne_true] at h
      split at h
      · obtain ⟨rfl, rfl⟩ := Prod.mk.inj (Option.some.inj h)
        simp
      · split at h
        · simpa [Nat.add_comm, Nat.add_assoc] using ih h
        · exact hmap [c] (by simp) h

/-! ### Texts without escapes -/

theorem isPlain_nil : IsPlain [] := by decide

/-- No text with a double quote in front is plain. -/
theorem not_isPlain_quote (t : List Char) : ¬IsPlain ('"' :: t) :=
  fun h => h.1 List.mem_cons_self

/-- No text with two backslashes in front is plain. -/
theorem not_isPlain_backslashes (t : List Char) : ¬IsPlain ('\\' :: '\\' :: t) :=
  fun h => h.2.1 (List.prefix_append ['\\', '\\'] t).isInfix

/-- A character that is neither a backslash nor a double quote does not matter. -/
theorem isPlain_cons {c : Char} (hbackslash : c ≠ '\\') (hquote : c ≠ '"') {t : List Char} :
    IsPlain (c :: t) ↔ IsPlain t := by
  have hlast : (c :: t).getLast? ≠ some '\\' ↔ t.getLast? ≠ some '\\' := by
    cases t with
    | nil => simp [hbackslash]
    | cons d t => rw [List.getLast?_cons_cons]
  rw [IsPlain, IsPlain, hlast, List.mem_cons, List.infix_cons_iff, List.cons_prefix_cons]
  simp [hbackslash.symm, hquote.symm]

/-- Nor does a backslash in front of such a character. -/
theorem isPlain_backslash {c : Char} (hbackslash : c ≠ '\\') (hquote : c ≠ '"') {t : List Char} :
    IsPlain ('\\' :: c :: t) ↔ IsPlain t := by
  rw [← isPlain_cons hbackslash hquote (t := t), IsPlain, IsPlain, List.getLast?_cons_cons,
    List.mem_cons, List.infix_cons_iff, List.cons_prefix_cons, List.cons_prefix_cons]
  simp [hbackslash.symm]

/-- A result of reading with something in front is the same in front of the result. -/
theorem map_prepend_eq_some_iff (front : List Char) {read : Option (List Char × List Char)}
    {inside after : List Char} :
    read.map (Prod.map (front ++ ·) id) = some (front ++ inside, after) ↔
      read = some (inside, after) := by
  cases read with
  | none => simp
  | some result => simp [Prod.ext_iff]

/-- A text without escapes is read back up to its closing quote exactly if it is plain. -/
theorem string?_eq_some_iff_isPlain : (t after : List Char) →
    (string? false (t ++ '"' :: after) = some (t, after) ↔ IsPlain t)
  | [], after => iff_of_true rfl isPlain_nil
  | [c], after => by
    by_cases hquote : c = '"'
    · subst hquote
      exact iff_of_false nofun (not_isPlain_quote [])
    by_cases hbackslash : c = '\\'
    · -- The closing quote is taken for an escaped one.
      subst hbackslash
      refine iff_of_false (fun h => ?_) (by decide)
      rw [List.singleton_append, string?_escape (.inr rfl)] at h
      obtain ⟨result, -, heq⟩ := Option.map_eq_some_iff.mp h
      cases (Prod.mk.inj heq).1
    rw [isPlain_cons hbackslash hquote, List.singleton_append, string?_cons hbackslash hquote]
    exact iff_of_true rfl isPlain_nil
  | c :: d :: t, after => by
    by_cases hquote : c = '"'
    · subst hquote
      exact iff_of_false nofun (not_isPlain_quote _)
    by_cases hbackslash : c = '\\'
    · subst hbackslash
      by_cases hd : d = '\\' ∨ d = '"'
      · refine iff_of_false (fun h => ?_) ?_
        · rw [List.cons_append, List.cons_append, string?_escape hd] at h
          obtain ⟨⟨inside, after'⟩, hread, heq⟩ := Option.map_eq_some_iff.mp h
          obtain ⟨hinside, rfl⟩ := Prod.mk.inj heq
          have hlength := length_lt_of_string? hread
          obtain ⟨rfl, rfl⟩ := List.cons.inj hinside
          simp only [id, List.length_append, List.length_cons, Bool.toNat_false] at hlength
          omega
        · rcases hd with rfl | rfl
          · exact not_isPlain_backslashes t
          · exact fun h => h.1 (List.mem_cons_of_mem _ List.mem_cons_self)
      · rw [not_or] at hd
        rw [isPlain_backslash hd.1 hd.2, List.cons_append, List.cons_append,
          string?_backslash hd.1 hd.2, ← string?_eq_some_iff_isPlain t after]
        exact map_prepend_eq_some_iff ['\\', d]
    · rw [isPlain_cons hbackslash hquote, List.cons_append, string?_cons hbackslash hquote,
        ← string?_eq_some_iff_isPlain (d :: t) after]
      exact map_prepend_eq_some_iff [c]

end Folio.Markup
