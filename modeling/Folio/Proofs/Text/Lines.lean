import Folio.Text.Blank
import Folio.Text.Cut
import Folio.Text.Line
import Folio.Text.Word
import Mathlib.Data.List.TakeWhile

/-!
# Lines and the blanks around them

A text that is put together from lines is cut into the same lines, and it ends with a line feed
exactly when its last line does. A line is its trimmed text with blanks in front and behind.
-/

namespace Folio.Text

/-- A list has a first element of a kind or none at all. -/
theorem exists_first {α : Type} (p : α → Prop) (l : List α) :
    (∀ z ∈ l, ¬p z) ∨ ∃ a x b, l = a ++ x :: b ∧ (∀ z ∈ a, ¬p z) ∧ p x := by
  induction l with
  | nil => exact .inl nofun
  | cons y l ih =>
    by_cases hy : p y
    · exact .inr ⟨[], y, l, rfl, nofun, hy⟩
    · rcases ih with hnone | ⟨a, x, b, rfl, ha, hx⟩
      · exact .inl (List.forall_mem_cons.mpr ⟨hy, hnone⟩)
      · exact .inr ⟨y :: a, x, b, rfl, List.forall_mem_cons.mpr ⟨hy, ha⟩, hx⟩

/-- The first element of a kind is found at one place only. -/
theorem first_unique {α : Type} {p : α → Prop} {a b s t : List α} {x y : α}
    (ha : ∀ z ∈ a, ¬p z) (hx : p x) (hb : ∀ z ∈ b, ¬p z) (hy : p y)
    (h : a ++ x :: s = b ++ y :: t) : a = b ∧ x = y ∧ s = t := by
  induction a generalizing b with
  | nil =>
    cases b with
    | nil => exact ⟨rfl, List.cons.inj h⟩
    | cons z b => exact absurd ((List.cons.inj h).1 ▸ hx) (hb z List.mem_cons_self)
  | cons w a ih =>
    cases b with
    | nil => exact absurd ((List.cons.inj h).1 ▸ hy) (ha w List.mem_cons_self)
    | cons z b =>
      obtain ⟨rfl, hrest⟩ := List.cons.inj h
      obtain ⟨rfl, hsame⟩ := ih (fun v hv => ha v (List.mem_cons_of_mem _ hv))
        (fun v hv => hb v (List.mem_cons_of_mem _ hv)) hrest
      exact ⟨rfl, hsame⟩

/-- A text without a line boundary. -/
def IsLine (s : String) : Prop := ∀ c ∈ s.toList, isLineEnd c = false

instance (s : String) : Decidable (IsLine s) := List.decidableBAll _ s.toList

/-- Lines that each end with a line feed, and what stands behind the last of them. -/
def ofLines (ls : List String) (last : String) : String := String.join (ls.map (· ++ "\n")) ++ last

theorem ofLines_cons (l : String) (ls : List String) (last : String) :
    ofLines (l :: ls) last = l ++ "\n" ++ ofLines ls last := by
  rw [ofLines, List.map_cons, String.join_cons, String.append_assoc, ofLines]

/-- A character that ends no line goes to the front of the first line. -/
theorem splitLines_cons {c : Char} (hc : isLineEnd c = false) (rest : List Char) :
    splitLines (c :: rest) = consLine c (splitLines rest) := by
  rw [splitLines, if_neg (by simp [hc])]
  rintro _ rfl
  exact absurd hc (by decide)

/-- A line in front of a line feed is the first line of a text. -/
theorem splitLines_line {line : List Char} (h : ∀ c ∈ line, isLineEnd c = false)
    (rest : List Char) : splitLines (line ++ '\n' :: rest) = line :: splitLines rest := by
  induction line with
  | nil => simp [splitLines, isLineEnd]
  | cons c line ih =>
    rw [List.cons_append, splitLines_cons (h c List.mem_cons_self),
      ih fun d hd => h d (List.mem_cons_of_mem _ hd)]
    rfl

/-- A text without a line boundary is one line, or none if it is empty. -/
theorem splitLines_last {line : List Char} (h : ∀ c ∈ line, isLineEnd c = false) :
    splitLines line = if line = [] then [] else [line] := by
  induction line with
  | nil => rfl
  | cons c line ih =>
    rw [splitLines_cons (h c List.mem_cons_self), ih fun d hd => h d (List.mem_cons_of_mem _ hd)]
    cases line <;> rfl

/-- A text made of lines has these lines. -/
theorem lines_ofLines {ls : List String} {last : String} (hls : ∀ l ∈ ls, IsLine l)
    (hlast : IsLine last) : lines (ofLines ls last) = ls ++ if last = "" then [] else [last] := by
  induction ls with
  | nil =>
    have hempty : ofLines [] last = last := String.empty_append
    have hnone : last.toList = [] ↔ last = "" := by rw [← String.toList_inj]; rfl
    rw [lines, hempty, splitLines_last hlast]
    by_cases hlast : last = "" <;> simp [hlast, hnone]
  | cons l ls ih =>
    have hline := splitLines_line (hls l List.mem_cons_self) (ofLines ls last).toList
    have hparts : (ofLines (l :: ls) last).toList = l.toList ++
      '\n' :: (ofLines ls last).toList := by
      simp [ofLines_cons]
    rw [lines, hparts, hline, List.map_cons, String.ofList_toList]
    exact congrArg (l :: ·) (ih fun m hm => hls m (List.mem_cons_of_mem _ hm))

/-- A text made of lines ends with a line feed when nothing stands behind its last line. -/
theorem endsWith_ofLines (ls : List String) {last : String} (hlast : IsLine last) :
    endsWith (ofLines ls last) "\n" = true ↔ last = "" ∧ ls ≠ [] := by
  have hend (s : String) : endsWith s "\n" = true ↔ s.toList.getLast? = some '\n' := by
    rw [endsWith, Option.isSome_iff_exists, ← List.head?_reverse, List.head?_eq_some_iff]
    exact exists_congr fun rest => after?_eq_some_iff
  rw [hend, ofLines, String.toList_append, List.getLast?_append]
  by_cases hnone : last = ""
  · rcases List.eq_nil_or_concat ls with rfl | ⟨init, l, rfl⟩ <;> simp [hnone]
  · have hne : last.toList ≠ [] := fun h => hnone (String.toList_inj.mp h)
    have hfeed : last.toList.getLast hne ≠ '\n' := by
      intro h
      have hlast := hlast _ (List.getLast_mem hne)
      rw [h] at hlast
      exact absurd hlast (by decide)
    simp [List.getLast?_eq_some_getLast hne, hnone, hfeed]

/-- Nothing but blanks. -/
def Blanks (cs : List Char) : Prop := ∀ c ∈ cs, isBlank c = true

/-- No character of a word is a blank. -/
theorem isBlank_eq_false_of_isWord {c : Char} (h : isWord c = true) : isBlank c = false := by
  have hapart : ∀ r ∈ blankRanges, ∀ n ∈ List.range' r.1 (r.2 + 1 - r.1),
      covers wordRanges n = false := by decide +kernel
  rw [Bool.eq_false_iff]
  intro hblank
  obtain ⟨r, hr, hlow, hhigh⟩ := exists_of_covers hblank
  have hword := hapart r hr c.toNat (List.mem_range'_1.mpr ⟨hlow, by omega⟩)
  exact Bool.noConfusion (hword.symm.trans h)

/-- Trimming takes off blanks in front and behind. -/
theorem exists_trimmed (cs : List Char) :
    ∃ before after, Blanks before ∧ Blanks after ∧ cs = before ++ trimmed cs ++ after := by
  refine ⟨cs.takeWhile isBlank, ((cs.dropWhile isBlank).reverse.takeWhile isBlank).reverse,
    fun c hc => List.mem_takeWhile_imp hc,
    fun c hc => List.mem_takeWhile_imp (List.mem_reverse.mp hc), ?_⟩
  rw [trimmed, trimWhile, dropEndWhile, List.append_assoc, ← List.reverse_append,
    List.takeWhile_append_dropWhile, List.reverse_reverse, List.takeWhile_append_dropWhile]

/-- What is dropped from the end stops at the last character that stays. -/
theorem dropEndWhile_cons_of_neg {p : Char → Bool} {c : Char} (h : p c = false) (cs : List Char) :
    dropEndWhile p (c :: cs) = c :: dropEndWhile p cs := by
  simp [dropEndWhile, List.dropWhile_append, h]

theorem dropEndWhile_append {p : Char → Bool} {after : List Char} (h : ∀ c ∈ after, p c = true)
    (cs : List Char) : dropEndWhile p (cs ++ after) = dropEndWhile p cs := by
  rw [dropEndWhile, List.reverse_append, List.dropWhile_append_of_pos (by simpa using h),
    dropEndWhile]

theorem dropEndWhile_concat_of_neg {p : Char → Bool} {c : Char} (h : p c = false)
    (cs : List Char) : dropEndWhile p (cs ++ [c]) = cs ++ [c] := by
  simp [dropEndWhile, h]

end Folio.Text
