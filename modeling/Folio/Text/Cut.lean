/-!
# Cutting texts

Cutting a text at a separator: at every occurrence of a character, or at the first occurrence of
a longer mark. Joining the parts with the separator gives the text back.
-/

namespace Folio.Text

/-- The parts of a text between the occurrences of a character; at least one. -/
def splitAt (separator : Char) : List Char → List (List Char)
  | [] => [[]]
  | c :: rest =>
    if c = separator then [] :: splitAt separator rest
    else match splitAt separator rest with
      | [] => [[c]]
      | part :: parts => (c :: part) :: parts

/-- What follows a given beginning. -/
def after? : List Char → List Char → Option (List Char)
  | [], cs => some cs
  | _ :: _, [] => none
  | m :: mark, c :: cs => if m = c then after? mark cs else none

theorem after?_eq_some_iff {mark cs rest : List Char} :
    after? mark cs = some rest ↔ cs = mark ++ rest := by
  induction mark generalizing cs with
  | nil => simp [after?]
  | cons m mark ih =>
    cases cs with
    | nil => simp [after?]
    | cons c cs =>
      rw [after?]
      split
      · next h => simp [ih, h]
      · next h => simp [Ne.symm h]

/-- The text before and after the first occurrence of a mark. -/
def cut? (mark : List Char) : List Char → Option (List Char × List Char)
  | [] => if mark.isEmpty then some ([], []) else none
  | c :: rest =>
    match after? mark (c :: rest) with
    | some tail => some ([], tail)
    | none => (cut? mark rest).map fun (before, tail) => (c :: before, tail)

/-- The two parts of a cut, with the mark between them, are the whole text. -/
theorem eq_of_cut? {mark cs before tail : List Char} (h : cut? mark cs = some (before, tail)) :
    cs = before ++ mark ++ tail := by
  induction cs generalizing before with
  | nil =>
    simp only [cut?] at h
    split at h
    · simp_all
    · simp at h
  | cons c rest ih =>
    rw [cut?] at h
    split at h
    · next t ht =>
      simp only [Option.some.injEq, Prod.mk.injEq] at h
      obtain ⟨rfl, rfl⟩ := h
      simpa using after?_eq_some_iff.mp ht
    · obtain ⟨⟨b, t⟩, hc, hb⟩ := Option.map_eq_some_iff.mp h
      simp only [Prod.mk.injEq] at hb
      obtain ⟨rfl, rfl⟩ := hb
      simp [ih hc]

/-- Whether a text starts with another. -/
def startsWith (s mark : String) : Bool := (after? mark.toList s.toList).isSome

/-- Whether a text ends with another. -/
def endsWith (s mark : String) : Bool := (after? mark.toList.reverse s.toList.reverse).isSome

/-- Joins texts with a separator between them. -/
def joinWith (separator : String) : List String → String
  | [] => ""
  | [s] => s
  | s :: t :: rest => s ++ separator ++ joinWith separator (t :: rest)

/-- A group in parentheses; a group of one keeps a comma. -/
def grouped : List String → String
  | [] => "()"
  | [one] => "(" ++ one ++ ",)"
  | many => "(" ++ joinWith ", " many ++ ")"

/-- A text repeated a number of times. -/
def repeated : Nat → String → String
  | 0, _ => ""
  | n + 1, s => s ++ repeated n s

end Folio.Text
