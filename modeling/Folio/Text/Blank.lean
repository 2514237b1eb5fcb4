import Folio.Text.Range

/-!
# Blanks and words

A blank is a white space character of any script, a line or record separator included. Trimming
removes blanks from the ends of a text, and the words of a text are its longest runs without a
blank.
-/

namespace Folio.Text

/-- The white space characters. -/
def blankRanges : List (Nat × Nat) := [
  (0x9, 0xD), (0x1C, 0x20), (0x85, 0x85), (0xA0, 0xA0), (0x1680, 0x1680), (0x2000, 0x200A),
  (0x2028, 0x2029), (0x202F, 0x202F), (0x205F, 0x205F), (0x3000, 0x3000)]

/-- Whether a character is white space. -/
def isBlank (c : Char) : Bool := covers blankRanges c.toNat

/-- Removes the longest run of matching characters at the end. -/
def dropEndWhile (p : Char → Bool) (cs : List Char) : List Char :=
  (cs.reverse.dropWhile p).reverse

/-- Removes the matching characters at both ends. -/
def trimWhile (p : Char → Bool) (cs : List Char) : List Char :=
  dropEndWhile p (cs.dropWhile p)

/-- Removes the blanks at both ends. -/
def trimmed (cs : List Char) : List Char := trimWhile isBlank cs

/-- The text without the blanks at its ends. -/
def trim (s : String) : String := String.ofList (trimmed s.toList)

/-- The longest runs of characters that are not blank. -/
def words : List Char → List (List Char)
  | [] => []
  | c :: rest =>
    if isBlank c then words rest
    else if (rest.head?.map isBlank).getD true then [c] :: words rest
    else match words rest with
      | [] => [[c]]
      | w :: ws => (c :: w) :: ws

/-- Every word has a character, and none of its characters is blank. -/
theorem of_mem_words {cs : List Char} {w : List Char} (h : w ∈ words cs) :
    w ≠ [] ∧ ∀ c ∈ w, isBlank c = false := by
  induction cs generalizing w with
  | nil => simp [words] at h
  | cons c rest ih =>
    rw [words] at h
    split at h
    · exact ih h
    · next hc =>
      have hc : isBlank c = false := by simpa using hc
      split at h
      · rcases List.mem_cons.mp h with rfl | h
        · simp [hc]
        · exact ih h
      · split at h
        · rcases List.mem_cons.mp h with rfl | h
          · simp [hc]
          · simp at h
        · next v vs hv =>
          rcases List.mem_cons.mp h with rfl | h
          · have := ih (w := v) (by simp [hv])
            simp [hc]
            exact this.2
          · exact ih (by simp [hv, h])

end Folio.Text
