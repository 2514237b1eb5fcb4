/-!
# Classes of characters

A class of characters is an ascending table of inclusive ranges of code points. Looking a code
point up stops at the first range that starts above it.
-/

namespace Folio.Text

/-- Whether an ascending table of inclusive ranges covers a code point. -/
def covers : List (Nat × Nat) → Nat → Bool
  | [], _ => false
  | (first, last) :: rest, n => first ≤ n && (n ≤ last || covers rest n)

/-- A covered code point lies in one of the ranges. -/
theorem exists_of_covers {table : List (Nat × Nat)} {n : Nat} (h : covers table n = true) :
    ∃ r ∈ table, r.1 ≤ n ∧ n ≤ r.2 := by
  induction table with
  | nil => simp [covers] at h
  | cons r rest ih =>
    simp only [covers, Bool.and_eq_true, Bool.or_eq_true, decide_eq_true_eq] at h
    rcases h with ⟨hr, hn | hn⟩
    · exact ⟨r, by simp, hr, hn⟩
    · obtain ⟨t, ht, hb⟩ := ih hn
      exact ⟨t, by simp [ht], hb⟩

end Folio.Text
