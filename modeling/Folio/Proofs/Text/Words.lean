import Folio.Proofs.Text.Lines
import Mathlib.Data.List.DropRight

/-!
# Words and the blanks between them

Blanks only part the words of a text: how many of them stand between two words does not matter, and
those at the ends do not matter at all. So the words are joined by hyphens when the text is trimmed
and a hyphen is put in place of every run of blanks.
-/

namespace Folio.Text

variable {c : Char} {cs before gap after : List Char}

instance (cs : List Char) : Decidable (Blanks cs) := List.decidableBAll _ cs

/-! ### Words -/

theorem words_cons_of_blank (h : isBlank c = true) (rest : List Char) :
    words (c :: rest) = words rest := by
  rw [words, if_pos h]

theorem words_blanks_append (h : Blanks before) (cs : List Char) :
    words (before ++ cs) = words cs := by
  induction before with
  | nil => rfl
  | cons c before ih =>
    obtain ⟨hc, hbefore⟩ := List.forall_mem_cons.mp h
    rw [List.cons_append, words_cons_of_blank hc, ih hbefore]

theorem words_cons_ne_nil (h : isBlank c = false) (rest : List Char) : words (c :: rest) ≠ [] := by
  rw [words, if_neg (by simp [h])]
  split
  · exact List.cons_ne_nil _ _
  · split <;> exact List.cons_ne_nil _ _

/-- Only blanks have no words. -/
theorem words_eq_nil_iff : words cs = [] ↔ Blanks cs := by
  constructor
  · intro h
    induction cs with
    | nil => exact nofun
    | cons c rest ih =>
      cases hc : isBlank c with
      | false => exact absurd h (words_cons_ne_nil hc rest)
      | true =>
        rw [words_cons_of_blank hc] at h
        exact List.forall_mem_cons.mpr ⟨hc, ih h⟩
  · intro h
    rw [← List.append_nil cs, words_blanks_append h, words]

/-- A character that is no blank starts a word, or it is put in front of the first one. -/
theorem words_cons_of_not_blank (h : isBlank c = false) (rest : List Char) :
    words (c :: rest) =
      if (rest.head?.map isBlank).getD true then [c] :: words rest
      else (c :: (words rest).headD []) :: (words rest).tail := by
  rw [words, if_neg (by simp [h])]
  cases words rest <;> rfl

/-- A gap parts the words on its sides, however long it is. -/
theorem words_gap (hgap : Blanks gap) (hne : gap ≠ []) (before after : List Char) :
    words (before ++ gap ++ after) = words before ++ words after := by
  induction before with
  | nil => exact words_blanks_append hgap after
  | cons c before ih =>
    rw [List.cons_append, List.cons_append]
    cases hc : isBlank c with
    | true => rw [words_cons_of_blank hc, words_cons_of_blank hc, ih]
    | false =>
      rw [words_cons_of_not_blank hc, words_cons_of_not_blank hc, ih]
      cases before with
      | nil =>
        obtain ⟨b, gap, rfl⟩ := List.exists_cons_of_ne_nil hne
        simp [hgap b List.mem_cons_self, words]
      | cons d before =>
        cases hd : isBlank d with
        | true => simp [hd]
        | false =>
          obtain ⟨w, ws, hws⟩ := List.exists_cons_of_ne_nil (words_cons_ne_nil hd before)
          simp [hd, hws]

/-- Blanks at the ends do not matter. -/
theorem words_between (hbefore : Blanks before) (hafter : Blanks after) (cs : List Char) :
    words (before ++ cs ++ after) = words cs := by
  rw [List.append_assoc, words_blanks_append hbefore]
  by_cases hnone : after = []
  · rw [hnone, List.append_nil]
  · rw [← List.append_nil (cs ++ after), words_gap hafter hnone, words, List.append_nil]

theorem words_trimmed (cs : List Char) : words (trimmed cs) = words cs := by
  obtain ⟨before, after, hbefore, hafter, hcs⟩ := exists_trimmed cs
  conv_rhs => rw [hcs, words_between hbefore hafter]

/-- A text without blanks is one word, or none if it is empty. -/
theorem words_of_not_blank (h : ∀ c ∈ cs, isBlank c = false) (hne : cs ≠ []) :
    words cs = [cs] := by
  induction cs with
  | nil => exact absurd rfl hne
  | cons c rest ih =>
    obtain ⟨hc, hrest⟩ := List.forall_mem_cons.mp h
    rw [words_cons_of_not_blank hc]
    cases rest with
    | nil => rfl
    | cons d rest =>
      rw [ih hrest (List.cons_ne_nil d rest)]
      simp [hrest d List.mem_cons_self]

/-! ### Runs of blanks -/

/-- A text with a hyphen in place of every run of blanks; `inRun` tells whether the text stands
behind a blank. -/
def hyphenated (inRun : Bool) : List Char → List Char
  | [] => []
  | c :: rest =>
    if isBlank c then (if inRun then [] else ['-']) ++ hyphenated true rest
    else c :: hyphenated false rest

/-- Without a blank at the front it does not matter what stands there. -/
theorem hyphenated_of_head (h : ∀ c ∈ cs.head?, isBlank c = false) :
    hyphenated false cs = hyphenated true cs := by
  cases cs with
  | nil => rfl
  | cons c rest =>
    have hc : isBlank c = false := h c rfl
    simp [hyphenated, hc]

/-- Behind a blank, and without blanks at the end, hyphens stand between the words only. -/
theorem hyphenated_of_getLast (h : ∀ c ∈ cs.getLast?, isBlank c = false) :
    hyphenated true cs = ['-'].intercalate (words cs) := by
  induction cs with
  | nil => rfl
  | cons c rest ih =>
    have hlast : ∀ d ∈ rest.getLast?, isBlank d = false := by
      cases rest with
      | nil => exact nofun
      | cons d rest => rwa [List.getLast?_cons_cons] at h
    rw [hyphenated]
    cases hc : isBlank c with
    | true => rw [if_pos rfl, if_pos rfl, List.nil_append, words_cons_of_blank hc, ih hlast]
    | false =>
      rw [if_neg Bool.false_ne_true, words_cons_of_not_blank hc]
      cases rest with
      | nil => rfl
      | cons d rest =>
        cases hd : isBlank d with
        | true =>
          have hne : words (d :: rest) ≠ [] := fun hnone =>
            have hmem := List.getLast?_eq_some_getLast (List.cons_ne_nil d rest)
            Bool.false_ne_true ((hlast _ hmem).symm.trans
              (words_eq_nil_iff.mp hnone _ (List.getLast_mem (List.cons_ne_nil d rest))))
          have hrun : hyphenated false (d :: rest) = '-' :: hyphenated true (d :: rest) := by
            simp [hyphenated, hd]
          rw [hrun, ih hlast, if_pos (by simp [hd]), List.intercalate_cons_of_ne_nil hne]
          rfl
        | false =>
          obtain ⟨w, ws, hws⟩ := List.exists_cons_of_ne_nil (words_cons_ne_nil hd rest)
          rw [hyphenated_of_head (by simp [hd]), ih hlast, if_neg (by simp [hd]), hws]
          cases ws <;> rfl

/-- A trimmed text has no blanks at its ends. -/
theorem hyphenated_trimmed (cs : List Char) :
    hyphenated false (trimmed cs) = ['-'].intercalate (words cs) := by
  have hfirst (d : Char) (hd : d ∈ (trimmed cs).head?) : isBlank d = false := by
    obtain ⟨rest, hrest⟩ := List.rdropWhile_prefix isBlank (l := cs.dropWhile isBlank)
    have hsame : (cs.dropWhile isBlank).head? = some d := by
      rw [← hrest, List.head?_append, show (List.rdropWhile isBlank _).head? = some d from hd]
      rfl
    simpa [hsame] using List.head?_dropWhile_not isBlank cs
  have hlast (d : Char) (hd : d ∈ (trimmed cs).getLast?) : isBlank d = false := by
    obtain ⟨hne, rfl⟩ := List.mem_getLast?_eq_getLast hd
    exact Bool.eq_false_iff.mpr (List.rdropWhile_last_not isBlank _ hne)
  rw [hyphenated_of_head hfirst, hyphenated_of_getLast hlast, words_trimmed]

end Folio.Text
