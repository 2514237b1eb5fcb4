import Folio.Proofs.Text.Lines
import Folio.Proofs.Text.Split

/-!
# Lines put together again

Lines that are joined by line feeds, with one more behind them if the text ended with one, are not
always the text again: every other line boundary becomes a line feed, and one at the very end is
lost. So the text comes back exactly if all of its line boundaries are line feeds.
-/

namespace Folio.Text

/-- A text with line feeds for its line boundaries, without one at the very end that is no line
feed. -/
def withFeeds : List Char → List Char
  | [] => []
  | '\r' :: '\n' :: rest => '\n' :: withFeeds rest
  | c :: rest =>
    if isLineEnd c then if rest = [] ∧ c ≠ '\n' then [] else '\n' :: withFeeds rest
    else c :: withFeeds rest

/-- Lines joined by line feeds, with one more behind them or not. -/
def joinedLines (ls : List (List Char)) (last : Option Char) : List Char :=
  ['\n'].intercalate ls ++ if last = some '\n' then ['\n'] else []

theorem joinedLines_nil_cons {ls : List (List Char)} (h : ls ≠ []) (last : Option Char) :
    joinedLines ([] :: ls) last = '\n' :: joinedLines ls last := by
  rw [joinedLines, List.intercalate_cons_of_ne_nil h]
  rfl

theorem joinedLines_consLine (c : Char) (ls : List (List Char)) (last : Option Char) :
    joinedLines (consLine c ls) last = c :: joinedLines ls last := by
  cases ls with
  | nil => rfl
  | cons line ls =>
    rw [consLine]
    cases ls <;> rfl

/-- Only the empty text has no lines. -/
theorem splitLines_eq_nil_iff {cs : List Char} : splitLines cs = [] ↔ cs = [] := by
  refine ⟨fun h => ?_, fun h => h ▸ rfl⟩
  fun_induction splitLines cs with
  | case1 => rfl
  | case2 => cases h
  | case3 => cases h
  | case4 c rest => cases hrest : splitLines rest <;> simp [consLine, hrest] at h

/-- The lines of a text have no line boundaries. -/
theorem isLineEnd_eq_false_of_mem_splitLines {cs line : List Char} (h : line ∈ splitLines cs) :
    ∀ c ∈ line, isLineEnd c = false := by
  fun_induction splitLines cs generalizing line with
  | case1 => cases h
  | case2 rest ih | case3 _ rest _ _ ih =>
    rcases List.mem_cons.mp h with rfl | h
    · exact nofun
    · exact ih h
  | case4 c rest hrest hc ih =>
    have hc : isLineEnd c = false := by simpa using hc
    cases hlines : splitLines rest with
    | nil =>
      rw [hlines, consLine, List.mem_singleton] at h
      subst h
      exact List.forall_mem_singleton.mpr hc
    | cons first others =>
      rw [hlines, consLine] at h
      rw [hlines] at ih
      rcases List.mem_cons.mp h with rfl | h
      · exact List.forall_mem_cons.mpr ⟨hc, ih List.mem_cons_self⟩
      · exact ih (List.mem_cons_of_mem _ h)

theorem isLine_of_mem_lines {s line : String} (h : line ∈ lines s) : IsLine line := by
  obtain ⟨cs, hcs, rfl⟩ := List.mem_map.mp h
  rw [IsLine, String.toList_ofList]
  exact isLineEnd_eq_false_of_mem_splitLines hcs

/-- The lines of a text put together again are the text with line feeds. -/
theorem joinedLines_splitLines (cs : List Char) :
    joinedLines (splitLines cs) cs.getLast? = withFeeds cs := by
  fun_induction splitLines cs with
  | case1 => rfl
  | case2 rest ih =>
    rw [withFeeds]
    cases rest with
    | nil => rfl
    | cons d rest =>
      have hne : splitLines (d :: rest) ≠ [] :=
        mt splitLines_eq_nil_iff.mp (List.cons_ne_nil d rest)
      rw [List.getLast?_cons_cons, List.getLast?_cons_cons, joinedLines_nil_cons hne, ih]
  | case3 c rest hrest hc ih =>
    rw [withFeeds, if_pos hc]
    · cases rest with
      | nil =>
        by_cases hfeed : c = '\n'
        · subst hfeed
          rfl
        · rw [if_pos ⟨rfl, hfeed⟩, joinedLines, List.getLast?_singleton,
            if_neg (by simpa using hfeed)]
          rfl
      | cons d rest =>
        have hne : splitLines (d :: rest) ≠ [] :=
          mt splitLines_eq_nil_iff.mp (List.cons_ne_nil d rest)
        rw [if_neg (by simp), List.getLast?_cons_cons, joinedLines_nil_cons hne, ih]
    · exact hrest
  | case4 c rest hrest hc ih =>
    rw [withFeeds, if_neg hc, joinedLines_consLine]
    · cases rest with
      | nil =>
        have hfeed : c ≠ '\n' := by
          rintro rfl
          exact hc (by decide)
        rw [List.getLast?_singleton, joinedLines, if_neg (by simpa using hfeed)]
        rfl
      | cons d rest => rw [List.getLast?_cons_cons, ih]
    · exact hrest

/-- The lines of a text, joined by line feeds and with a line feed behind them if the text ends with
one, are the text with line feeds for its line boundaries. -/
theorem joinWith_lines (s : String) :
    joinWith "\n" (lines s) ++ (if endsWith s "\n" then "\n" else "") =
      String.ofList (withFeeds s.toList) := by
  have hend : endsWith s "\n" = true ↔ s.toList.getLast? = some '\n' := by
    rw [endsWith_iff, List.getLast?_eq_some_iff]
    exact exists_congr fun _ => eq_comm
  have hparts : (lines s).map String.toList = splitLines s.toList := by
    simp [lines, Function.comp_def]
  rw [← String.toList_inj, String.toList_append, toList_joinWith, hparts, apply_ite String.toList,
    ← joinedLines_splitLines, joinedLines]
  simp only [hend, String.toList_ofList]
  rfl

/-- A text with line feeds has no other line boundaries. -/
theorem eq_of_mem_withFeeds {cs : List Char} {c : Char} (h : c ∈ withFeeds cs)
    (hc : isLineEnd c = true) : c = '\n' := by
  fun_induction withFeeds cs with
  | case1 => cases h
  | case2 rest ih => exact (List.mem_cons.mp h).elim id ih
  | case3 => cases h
  | case4 _ rest _ _ _ ih => exact (List.mem_cons.mp h).elim id ih
  | case5 d rest _ hd ih =>
    rcases List.mem_cons.mp h with rfl | h
    · exact absurd hc hd
    · exact ih h

/-- Putting in line feeds changes a text unless all of its line boundaries are line feeds. -/
theorem withFeeds_eq_self_iff {cs : List Char} :
    withFeeds cs = cs ↔ ∀ c ∈ cs, isLineEnd c = true → c = '\n' := by
  refine ⟨fun h c hc hend => eq_of_mem_withFeeds (by rwa [h]) hend, fun h => ?_⟩
  fun_induction withFeeds cs with
  | case1 => rfl
  | case2 rest ih => exact absurd (h '\r' List.mem_cons_self rfl) (by decide)
  | case3 c rest _ hc hlast => exact absurd (h c List.mem_cons_self hc) hlast.2
  | case4 c rest _ hc hlast ih =>
    rw [h c List.mem_cons_self hc, ih fun d hd => h d (List.mem_cons_of_mem _ hd)]
  | case5 c rest _ hc ih => rw [ih fun d hd => h d (List.mem_cons_of_mem _ hd)]

end Folio.Text
