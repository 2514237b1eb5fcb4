import Folio.Proofs.Directive.Inert
import Folio.Proofs.Markup.Strings
import Folio.Proofs.Results

/-!
# Examples as they are run and shown

The code of an example stands in a comment: every line of it behind two slashes and a space, with
spaces and tabs in front. Whatever the lines say, the example is closed by the line that closes it
and not before, the code that is run is the lines joined by line feeds, and the block of code that
is shown is read back to the same code. What comes of the run is shown behind that block and changes
nothing else.
-/

namespace Folio

open Draft Text Directive

namespace Text

/-- Trimming stops at the first and at the last character that stays. -/
theorem trimWhile_append {p : Char → Bool} {before inside after : List Char}
    (hbefore : ∀ c ∈ before, p c = true) (hafter : ∀ c ∈ after, p c = true)
    (hfirst : ∃ c rest, inside = c :: rest ∧ p c = false)
    (hlast : ∃ init c, inside = init ++ [c] ∧ p c = false) :
    trimWhile p (before ++ inside ++ after) = inside := by
  obtain ⟨first, rest, rfl, hstay⟩ := hfirst
  obtain ⟨init, last, hinside, hend⟩ := hlast
  rw [trimWhile, List.append_assoc, List.dropWhile_append_of_pos hbefore, List.cons_append,
    List.dropWhile_cons_of_neg (by simp [hstay]), ← List.cons_append, dropEndWhile_append hafter,
    hinside, dropEndWhile_concat_of_neg hend]

/-- Joined texts start with the first one. -/
theorem joinWith_cons (separator s : String) (rest : List String) :
    ∃ tail, joinWith separator (s :: rest) = s ++ tail := by
  cases rest with
  | nil => exact ⟨"", String.append_empty.symm⟩
  | cons t rest => exact ⟨separator ++ joinWith separator (t :: rest), String.append_assoc ..⟩

end Text

namespace Directive

variable {line row : String} {ls rows : List String}

/-- A line of code stands in a row of an example: behind spaces and tabs, two slashes and a
space. -/
def IsRow (line row : String) : Prop :=
  ∃ margin : List Char, (∀ c ∈ margin, c = ' ' ∨ c = '\t') ∧
    row.toList = margin ++ '/' :: '/' :: ' ' :: line.toList

/-- A margin of spaces and tabs is blank. -/
theorem blanks_of_margin {margin : List Char} (h : ∀ c ∈ margin, c = ' ' ∨ c = '\t') :
    Blanks margin := by
  intro c hc
  rcases h c hc with rfl | rfl <;> decide

/-- The line is read back from its row. -/
theorem IsRow.uncommented_eq (h : IsRow line row) : uncommented row = line := by
  obtain ⟨margin, hmargin, hrow⟩ := h
  have hslashes (rest : List Char) : after? ['/', '/'] ('/' :: '/' :: rest) = some rest := rfl
  rw [uncommented, hrow, List.dropWhile_append_of_pos (blanks_of_margin hmargin),
    List.dropWhile_cons_of_neg (by decide), hslashes]
  exact String.ofList_toList

/-- A row closes an example only if the line says so itself, without slashes. -/
theorem IsRow.closes_iff (h : IsRow line row) : Closes row ↔ trim line = "@typst-example-end" := by
  obtain ⟨margin, hmargin, hrow⟩ := h
  have hmargin := blanks_of_margin hmargin
  constructor
  · rintro ⟨before, gap, after, hbefore, hgap, hafter, hsays⟩
    have hblank {cs : List Char} (hcs : Blanks cs) : ∀ c ∈ cs, ¬c = '/' := by
      rintro c hc rfl
      exact absurd (hcs _ hc) (by decide)
    rw [hrow, List.append_assoc, List.cons_append, List.cons_append] at hsays
    obtain ⟨-, -, hrest⟩ := first_unique (hblank hmargin) rfl (hblank hbefore) rfl hsays
    -- The space behind the slashes is the first of the blanks in front of the words.
    cases gap with
    | nil => cases (List.cons.inj (List.cons.inj hrest).2).1
    | cons b gap =>
      have hline : line.toList = gap ++ "@typst-example-end".toList ++ after :=
        (List.cons.inj (List.cons.inj hrest).2).2
      have hinside : trimmed line.toList = "@typst-example-end".toList := by
        rw [hline]
        exact trimWhile_append (List.forall_mem_cons.mp hgap).2 hafter
          ⟨'@', _, rfl, by decide⟩ ⟨"@typst-example-en".toList, 'd', by decide, by decide⟩
      rw [trim, hinside]
      rfl
  · intro htrim
    obtain ⟨gap, after, hgap, hafter, hline⟩ := exists_trimmed line.toList
    have hinside : trimmed line.toList = "@typst-example-end".toList := by
      rw [← htrim, trim, String.toList_ofList]
    refine ⟨margin, ' ' :: gap, after, hmargin, List.forall_mem_cons.mpr ⟨by decide, hgap⟩,
      hafter, ?_⟩
    rw [hrow, hline, hinside]
    simp

/-- The characters of a line are among those of its row. -/
theorem IsRow.isLine (h : IsRow line row) (hrow : IsLine row) : IsLine line := by
  obtain ⟨margin, -, hparts⟩ := h
  intro c hc
  exact hrow c (by simp [hparts, hc])

/-- The lines are read back from their rows. -/
theorem map_uncommented (h : List.Forall₂ IsRow ls rows) : rows.map uncommented = ls := by
  induction h with
  | nil => rfl
  | cons hrow _ ih => rw [List.map_cons, hrow.uncommented_eq, ih]

end Directive

/-- An expansion ends with a fault; certain examples have been run and nothing was looked up. -/
structure Expansion.Ends (e : Expansion) (f : Fault) (notices : List Notice)
    (evaluated : List String) : Prop where
  fault : e.draft.fault = some f
  notices : e.draft.notices = notices
  lookups : e.lookups = []
  evaluated : e.evaluated = evaluated

namespace Expander

variable {x : Expander} {page : String} {names : List String}

/-- Nothing is trimmed off the code of an example that neither begins nor ends with an empty
line. -/
theorem sampleCode_eq {ls : List String} (hne : ls ≠ []) (hls : ∀ line ∈ ls, IsLine line)
    (hfirst : ls.head? ≠ some "") (hlast : ls.getLast? ≠ some "") :
    sampleCode ls = joinWith "\n" ls := by
  have hstay {c : Char} {line : String} (hline : line ∈ ls) (hc : c ∈ line.toList) :
      decide (c = '\n') = false := by
    refine decide_eq_false ?_
    rintro rfl
    exact absurd (hls line hline _ hc) (by decide)
  have hbegin : ∃ c rest, (joinWith "\n" ls).toList = c :: rest ∧ decide (c = '\n') = false := by
    obtain ⟨first, rest, rfl⟩ := List.exists_cons_of_ne_nil hne
    have hchars : first.toList ≠ [] := by simpa using hfirst
    obtain ⟨c, cs, hcs⟩ := List.exists_cons_of_ne_nil hchars
    obtain ⟨tail, htail⟩ := joinWith_cons "\n" first rest
    exact ⟨c, cs ++ tail.toList, by rw [htail, String.toList_append, hcs, List.cons_append],
      hstay List.mem_cons_self (hcs ▸ List.mem_cons_self)⟩
  have hend : ∃ init c, (joinWith "\n" ls).toList = init ++ [c] ∧ decide (c = '\n') = false := by
    obtain ⟨init, last, rfl⟩ := (List.eq_nil_or_concat' ls).resolve_left hne
    have hchars : last.toList ≠ [] := by simpa using hlast
    have hc : decide (last.toList.getLast hchars = '\n') = false :=
      hstay (by simp) (List.getLast_mem hchars)
    have hother : '\n' ∉ [last.toList.getLast hchars] := by
      simpa using Ne.symm (of_decide_eq_false hc)
    have hsuffix : [last.toList.getLast hchars] <:+ (joinWith "\n" (init ++ [last])).toList := by
      rw [toList_joinWith, List.map_append, List.map_singleton]
      exact (suffix_intercalate_iff hother).mpr
        ⟨last.toList.dropLast, List.dropLast_concat_getLast hchars⟩
    obtain ⟨front, hfront⟩ := hsuffix
    exact ⟨front, _, hfront.symm, hc⟩
  rw [sampleCode, ← String.toList_inj, String.toList_ofList]
  simpa using trimWhile_append (List.forall_mem_nil _) (List.forall_mem_nil _) hbegin hend

/-- Verbatim code is one call with its code escaped. -/
theorem verbatimText_eq (language text : String) : verbatimText language text =
    "#raw(\"" ++ Markup.escapeString text ++ "\", block: true, lang: \"" ++ language ++ "\")" := by
  rw [← String.toList_inj]
  simp [verbatimText, literalText]

/-- What is noticed about the run of an example. -/
def outcomeNotices (page : String) : Outcome → List Notice
  | .raised error message => [.exampleFailed page error message]
  | .returned _ _ | .interrupted _ => []

/-- What reports nothing reports nothing under a condition. -/
theorem notices_when {d : Draft} (h : d.notices = []) (condition : Bool) :
    (when condition d).notices = [] := by
  cases condition with
  | false => rfl
  | true => exact h

/-- What is reported of an outcome does not depend on how it is written. -/
theorem notices_outcomeDraft (page : String) (outcome : Outcome) :
    (outcomeDraft page outcome).notices = outcomeNotices page outcome := by
  cases outcome with
  | returned output value =>
    rw [outcomeDraft]
    cases shownResult output value with
    | error f => rfl
    | ok shown => exact notices_when rfl _
  | raised error message => rfl
  | interrupted kind => rfl

/-- An example that is closed ends as what comes of it does, and notices what is noticed about
it. -/
theorem sample_closed (page : String) (inside : List String) :
    (x.sample page inside true).fault =
        (outcomeDraft page (x.evaluator (sampleCode inside))).fault ∧
      (x.sample page inside true).notices =
        outcomeNotices page (x.evaluator (sampleCode inside)) := by
  have hclosed : (when (!true) (notice (.unterminatedExample page))).notices = [] := rfl
  have hcode : (verbatim x.language (sampleCode inside)).notices = [] := rfl
  rw [sample_eq, fault_seq rfl, fault_seq rfl, notices_seq rfl, notices_seq rfl, hclosed, hcode,
    List.nil_append, List.nil_append]
  exact ⟨rfl, notices_outcomeDraft _ _⟩

/-- What comes of an example with certain code, where that can be shown. -/
def shownSample (x : Expander) (page code below : String) : Shown where
  text := verbatimText x.language code ++ below
  notices := outcomeNotices page (x.evaluator code)
  evaluated := [code]

/-- An example that is closed comes to its code and what is shown behind it. -/
theorem shows_sample (inside : List String) {below : String}
    (h : outcomeText (x.evaluator (sampleCode inside)) = .ok below) :
    x.Shows page names (.sample inside true) (x.shownSample page (sampleCode inside) below) := by
  intro notes
  obtain ⟨hfault, hnotices⟩ := sample_closed (x := x) page inside
  rcases outcomeDraft_result page (x.evaluator (sampleCode inside)) with ⟨-, hnone⟩ | ⟨f, herror, -⟩
  · have htext := sampleText_eq_ok (hfault.trans hnone)
    rw [sampleText, h] at htext
    exact ⟨hfault.trans hnone, (Except.ok.inj htext).symm, hnotices, rfl, rfl, rfl⟩
  · rw [h] at herror
    cases herror

/-- An example that is closed and of which nothing can be shown ends the page. -/
theorem segment_ends {inside : List String} {f : Fault}
    (h : outcomeText (x.evaluator (sampleCode inside)) = .error f) (notes : Footnotes) :
    (x.segment page names notes (.sample inside true)).Ends f
      (outcomeNotices page (x.evaluator (sampleCode inside))) [sampleCode inside] := by
  obtain ⟨hfault, hnotices⟩ := sample_closed (x := x) page inside
  rcases outcomeDraft_result page (x.evaluator (sampleCode inside)) with
    ⟨hok, -⟩ | ⟨g, herror, hend⟩
  · rw [h] at hok
    cases hok
  · obtain rfl := Except.error.inj (h.symm.trans herror)
    exact ⟨hfault.trans hend, hnotices, rfl, rfl⟩

/-- Segments in front of one that ends the page are expanded, and those behind it are not. -/
theorem segments_ends (page : String) (names : List String) (rest : List Segment)
    {before : List Segment} {rs : List Shown} {s : Segment} {f : Fault} {notices : List Notice}
    {evaluated : List String}
    (hbefore : List.Forall₂ (x.Shows page names) before rs)
    (hs : ∀ notes, (x.segment page names notes s).Ends f notices evaluated) (notes : Footnotes) :
    (x.segments page names notes (before ++ s :: rest)).Ends f
      (rs.flatMap Shown.notices ++ notices) (rs.flatMap Shown.evaluated ++ evaluated) := by
  induction hbefore with
  | nil =>
    have hend := hs notes
    rw [List.nil_append, segments_of_fault (by simp [hend.fault])]
    exact hend
  | @cons t r before rs ht hbefore ih =>
    obtain ⟨u, others, hothers⟩ := List.exists_cons_of_ne_nil
      (List.append_ne_nil_of_right_ne_nil before (List.cons_ne_nil s rest))
    rw [hothers] at ih
    rw [List.cons_append, hothers]
    obtain ⟨hfault, -, hnotices, -, hlookups, hevaluated⟩ :=
      segments_cons_shows (t := u) ht others notes
    exact ⟨hfault.trans ih.fault, hnotices.trans (by simp [ih.notices]),
      hlookups.trans ih.lookups, hevaluated.trans (by simp [ih.evaluated])⟩

/-- An example of which nothing can be shown ends the page. -/
theorem expand_ends (page : String) {text : String} {before after inside : List String} {f : Fault}
    (hbefore : ∀ line ∈ before, Inert line)
    (hsegments : Segment.ofLines (lines text) =
      before.map Segment.ofLine ++ .sample inside true :: after.map Segment.ofLine)
    (h : outcomeText (x.evaluator (sampleCode inside)) = .error f) :
    (x.expand page text).Ends f (outcomeNotices page (x.evaluator (sampleCode inside)))
      [sampleCode inside] := by
  have hends := segments_ends page ((lines text).filterMap documented?) (after.map .ofLine)
    (shows_lines hbefore) (segment_ends h) []
  rw [← hsegments, Shown.flatMap_notices_ofLine, Shown.flatMap_evaluated_ofLine] at hends
  have hdraft := seq_of_fault hends.fault (when (endsWith text "\n") (markup "\n"))
  exact ⟨(congrArg Draft.fault hdraft).trans hends.fault,
    (congrArg Draft.notices hdraft).trans hends.notices, hends.lookups, hends.evaluated⟩

/-- The lines of a page with one example between lines that ask for nothing are read as they stand,
and the example as the code that its rows hold. -/
theorem ofLines_sample {before rows after ls : List String} {opening closing : String}
    (hbefore : ∀ line ∈ before, Inert line) (hafter : ∀ line ∈ after, Inert line)
    (hopening : Opens opening) (hclosing : Closes closing) (hrows : List.Forall₂ IsRow ls rows)
    (hends : ∀ line ∈ ls, trim line ≠ "@typst-example-end") :
    Segment.ofLines (before ++ opening :: (rows ++ closing :: after)) =
      before.map Segment.ofLine ++ .sample ls true :: after.map Segment.ofLine := by
  have hinside : ∀ row ∈ rows, ¬Closes row :=
    forall_mem_of_forall₂ (fun _ _ hrow hend => mt hrow.closes_iff.mp hend) hrows hends
  have hrest := Segment.after_inert hafter []
  rw [List.append_nil, Segment.after, List.append_nil] at hrest
  simp only [Segment.ofLines, Segment.after_inert hbefore, Segment.after,
    if_pos (opensExample_iff.mpr hopening), CutInto.after_some hinside,
    if_pos (closesExample_iff.mpr hclosing), map_uncommented hrows, hrest, List.append_nil,
    List.reverse_reverse]

/-- Code with lines that look like directives. -/
def deceptiveLines : List String := [
  "print(\"a\\\\\")", "  // @typst-example-end", "", "// @typst-docs f",
  "@typst-ref(f) @typst-example-end"]

/-- The code as an example, behind a line of text. -/
def deceptivePage : String :=
  "Use\n\t//@typst-example\n\t // print(\"a\\\\\")\r\n//   // @typst-example-end\n// \n" ++
    "// // @typst-docs f\n // @typst-ref(f) @typst-example-end\n// @typst-example-end \n"

/-- The smallest number with more digits than can be shown. -/
def unshownNumber : Value := .int (Number.pow10 Number.mostDigits : Nat)

/-- A number that cannot be shown has no text. -/
theorem outcomeText_unshownNumber :
    outcomeText (.returned "" unshownNumber) = .error .unshowable := by
  have hvalue : unshownNumber.isShowable = false := by
    simp only [unshownNumber, Value.isShowable, Scalar.isShowable, Int.natAbs_natCast,
      Nat.lt_irrefl, decide_false]
  have hshown : shownResult "" unshownNumber = .error .unshowable := by
    unfold shownResult
    rw [if_neg (by decide)]
    exact if_neg (Bool.eq_false_iff.mp hvalue)
  rw [outcomeText, hshown]
  rfl

/-- A page with one example. -/
def powerPage : String := "// @typst-example\n// 10**4300\n// @typst-example-end\n"

/-- The page with the power is one example. -/
theorem segments_powerPage :
    Segment.ofLines (lines powerPage) =
      [].map Segment.ofLine ++ .sample ["10**4300"] true :: [].map Segment.ofLine := by
  decide +kernel

end Expander

end Folio
