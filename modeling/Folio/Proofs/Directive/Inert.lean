import Folio.Proofs.Directive.Expand
import Folio.Proofs.Text.Feeds
import Mathlib.Data.List.Forall2

/-!
# Pages that ask for nothing

A line asks for nothing if it neither opens an example nor asks for documentation, and if it holds
no reference unless it is a comment. Such a line is expanded to itself, and nobody is asked for
anything. A page of such lines is expanded to its lines, but each of them ends with a line feed
then: the page comes back as it is exactly if all of its line boundaries are line feeds.
-/

namespace Folio

open Draft Text Directive

namespace Directive

variable {line : String}

/-- A text holds a reference somewhere. -/
def HoldsReference (cs : List Char) : Prop :=
  ∃ tail target rest, tail <:+ cs ∧ Refers tail target rest

/-- A reference starts at the first character or further on. -/
theorem holdsReference_cons {c : Char} {rest : List Char} :
    HoldsReference (c :: rest) ↔
      (∃ target tail, Refers (c :: rest) target tail) ∨ HoldsReference rest := by
  constructor
  · rintro ⟨tail, target, after, hsuffix, hrefers⟩
    rcases List.suffix_cons_iff.mp hsuffix with rfl | hsuffix
    · exact .inl ⟨target, after, hrefers⟩
    · exact .inr ⟨tail, target, after, hsuffix, hrefers⟩
  · rintro (⟨target, tail, hrefers⟩ | ⟨tail, target, after, hsuffix, hrefers⟩)
    · exact ⟨_, target, tail, List.suffix_rfl, hrefers⟩
    · exact ⟨tail, target, after, hsuffix.trans (List.suffix_cons c rest), hrefers⟩

/-- A text without references has its characters for its parts. -/
theorem partsAfter_eq_map_char_iff {cs : List Char} :
    partsAfter 0 cs = cs.map .char ↔ ¬HoldsReference cs := by
  induction cs with
  | nil =>
    refine iff_of_true rfl ?_
    rintro ⟨tail, target, rest, hsuffix, -, htail⟩
    rw [List.suffix_nil.mp hsuffix] at htail
    cases htail
  | cons c rest ih =>
    rw [holdsReference_cons, not_or, List.map_cons]
    by_cases hrefers : ∃ target tail, Refers (c :: rest) target tail
    · refine iff_of_false (fun hparts => ?_) fun h => h.1 hrefers
      obtain ⟨target, tail, hrefers⟩ := hrefers
      rw [partsAfter_of_refers hrefers] at hparts
      cases hparts
    · have hnone (target tail : List Char) : ¬Refers (c :: rest) target tail :=
        fun h => hrefers ⟨target, tail, h⟩
      rw [partsAfter_of_not_refers hnone, ← ih]
      simp [hrefers]

/-- A line asks for nothing. -/
structure Inert (line : String) : Prop where
  opens : ¬Opens line
  documents : ∀ name, ¬Documents line name
  refers : ¬Comments line → ¬HoldsReference line.toList

/-- A line is inert if it opens nothing, documents nothing, and is a comment or has no reference. -/
theorem inert_iff : Inert line ↔ opensExample line = false ∧ documented? line = none ∧
    (isComment line = true ∨ parts line = line.toList.map .char) := by
  have hopens : ¬Opens line ↔ opensExample line = false := by
    rw [← opensExample_iff, Bool.not_eq_true]
  have hdocuments : (∀ name, ¬Documents line name) ↔ documented? line = none := by
    simp only [← documented?_eq_some_iff, Option.eq_none_iff_forall_ne_some, ne_eq]
  have hrefers : (¬Comments line → ¬HoldsReference line.toList) ↔
      isComment line = true ∨ parts line = line.toList.map .char := by
    rw [← isComment_iff, parts, partsAfter_eq_map_char_iff, or_iff_not_imp_left]
  rw [← hopens, ← hdocuments, ← hrefers]
  exact ⟨fun h => ⟨h.opens, h.documents, h.refers⟩, fun ⟨ho, hd, hr⟩ => ⟨ho, hd, hr⟩⟩

instance (line : String) : Decidable (Inert line) := decidable_of_iff _ inert_iff.symm

/-- A line that asks for nothing is a comment or has its characters for its parts. -/
theorem Inert.ofLine_cases (h : Inert line) : Segment.ofLine line = .comment line ∨
    Segment.ofLine line = .plain line ∧ parts line = line.toList.map .char := by
  obtain ⟨-, hdocuments, hrefers⟩ := inert_iff.mp h
  rw [Segment.ofLine, hdocuments]
  cases hcomment : isComment line with
  | true => exact .inl rfl
  | false => exact .inr ⟨rfl, hrefers.resolve_left (by simp [hcomment])⟩

/-- Lines that ask for nothing are read one by one. -/
theorem Segment.after_inert {ls : List String} (h : ∀ line ∈ ls, Inert line) (rest : List String) :
    Segment.after none (ls ++ rest) = ls.map Segment.ofLine ++ Segment.after none rest := by
  induction ls with
  | nil => rfl
  | cons line ls ih =>
    obtain ⟨hline, hls⟩ := List.forall_mem_cons.mp h
    have hopens : ¬opensExample line = true := by simp [(inert_iff.mp hline).1]
    simp only [List.cons_append, Segment.after, if_neg hopens, ih hls, List.map_cons]

end Directive

/-- What comes of segments for which nothing is looked up. -/
structure Shown where
  text : String
  notices : List Notice
  /-- The examples run. -/
  evaluated : List String

namespace Shown

/-- What comes of a line that stands as it is. -/
def ofLine (line : String) : Shown := ⟨line, [], []⟩

/-- Lines that are shown have their texts. -/
@[simp] theorem map_text_ofLine (ls : List String) : (ls.map ofLine).map text = ls := by
  simp [ofLine, Function.comp_def]

/-- Lines that are shown report nothing. -/
@[simp] theorem flatMap_notices_ofLine (ls : List String) :
    (ls.map ofLine).flatMap notices = [] := by
  simp [List.flatMap_map, ofLine]

/-- Lines that are shown run nothing. -/
@[simp] theorem flatMap_evaluated_ofLine (ls : List String) :
    (ls.map ofLine).flatMap evaluated = [] := by
  simp [List.flatMap_map, ofLine]

end Shown

/-- An expansion comes to its end with certain results; nothing is looked up, and the footnotes are
those from before. -/
structure Expansion.Shows (e : Expansion) (notes : Footnotes) (r : Shown) : Prop where
  fault : e.draft.fault = none
  text : e.draft.text = r.text
  notices : e.draft.notices = r.notices
  notes : e.notes = notes
  lookups : e.lookups = []
  evaluated : e.evaluated = r.evaluated

namespace Expander

variable {x : Expander} {page : String} {names : List String} {line : String}

/-- A segment comes to certain results, whatever the footnotes. -/
def Shows (x : Expander) (page : String) (names : List String) (s : Segment) (r : Shown) : Prop :=
  ∀ notes, (x.segment page names notes s).Shows notes r

/-- Characters are written as they stand. -/
theorem line_chars (x : Expander) (page : String) (names : List String) (cs : List Char) :
    (x.line page names (cs.map .char)).fault = none ∧
      (x.line page names (cs.map .char)).text = String.ofList cs ∧
      (x.line page names (cs.map .char)).notices = [] := by
  induction cs with
  | nil => exact ⟨rfl, rfl, rfl⟩
  | cons c cs ih =>
    obtain ⟨hfault, htext, hnotices⟩ := ih
    rw [List.map_cons, line]
    refine ⟨(fault_seq rfl _).trans hfault, ?_, ?_⟩
    · rw [text_seq rfl, markup, text_ofPiece, htext, ← String.toList_inj]
      simp [Piece.written]
    · rw [notices_seq rfl, hnotices]
      rfl

/-- A line that asks for nothing comes to itself. -/
theorem shows_of_inert (h : Inert line) :
    x.Shows page names (Segment.ofLine line) (.ofLine line) := by
  intro notes
  rcases h.ofLine_cases with hcomment | ⟨hplain, hparts⟩
  · rw [hcomment]
    exact ⟨rfl, text_ofPiece _, rfl, rfl, rfl, rfl⟩
  · obtain ⟨hfault, htext, hnotices⟩ := line_chars x page names line.toList
    rw [hplain, segment, hparts]
    exact ⟨hfault, by rw [htext, String.ofList_toList, Shown.ofLine], hnotices, rfl, rfl, rfl⟩

/-- Inert lines are shown as they are. -/
theorem shows_lines {ls : List String} (h : ∀ line ∈ ls, Inert line) :
    List.Forall₂ (x.Shows page names) (ls.map Segment.ofLine) (ls.map Shown.ofLine) := by
  rw [List.forall₂_map_left_iff, List.forall₂_map_right_iff, List.forall₂_same]
  exact fun line hline => shows_of_inert (h line hline)

/-- Behind a segment that comes to its results, the others are expanded as if they stood alone. -/
theorem segments_cons_shows {s t : Segment} {r : Shown} (h : x.Shows page names s r)
    (rest : List Segment) (notes : Footnotes) :
    let all := x.segments page names notes (s :: t :: rest)
    let others := x.segments page names notes (t :: rest)
    all.draft.fault = others.draft.fault ∧ all.draft.text = r.text ++ "\n" ++ others.draft.text ∧
      all.draft.notices = r.notices ++ others.draft.notices ∧ all.notes = others.notes ∧
      all.lookups = others.lookups ∧ all.evaluated = r.evaluated ++ others.evaluated := by
  have hfirst := h notes
  have hline : (markup "\n").fault = none := rfl
  have hdraft := draft_segments_cons x page names notes s t rest
  rw [hfirst.notes] at hdraft
  refine ⟨?_, ?_, ?_, ?_, ?_, ?_⟩
  · rw [hdraft, fault_seq hfirst.fault, fault_seq hline]
  · rw [hdraft, text_seq hfirst.fault, text_seq hline, hfirst.text, markup, text_ofPiece,
      ← String.append_assoc]
    rfl
  · rw [hdraft, notices_seq hfirst.fault, notices_seq hline, hfirst.notices]
    rfl
  · rw [notes_segments_cons hfirst.fault, hfirst.notes]
  · rw [segments, hfirst.fault, hfirst.notes]
    change (x.segment page names notes s).lookups ++ _ = _
    rw [hfirst.lookups, List.nil_append]
  · rw [segments, hfirst.fault, hfirst.notes]
    change (x.segment page names notes s).evaluated ++ _ = _
    rw [hfirst.evaluated]

/-- Segments come to their texts joined by line feeds, and to everything else one after the
other. -/
theorem segments_shows {ss : List Segment} {rs : List Shown}
    (h : List.Forall₂ (x.Shows page names) ss rs) (notes : Footnotes) :
    (x.segments page names notes ss).Shows notes
      ⟨joinWith "\n" (rs.map Shown.text), rs.flatMap Shown.notices,
        rs.flatMap Shown.evaluated⟩ := by
  induction h with
  | nil => exact ⟨rfl, rfl, rfl, rfl, rfl, rfl⟩
  | @cons s r ss rs hs hss ih =>
    cases hss with
    | nil =>
      simp only [segments, List.map_singleton, List.flatMap_singleton]
      exact hs notes
    | @cons t u ss rs ht hss =>
      obtain ⟨hfault, htext, hnotices, hnotes, hlookups, hevaluated⟩ :=
        segments_cons_shows (t := t) hs ss notes
      exact ⟨hfault.trans ih.fault, htext.trans (congrArg _ ih.text),
        hnotices.trans (congrArg _ ih.notices), hnotes.trans ih.notes, hlookups.trans ih.lookups,
        hevaluated.trans (congrArg _ ih.evaluated)⟩

/-- A page comes to what its segments come to, with a line feed at the end if it ends with one. -/
theorem expand_shows {text : String} {rs : List Shown}
    (h : List.Forall₂ (x.Shows page ((lines text).filterMap documented?))
      (Segment.ofLines (lines text)) rs) :
    (x.expand page text).Shows []
      ⟨joinWith "\n" (rs.map Shown.text) ++ (if endsWith text "\n" then "\n" else ""),
        rs.flatMap Shown.notices, rs.flatMap Shown.evaluated⟩ := by
  obtain ⟨hfault, htext, hnotices, hnotes, hlookups, hevaluated⟩ := segments_shows h []
  refine ⟨?_, ?_, ?_, hnotes, hlookups, hevaluated⟩
  · exact (fault_seq hfault _).trans (by cases endsWith text "\n" <;> rfl)
  · refine (text_seq hfault _).trans ?_
    rw [htext]
    cases endsWith text "\n" <;> rfl
  · refine (notices_seq hfault _).trans ?_
    rw [hnotices]
    cases endsWith text "\n" <;> exact List.append_nil _

/-- A page of lines that ask for nothing is expanded without a fault and without a notice, nothing
is looked up and no example is run. It comes back with line feeds for its line boundaries, and so it
is unchanged exactly if all of them are line feeds. -/
theorem expand_inert (x : Expander) (page text : String) (h : ∀ line ∈ lines text, Inert line) :
    (x.expand page text).draft.fault = none ∧ (x.expand page text).draft.notices = [] ∧
      (x.expand page text).lookups = [] ∧ (x.expand page text).evaluated = [] ∧
      (x.expand page text).draft.text = String.ofList (withFeeds text.toList) ∧
      ((x.expand page text).draft.text = text ↔
        ∀ c ∈ text.toList, isLineEnd c = true → c = '\n') := by
  have hsegments : Segment.ofLines (lines text) = (lines text).map Segment.ofLine := by
    have hread := Segment.after_inert h []
    rwa [List.append_nil, Segment.after, List.append_nil] at hread
  have hshown : List.Forall₂ (x.Shows page ((lines text).filterMap documented?))
      (Segment.ofLines (lines text)) ((lines text).map Shown.ofLine) :=
    hsegments ▸ shows_lines h
  obtain ⟨hfault, htext, hnotices, -, hlookups, hevaluated⟩ := expand_shows hshown
  simp only [Shown.map_text_ofLine, Shown.flatMap_notices_ofLine,
    Shown.flatMap_evaluated_ofLine, joinWith_lines] at htext hnotices hevaluated
  refine ⟨hfault, hnotices, hlookups, hevaluated, htext, ?_⟩
  rw [htext, ← withFeeds_eq_self_iff, ← String.toList_inj, String.toList_ofList]

/-- A reference in a comment asks for nothing, and a carriage return goes with its line feed. -/
theorem expand_inert_separated :
    let text := "a\r\n// @typst-ref(b)\x1cc\n"
    (∀ line ∈ lines text, Inert line) ∧
      (smallExpander.expand "api.typ" text).draft.fault = none ∧
      (smallExpander.expand "api.typ" text).draft.text = "a\n// @typst-ref(b)\nc\n" ∧
      (smallExpander.expand "api.typ" text).draft.text ≠ text := by
  intro text
  have hinert : ∀ line ∈ lines text, Inert line := by decide +kernel
  obtain ⟨hfault, -, -, -, htext, -⟩ := expand_inert smallExpander "api.typ" text hinert
  have hfeeds : String.ofList (withFeeds text.toList) = "a\n// @typst-ref(b)\nc\n" := by
    decide +kernel
  have hother : "a\n// @typst-ref(b)\nc\n" ≠ text := by decide +kernel
  have hshown := htext.trans hfeeds
  exact ⟨hinert, hfault, hshown, hshown.trans_ne hother⟩

/-- Not every page of lines that ask for nothing is unchanged: a separator in a comment becomes a
line feed, and what stands behind it is no comment any more. -/
theorem not_expand_inert_eq_self :
    ¬∀ (x : Expander) (page text : String), (∀ line ∈ lines text, Inert line) →
      (x.expand page text).draft.text = text := by
  intro h
  have hinert : ∀ line ∈ lines "// a\x1cb\n", Inert line := by decide +kernel
  have htext : (smallExpander.expand "api.typ" "// a\x1cb\n").draft.text = "// a\nb\n" := by
    decide +kernel
  exact absurd ((h smallExpander "api.typ" _ hinert).symm.trans htext) (by decide)

end Expander

end Folio
