import Folio.Proofs.Directive.Expand
import Mathlib.Data.List.Basic

/-!
# Where the references of a hand-written page lead

A reference is looked up twice: among the names that any line of the page asks the documentation of,
and then among the labels of the book. In strict mode the second search finds a label that the index
holds, or the page is not expanded at all. The first one takes every line for a directive, also a
line inside an example and one whose binding is unknown, so that a reference may lead to
documentation that is not written. Nothing else lets a reference lead nowhere.
-/

namespace Folio

open Draft Text Directive

/-- Whether the index holds a label of some name for the page it is on. -/
def Labels.Holds (labels : Labels) (id : LabelId) : Prop :=
  ∃ fragment, labels.index.get? (Labels.key id.page fragment) = some id.name

/-- In strict mode a fragment leads to a label that the index holds for the page. -/
theorem Labels.holds_of_resolve {labels : Labels} (hstrict : labels.strict = true)
    {page fragment : String} (hfragment : fragment ≠ "") {id : LabelId}
    (h : labels.resolve page fragment = .ok id) :
    id.page = Path.normal labels.base page ∧ labels.Holds id := by
  rw [resolve, resolveName, if_neg hfragment] at h
  split at h
  · next name hname =>
    obtain rfl := Except.ok.inj h
    exact ⟨rfl, fragment, hname⟩
  · rw [if_pos hstrict] at h
    cases h

namespace Directive

/-- The target of a part of a line, if it is a reference. -/
def Part.target? : Part → Option String
  | reference target => some (String.ofList target)
  | char _ => none

/-- The targets of the references in a segment. Only lines that are neither comments nor in an
example hold references. -/
def Segment.references : Segment → List String
  | plain line => (parts line).filterMap Part.target?
  | _ => []

/-- The targets of the references on a page, in order. -/
def references (ls : List String) : List String := (Segment.ofLines ls).flatMap Segment.references

/-- The target of a reference is not empty. -/
theorem ne_nil_of_mem_partsAfter {target : List Char} (cs : List Char) (skip : Nat)
    (h : .reference target ∈ partsAfter skip cs) : target ≠ [] := by
  induction cs generalizing skip with
  | nil =>
    cases skip <;> cases h
  | cons c rest ih =>
    cases skip with
    | succ skip => exact ih skip h
    | zero =>
      rw [partsAfter] at h
      split at h
      · next other hother =>
        rcases List.mem_cons.mp h with hsame | h
        · obtain rfl := Part.reference.inj hsame
          obtain ⟨_, hrefers⟩ := referenceAt?_eq_some_iff.mp hother
          exact hrefers.1.1
        · exact ih _ h
      · rcases List.mem_cons.mp h with hsame | h
        · cases hsame
        · exact ih 0 h

end Directive

namespace Expander

variable {x : Expander} {page : String} {names : List String}

/-- A segment of a page that is expanded without a fault is expanded without a fault itself, and
what it is expanded to is a part of the page. -/
theorem exists_of_mem_segments {notes : Footnotes} {ss : List Segment}
    (h : (x.segments page names notes ss).draft.fault = none) {s : Segment} (hs : s ∈ ss) :
    ∃ before, (x.segment page names before s).draft.fault = none ∧
      (x.segment page names before s).draft.pieces ⊆
        (x.segments page names notes ss).draft.pieces := by
  induction ss generalizing notes with
  | nil => cases hs
  | cons first rest ih =>
    cases rest with
    | nil =>
      obtain rfl := List.mem_singleton.mp hs
      exact ⟨notes, h, List.Subset.refl _⟩
    | cons t rest =>
      rw [draft_segments_cons] at h ⊢
      obtain ⟨hfirst, hothers⟩ := fault_seq_eq_none.mp h
      obtain ⟨hfeed, hrest⟩ := fault_seq_eq_none.mp hothers
      rw [pieces_seq hfirst, pieces_seq hfeed]
      rcases List.mem_cons.mp hs with rfl | hs
      · exact ⟨notes, hfirst, List.subset_append_left ..⟩
      · obtain ⟨before, hbefore, hpieces⟩ := ih hrest hs
        refine ⟨before, hbefore, List.Subset.trans hpieces ?_⟩
        exact List.Subset.trans (List.subset_append_right ..) (List.subset_append_right ..)

/-- A line that is expanded without a fault links every reference to where it leads. -/
theorem link_mem_line {ps : List Part} (h : (x.line page names ps).fault = none)
    {target : List Char} (htarget : .reference target ∈ ps) :
    ∃ id, x.targetId page names (String.ofList target) = .ok id ∧
      .link (.label id) ∈ (x.line page names ps).pieces := by
  induction ps with
  | nil => cases htarget
  | cons part rest ih =>
    cases part with
    | char c =>
      have hrest : .reference target ∈ rest := (List.mem_cons.mp htarget).resolve_left nofun
      rw [line] at h ⊢
      obtain ⟨hchar, hline⟩ := fault_seq_eq_none.mp h
      obtain ⟨id, hid, hlink⟩ := ih hline hrest
      rw [pieces_seq hchar]
      exact ⟨id, hid, List.mem_append_right _ hlink⟩
    | reference other =>
      rw [line] at h ⊢
      obtain ⟨hreference, hline⟩ := fault_seq_eq_none.mp h
      rw [pieces_seq hreference]
      rcases List.mem_cons.mp htarget with hsame | hrest
      · obtain rfl := Part.reference.inj hsame
        obtain ⟨id, hid, -⟩ := text_reference hreference
        refine ⟨id, hid, List.mem_append_left _ ?_⟩
        change _ ∈ (ofExcept (x.targetId page names _) _).pieces
        rw [hid]
        exact List.mem_cons_self
      · obtain ⟨id, hid, hlink⟩ := ih hline hrest
        exact ⟨id, hid, List.mem_append_right _ hlink⟩

/-- Documentation that is written defines the label of its binding. -/
theorem mem_anchors_binding {r : Renderer} {c : Context} {b : Binding}
    (h : (r.binding c b).fault = none) :
    r.labels.id (if b.page = "" then c.page else b.page) b.name ∈ (r.binding c b).anchors := by
  rw [Renderer.binding, bindingAround] at h ⊢
  obtain ⟨hcode, h⟩ := fault_seq_eq_none.mp h
  obtain ⟨hspace, h⟩ := fault_seq_eq_none.mp h
  obtain ⟨hanchor, -⟩ := fault_seq_eq_none.mp h
  rw [anchors_seq hcode, anchors_seq hspace, anchors_seq hanchor]
  refine List.mem_append_right _ (List.mem_append_right _ (List.mem_append_left _ ?_))
  exact List.mem_cons_self

/-- Whether a page writes the documentation of a binding: a line outside of examples asks for it,
and the binding is known. -/
def Writes (x : Expander) (ls : List String) (name : String) : Prop :=
  .docs name ∈ Segment.ofLines ls ∧ (x.lookup.find? name).isSome

instance (x : Expander) (ls : List String) (name : String) : Decidable (x.Writes ls name) :=
  inferInstanceAs (Decidable (_ ∧ _))

/-- A line that asks for the documentation of a known binding defines its label. -/
theorem mem_anchors_segment {notes : Footnotes} {name : String}
    (hfound : (x.lookup.find? name).isSome)
    (h : (x.segment page names notes (.docs name)).draft.fault = none) :
    x.renderer.labels.id page name ∈ (x.segment page names notes (.docs name)).draft.anchors := by
  obtain ⟨found, hfound⟩ := Option.isSome_iff_exists.mp hfound
  simp only [segment, hfound] at h ⊢
  obtain ⟨hsearch, hbinding⟩ := fault_seq_eq_none.mp h
  have hmem := mem_anchors_binding hbinding
  have hpage : (if page = "" then page else page) = page := ite_self page
  simp only [Context.atPage, hpage] at hmem
  rw [anchors_seq hsearch]
  exact List.mem_append_right _ hmem

/-- In strict mode, every reference of a page that is expanded is a link, and the link leads to a
label that the index holds for the page or to a label of documentation in the expansion. There is
one exception: where the name that the target has in the first line asking for its documentation is
one whose documentation the page does not write, as this line stands in an example or the binding is
unknown, the link leads to the label that this documentation would have. -/
theorem reference_leads_unless_unwritten (x : Expander) (page text : String)
    (hstrict : x.renderer.labels.strict = true)
    (h : (x.expand page text).draft.fault = none) {target : String}
    (htarget : target ∈ references (lines text)) :
    ∃ id, x.targetId page ((lines text).filterMap documented?) target = .ok id ∧
      .link (.label id) ∈ (x.expand page text).draft.pieces ∧
      (id.page = Path.normal x.renderer.labels.base page ∧ x.renderer.labels.Holds id ∨
        id ∈ (x.expand page text).draft.anchors ∨
        ∃ name, localBinding? target ((lines text).filterMap documented?) = some name ∧
          id = x.renderer.labels.id page name ∧ ¬x.Writes (lines text) name) := by
  obtain ⟨hsegments, hend⟩ := fault_seq_eq_none.mp h
  have hpieces : (x.segments page ((lines text).filterMap documented?) []
      (Segment.ofLines (lines text))).draft.pieces ⊆ (x.expand page text).draft.pieces := by
    change _ ⊆ (_ >> _ : Draft).pieces
    rw [pieces_seq hsegments]
    exact List.subset_append_left ..
  generalize (lines text).filterMap documented? = names at hsegments hpieces ⊢
  obtain ⟨s, hs, htarget⟩ := List.mem_flatMap.mp htarget
  obtain ⟨notes, hsegment, hsub⟩ := exists_of_mem_segments hsegments hs
  cases s with
  | plain line =>
    obtain ⟨part, hpart, hpart'⟩ := List.mem_filterMap.mp htarget
    cases part with
    | char c => cases hpart'
    | reference target =>
      obtain rfl := Option.some.inj hpart'
      obtain ⟨id, hid, hlink⟩ := link_mem_line hsegment hpart
      refine ⟨id, hid, hpieces (hsub hlink), ?_⟩
      rw [targetId] at hid
      split at hid
      · next name hname =>
        obtain rfl := Except.ok.inj hid
        by_cases hwrites : x.Writes (lines text) name
        · obtain ⟨hdocs, hfound⟩ := hwrites
          obtain ⟨notes, hdocumented, hsub⟩ := exists_of_mem_segments hsegments hdocs
          obtain ⟨piece, hpiece, hanchor⟩ :=
            List.mem_filterMap.mp (mem_anchors_segment hfound hdocumented)
          exact .inr (.inl (List.mem_filterMap.mpr ⟨piece, hpieces (hsub hpiece), hanchor⟩))
        · exact .inr (.inr ⟨name, hname, rfl, hwrites⟩)
      · have hne : String.ofList target ≠ "" := by
          intro hempty
          refine ne_nil_of_mem_partsAfter _ _ hpart ?_
          simpa using congrArg String.toList hempty
        exact .inl (Labels.holds_of_resolve hstrict hne hid)
  | _ => cases htarget

/-- An expander whose labels are strict and know the heading of one page. -/
def strictExpander : Expander where
  renderer :=
    { labels := Labels.ofPages "" true
        [⟨"api.typ", some (.document [.heading 1 [.text "Use"] none]), "", 1⟩]
      lexers := fun _ => none, assets := none }
  lookup := smallExpander.lookup
  evaluator := smallExpander.evaluator
  language := "python"

/-- References to documentation and to a heading, both in another case; a comment is no
reference. -/
def referringText : String :=
  "See @typst-ref(F) and @typst-ref(USE).\n// @typst-docs f\n// @typst-ref(gone)\n"

theorem reference_leads_unless_unwritten_referringText :
    strictExpander.renderer.labels.strict = true ∧
      (strictExpander.expand "./api.typ" referringText).draft.fault = none ∧
      references (lines referringText) = ["F", "USE"] ∧
      ∃ id, .link (.label id) ∈ (strictExpander.expand "./api.typ" referringText).draft.pieces ∧
        (id.page = "api.typ" ∧ strictExpander.renderer.labels.Holds id ∨
          id ∈ (strictExpander.expand "./api.typ" referringText).draft.anchors) := by
  have hok : (strictExpander.expand "./api.typ" referringText).draft.fault = none := by
    decide +kernel
  have htargets : references (lines referringText) = ["F", "USE"] := by decide +kernel
  have hmem : "F" ∈ references (lines referringText) := htargets ▸ List.mem_cons_self
  refine ⟨rfl, hok, htargets, ?_⟩
  obtain ⟨id, -, hlink, hheld | hdefined | ⟨name, hname, -, hunwritten⟩⟩ :=
    reference_leads_unless_unwritten strictExpander "./api.typ" referringText rfl hok hmem
  · exact ⟨id, hlink, .inl hheld⟩
  · exact ⟨id, hlink, .inr hdefined⟩
  · have hfirst : localBinding? "F" ((lines referringText).filterMap documented?) = some "f" := by
      decide +kernel
    obtain rfl := Option.some.inj (hfirst.symm.trans hname)
    exact absurd (by decide +kernel) hunwritten

/-- References to an unknown binding and to one that only an example mentions. -/
def strayText : String :=
  "// @typst-docs gone\n// @typst-example\n// @typst-docs f\n// @typst-example-end\n" ++
    "See @typst-ref(gone) and @typst-ref(f).\n"

/-- Both references are made into links in strict mode, to labels that neither the index nor the
expansion has. -/
theorem reference_leads_nowhere :
    strictExpander.renderer.labels.strict = true ∧
      (strictExpander.expand "api.typ" strayText).draft.fault = none ∧
      ∀ target ∈ ["gone", "f"], target ∈ references (lines strayText) ∧
        ∃ id, .link (.label id) ∈ (strictExpander.expand "api.typ" strayText).draft.pieces ∧
          id = ⟨"api.typ", target⟩ ∧ ¬strictExpander.renderer.labels.Holds id ∧
          id ∉ (strictExpander.expand "api.typ" strayText).draft.anchors := by
  have hindex : strictExpander.renderer.labels.index = [("api.typ#use", "Use")] := by
    decide +kernel
  have hholds (target : String) (hne : target ≠ "Use") :
      ¬strictExpander.renderer.labels.Holds ⟨"api.typ", target⟩ := by
    rintro ⟨fragment, hheld⟩
    rw [hindex, Table.get?] at hheld
    split at hheld
    · exact hne (Option.some.inj hheld).symm
    · cases hheld
  obtain ⟨hok, hlinked⟩ : (strictExpander.expand "api.typ" strayText).draft.fault = none ∧
      ∀ target ∈ ["gone", "f"], target ∈ references (lines strayText) ∧
        .link (.label ⟨"api.typ", target⟩) ∈
          (strictExpander.expand "api.typ" strayText).draft.pieces ∧
        ⟨"api.typ", target⟩ ∉ (strictExpander.expand "api.typ" strayText).draft.anchors ∧
        target ≠ "Use" := by
    decide +kernel
  refine ⟨rfl, hok, ?_⟩
  intro target htarget
  obtain ⟨hreference, hlink, hundefined, hne⟩ := hlinked target htarget
  exact ⟨hreference, _, hlink, rfl, hholds target hne, hundefined⟩

end Expander

end Folio
