import Folio.Proofs.Render.Steps

/-!
# Labels that a node links to

A link is written for a link of the text, whose label is resolved, and for an entry of an index or
of a table of contents, whose label is taken as it stands. Whatever holds of the labels that
resolving gives and of the labels of all entries therefore holds of every label linked to, however
often a footnote is written.
-/

namespace Folio

open Draft

namespace Labels

variable (labels : Labels)

/-- The label of an entry of an index or a table of contents. -/
def entry? : Node → Option LabelId
  | .indexEntry _ page label | .contentsEntry page label _ _ => some (labels.id page label)
  | _ => none

/-- The labels of the entries in a node, wherever they stand. -/
def listed (n : Node) : List LabelId := n.parts.filterMap labels.entry?

/-- The labels of the entries in nodes, wherever they stand. -/
def listedAll (ns : List Node) : List LabelId := (Node.partsAll ns).filterMap labels.entry?

/-- The text of a footnote lists no entries but those in the footnote. -/
theorem listedAll_footnoteText_subset (cs : List Node) :
    labels.listedAll (footnoteText cs) ⊆ labels.listedAll cs :=
  List.filterMap_subset _ (Node.partsAll_footnoteText_subset cs)

variable {labels}

/-- An entry among nodes leads to a listed label. -/
theorem mem_listedAll {n : Node} {ns : List Node} {id : LabelId} (hn : n ∈ ns)
    (hid : labels.entry? n = some id) : id ∈ labels.listedAll ns :=
  List.mem_filterMap.mpr ⟨n, Node.mem_partsAll.mpr ⟨n, hn, n.self_mem_parts⟩, hid⟩

end Labels

namespace Draft

/-- Every label that a draft links to is what resolving gives, or one of certain labels. -/
def Leads (labels : Labels) (ids : List LabelId) (d : Draft) : Prop :=
  ∀ id ∈ d.targets, (∃ page fragment, labels.resolve page fragment = .ok id) ∨ id ∈ ids

namespace Leads

variable {labels : Labels} {ids : List LabelId} {a b : Draft}

/-- A draft without links leads nowhere. -/
theorem plain (h : a.targets = []) : Leads labels ids a := by
  intro id hid
  rw [h] at hid
  exact absurd hid List.not_mem_nil

/-- Links in sequence lead where the links of either part lead. -/
theorem both (ha : Leads labels ids a) (hb : Leads labels ids b) : Leads labels ids (a >> b) := by
  intro id hid
  exact (mem_targets_seq hid).elim (ha id) (hb id)

/-- Nothing is linked to by what stands in front. -/
theorem behind (hb : Leads labels ids b) (a : Draft) (ha : a.targets = [] := by rfl) :
    Leads labels ids (a >> b) := (plain ha).both hb

/-- Nothing is linked to by what follows. -/
theorem before (ha : Leads labels ids a) (b : Draft) (hb : b.targets = [] := by rfl) :
    Leads labels ids (a >> b) := ha.both (plain hb)

/-- Only a result that is there is written. -/
theorem ofExcept {α : Type} {e : Except Fault α} {next : α → Draft}
    (h : ∀ x, e = .ok x → Leads labels ids (next x)) :
    Leads labels ids (ofExcept e next) := by
  cases e with
  | ok x => exact h x rfl
  | error f => exact plain rfl

/-- A link of an entry leads to a label that is listed. -/
theorem listed {id : LabelId} (h : id ∈ ids) : Leads labels ids (ofPiece (.link (.label id))) := by
  intro other hother
  rw [List.mem_singleton.mp hother]
  exact .inr h

/-- A link of the text leads to what it resolves to. -/
theorem resolved {page fragment : String} {id : LabelId}
    (h : labels.resolve page fragment = .ok id) :
    Leads labels ids (ofPiece (.link (.label id))) := by
  intro other hother
  rw [List.mem_singleton.mp hother]
  exact .inl ⟨page, fragment, h⟩

/-- A link of the text leads to an address or to what resolving gives. -/
theorem linkTarget {page destination : String} {target : Target}
    (h : linkTarget labels page destination = .ok target) :
    Leads labels ids (ofPiece (.link target)) := by
  have hmap {e : Except Fault LabelId} (h : e.map Target.label = .ok target) :
      ∃ id, e = .ok id ∧ target = .label id := by
    cases e with
    | error f => cases h
    | ok id => exact ⟨id, rfl, (Except.ok.inj h).symm⟩
  simp only [Folio.linkTarget] at h
  split at h
  · cases h
    exact plain rfl
  · split at h
    · obtain ⟨id, hid, rfl⟩ := hmap h
      exact resolved hid
    · split at h
      · obtain ⟨id, hid, rfl⟩ := hmap h
        exact resolved hid
      · cases h
        exact plain rfl

/-- The link of a node leads to an address, to what resolving gives or to an entry. -/
theorem destination {n : Node} {page : String} {target : Target}
    (hentry : ∀ id, labels.entry? n = some id → id ∈ ids)
    (h : n.destination labels page = .ok target) :
    Leads labels ids (ofPiece (.link target)) := by
  cases n with
  | link destination cs => exact linkTarget h
  | pageLink page fragment cs =>
    rw [Node.destination] at h
    cases hid : labels.resolve page fragment with
    | ok id =>
      rw [hid] at h
      cases h
      exact resolved hid
    | error f =>
      rw [hid] at h
      cases h
  | indexEntry | contentsEntry =>
    cases h
    exact listed (hentry _ rfl)
  | body tree url =>
    cases url with
    | none => cases h
    | some url =>
      cases h
      exact plain rfl
  | _ => cases h

end Leads

theorem closed_leads {labels : Labels} {ids : List LabelId} : Closed (Leads labels ids) where
  empty := .plain rfl
  seq := .both

/-- Looking at an image writes nothing. -/
theorem pieces_imageCheck (r : Renderer) (page destination : String) (isLocal : Bool) :
    (imageCheck r page destination isLocal).pieces = [] := by
  simp only [imageCheck]
  split
  · rfl
  · split
    · rfl
    · split
      · rfl
      · next folder _ =>
        cases folder.hasFile (imagePath page destination isLocal) with
        | error f => rfl
        | ok found => cases found <;> rfl

/-- Looking at an image is no link. -/
theorem targets_imageCheck (r : Renderer) (page destination : String) (isLocal : Bool) :
    (imageCheck r page destination isLocal).targets = [] := by
  rw [targets, pieces_imageCheck]
  rfl

end Draft

section Nodes

variable (r : Renderer) {expand : Context → List Node → Draft} {notes : Footnotes}
  {ids : List LabelId}
  (hnotes : ∀ id cs, notes.get? id = some cs → r.labels.listedAll cs ⊆ ids)
  (hexpand : ∀ c : Context, c.notes = notes → ∀ cs, r.labels.listedAll cs ⊆ ids →
    Leads r.labels ids (expand c cs))

include hnotes hexpand

/-- A step links to labels that resolving gives and to the labels of entries only. -/
theorem Step.draft_leads {t : Passage} (hc : t.context.notes = notes)
    (ht : r.labels.listedAll t.nodes ⊆ ids) (s : Step) (hs : s.IsOf t)
    (hpassages : ∀ t' ∈ s.passages, Leads r.labels ids (t'.draft r expand)) :
    Leads r.labels ids (s.draft r expand) := by
  cases s with
  | markup | prose | literal | stop | anchor => exact .plain rfl
  | title c h =>
    rw [draft]
    split <;> exact .plain rfl
  | code s info =>
    rw [draft, codeBlock]
    split <;> exact .plain rfl
  | image page destination isLocal => exact .plain (targets_imageCheck ..)
  | refer c n =>
    exact .ofExcept fun target htarget =>
      .destination (fun id hid => ht (Labels.mem_listedAll hs.2.1 hid)) htarget
  | link c n text =>
    have htext := hpassages text (List.mem_singleton_self text)
    exact .ofExcept fun target htarget =>
      (Leads.destination (fun id hid => ht (Labels.mem_listedAll hs.2.1 hid)) htarget).both
        ((htext.before _).behind _)
  | mark c id =>
    rw [draft, hs.1, hc]
    cases hnote : notes.get? id with
    | none => exact .plain rfl
    | some cs =>
      have hcs := List.Subset.trans (r.labels.listedAll_footnoteText_subset cs) (hnotes id cs hnote)
      exact ((hexpand t.context.block hc _ hcs).before _).behind _
  | passage t' => exact hpassages t' (List.mem_singleton_self t')

/-- Whatever is written links to labels that resolving gives and to the labels of entries only. -/
theorem Passage.draft_leads (t : Passage) (hc : t.context.notes = notes)
    (ht : r.labels.listedAll t.nodes ⊆ ids) : Leads r.labels ids (t.draft r expand) := by
  refine keeps closed_leads (fun t => t.context.notes = notes ∧ r.labels.listedAll t.nodes ⊆ ids)
    (fun t t' h ht' => ?_) (fun t h s hs => ?_) t ⟨hc, ht⟩
  · have hands := hands_of_mem_within ht'
    exact ⟨hands.context.notes.trans h.1,
      List.Subset.trans (List.filterMap_subset _ hands.partsAll_subset) h.2⟩
  · exact Step.draft_leads r hnotes hexpand h.1 h.2 s (isOf_steps t s hs)

end Nodes

/-- Nodes link to labels that resolving gives and to the labels of entries only, at any depth of
footnotes. -/
theorem Renderer.draftUpTo_leads (r : Renderer) {notes : Footnotes} {ids : List LabelId}
    (hnotes : ∀ id cs, notes.get? id = some cs → r.labels.listedAll cs ⊆ ids) (depth : Nat)
    (c : Context) (hc : c.notes = notes) (nodes : List Node) (h : r.labels.listedAll nodes ⊆ ids) :
    Leads r.labels ids (r.draftUpTo depth c nodes) := by
  induction depth generalizing c nodes with
  | zero => exact .plain rfl
  | succ depth ih => exact Passage.draft_leads r hnotes ih (.all c nodes) hc h

end Folio
