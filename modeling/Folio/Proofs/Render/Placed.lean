import Folio.Proofs.Render.Steps

/-!
# Labels that writing a node is sure to define

A heading and a binding define their label where they stand. Three places are no such places: the
text of a footnote, which is written where its marks stand instead, the heading that stands in a
list as an item, of which only the contents are written, and documentation, whose headings have no
labels. Outside these, whatever is written without a fault defines all labels that stand in it, in
order; and in an orderly tree no heading of its outline is among the exceptions.
-/

namespace Folio

open Draft

namespace Labels

variable (labels : Labels) (page : String) (notes : Footnotes)

section Placed

variable (inner : List Node → List LabelId)

mutual

/-- The labels of the headings and bindings that stand in a node of a page where they are sure to
be written, given those that stand in the text of a footnote. -/
def placed : Node → List LabelId
  | .heading level cs anchor =>
    placedAll cs ++ [labels.id page (Heading.label ⟨level, cs, anchor⟩)]
  | .binding name _ _ owner => [labels.id (if owner = "" then page else owner) name]
  | .list _ items => placedItems items
  | .document cs | .paragraph cs | .listItem cs | .quote cs | .admonition _ _ cs | .table _ cs
  | .tableRow cs | .tableCell cs | .contentsEntry _ _ _ cs | .strong cs | .emph cs | .link _ cs
  | .pageLink _ _ cs | .image _ cs _ => placedAll cs
  | .footnoteMark id => ((notes.get? id).map fun cs => inner (footnoteText cs)).getD []
  | _ => []

/-- The placed labels of nodes, one after the other. -/
def placedAll : List Node → List LabelId
  | [] => []
  | node :: rest => placed node ++ placedAll rest

/-- The placed labels of the items of a list, of which only the contents are written. -/
def placedItems : List Node → List LabelId
  | [] => []
  | item :: rest => placedItem item ++ placedItems rest

/-- The placed labels of the contents of an item. -/
def placedItem : Node → List LabelId
  | .document cs | .heading _ cs _ | .paragraph cs | .listItem cs | .quote cs
  | .admonition _ _ cs | .tableCell cs | .footnote _ cs | .contentsEntry _ _ _ cs | .strong cs
  | .emph cs | .link _ cs | .pageLink _ _ cs | .image _ cs _ => placedAll cs
  | _ => []

end

end Placed

/-- The placed labels of nodes with footnotes nested at most so many times. -/
def placedUpTo : Nat → List Node → List LabelId
  | 0, _ => []
  | depth + 1, nodes => labels.placedAll page notes (placedUpTo depth) nodes

/-- The labels of headings on a page. -/
def ofHeadings (hs : List Heading) : List LabelId := hs.map fun h => labels.id page h.label

/-- The labels of headings are those of either part. -/
theorem ofHeadings_append (hs gs : List Heading) :
    labels.ofHeadings page (hs ++ gs) = labels.ofHeadings page hs ++ labels.ofHeadings page gs :=
  List.map_append

variable (inner : List Node → List LabelId)

mutual

/-- In an orderly tree no heading of the outline stands where it may be left out. -/
theorem headings_sublist_placed : (n : Node) → n.Orderly →
    (labels.ofHeadings page n.headings).Sublist (labels.placed page notes inner n)
  | .heading level cs anchor, _ => by
    rw [Node.headings, placed]
    exact List.sublist_append_right ..
  | .list ordered items, h => by
    rw [Node.headings, placed]
    exact headingsItems_sublist items (fun m hm => h.below hm) h.self
  | .footnote id cs, h => by
    have hnone : Node.headingsAll cs = [] := List.isEmpty_iff.mp h.self
    rw [Node.headings, hnone]
    exact List.nil_sublist _
  | .document cs, h | .paragraph cs, h | .listItem cs, h | .quote cs, h | .admonition _ _ cs, h
  | .table _ cs, h | .tableRow cs, h | .tableCell cs, h | .contentsEntry _ _ _ cs, h
  | .strong cs, h | .emph cs, h | .link _ cs, h | .pageLink _ _ cs, h | .image _ cs _, h => by
    rw [Node.headings, placed]
    exact headingsAll_sublist cs fun m hm => h.below hm
  | .codeBlock .., _ | .displayMath _, _ | .rule, _ | .raw .., _ | .binding .., _ | .body .., _
  | .index _, _ | .indexEntry .., _ | .contents .., _ | .text _, _ | .code _, _ | .math _, _
  | .lineBreak, _ | .softBreak, _ | .footnoteMark _, _ => List.nil_sublist _

/-- In orderly nodes no heading of the outlines stands where it may be left out. -/
theorem headingsAll_sublist : (ns : List Node) → (∀ n ∈ ns, n.Orderly) →
    (labels.ofHeadings page (Node.headingsAll ns)).Sublist (labels.placedAll page notes inner ns)
  | [], _ => List.nil_sublist _
  | n :: rest, h => by
    rw [Node.headingsAll, placedAll, ofHeadings_append]
    exact (headings_sublist_placed n (h n List.mem_cons_self)).append
      (headingsAll_sublist rest fun m hm => h m (List.mem_cons_of_mem _ hm))

/-- In orderly items no heading of the outlines stands where it may be left out. -/
theorem headingsItems_sublist : (items : List Node) → (∀ n ∈ items, n.Orderly) →
    items.all Node.isListItem →
    (labels.ofHeadings page (Node.headingsAll items)).Sublist
      (labels.placedItems page notes inner items)
  | [], _, _ => List.nil_sublist _
  | .listItem cs :: rest, h, hitems => by
    rw [Node.headingsAll, placedItems, ofHeadings_append, Node.headings, placedItem]
    have hitem := h (.listItem cs) List.mem_cons_self
    exact (headingsAll_sublist cs fun m hm => hitem.below hm).append
      (headingsItems_sublist rest (fun m hm => h m (List.mem_cons_of_mem _ hm))
        (by simpa [Node.isListItem] using hitems))

end

end Labels

namespace Draft

/-- A draft without a fault defines certain labels in order, perhaps among others. -/
def Shows (ids : List LabelId) (d : Draft) : Prop := d.fault = none → ids.Sublist d.anchors

namespace Shows

variable {ids later : List LabelId} {a b : Draft}

/-- Any draft shows no label at least. -/
theorem nil (d : Draft) : Shows [] d := fun _ => List.nil_sublist _

/-- A draft that ends with a fault defines any labels. -/
theorem stop (f : Fault) : Shows ids (stop f) := nofun

/-- A label that is written is shown. -/
theorem anchor (id : LabelId) : Shows [id] (ofPiece (.anchor id)) := fun _ => List.Sublist.refl _

/-- Drafts in sequence show the labels of the first and then those of the second. -/
theorem both (ha : Shows ids a) (hb : Shows later b) : Shows (ids ++ later) (a >> b) := by
  intro h
  obtain ⟨hfa, hfb⟩ := fault_seq_eq_none.mp h
  rw [anchors_seq hfa]
  exact (ha hfa).append (hb hfb)

/-- What the first of two drafts shows is shown. -/
theorem first (ha : Shows ids a) : Shows ids (a >> b) := by
  simpa only [List.append_nil] using ha.both (nil b)

/-- What the second of two drafts shows is shown. -/
theorem second (hb : Shows ids b) : Shows ids (a >> b) := (nil a).both hb

/-- Labels that any result shows are shown, or writing stops in front of them. -/
theorem ofExcept {α : Type} {e : Except Fault α} {next : α → Draft}
    (h : ∀ x, Shows ids (next x)) : Shows ids (ofExcept e next) := by
  cases e with
  | ok x => exact h x
  | error f => exact stop f

/-- What shows labels shows some of them. -/
theorem mono {some : List LabelId} (h : Shows ids a) (hids : some.Sublist ids) : Shows some a :=
  fun hok => hids.trans (h hok)

/-- What is shown adds up by the rules. -/
theorem additive : Additive Shows where
  nil := nil _
  append := both
  stop := fun hfault _ hok => absurd hok hfault

end Shows

end Draft

section Placed

variable (labels : Labels) (page : String) (notes : Footnotes) (inner : List Node → List LabelId)

/-- The labels that stand where they are sure to be written in a passage outside documentation. -/
def Passage.placed : Passage → List LabelId
  | node c n => if c.inDocs then [] else labels.placed page notes inner n
  | all c ns | top c ns | parts c _ _ ns =>
    if c.inDocs then [] else labels.placedAll page notes inner ns
  | items c _ _ ns => if c.inDocs then [] else labels.placedItems page notes inner ns
  | item c _ n => if c.inDocs then [] else labels.placedItem page notes inner n
  | _ => []

/-- The labels that a step outside documentation is sure to define. -/
def Step.placed : Step → List LabelId
  | title c h => if c.inDocs then [] else [labels.id page h.label]
  | anchor page name => [labels.id page name]
  | mark c id =>
    if c.inDocs then [] else ((notes.get? id).map fun cs => inner (footnoteText cs)).getD []
  | link _ _ t | passage t => t.placed labels page notes inner
  | _ => []

/-- An item places the labels of its contents. -/
theorem Labels.placedItem_eq (n : Node) :
    labels.placedItem page notes inner n = match n.contents? with
      | some cs => labels.placedAll page notes inner cs
      | none => [] := by
  cases n <;> rfl

variable {page}

/-- The steps of a node place what the node places, or one of them stops. -/
theorem Passage.placed_node_sublist {c : Context} (hdocs : c.inDocs = false) (hpage : c.page = page)
    (n : Node) :
    (labels.placed page notes inner n).Sublist
      ((n.steps c).flatMap (Step.placed labels page notes inner)) ∨ ∃ f, .stop f ∈ n.steps c := by
  cases n with
  | raw | link | index | contents =>
    rw [Node.steps]
    split <;> simp [Step.placed, Labels.placed, Passage.placed, hdocs]
  | _ =>
    simp [Node.steps, Step.codeInline, Step.placed, Labels.placed, Passage.placed, hdocs, hpage,
      Context.block]

/-- The steps outside documentation are sure to define what stands where it is, unless they stop. -/
theorem Passage.placed_sublist (t : Passage) (hpage : t.context.page = page) :
    (t.placed labels page notes inner).Sublist
      (t.steps.flatMap (Step.placed labels page notes inner)) ∨ ∃ f, .stop f ∈ t.steps := by
  cases hdocs : t.context.inDocs with
  | true =>
    have hnone : t.placed labels page notes inner = [] := by
      cases t <;> first | rfl | exact if_pos hdocs
    exact .inl (hnone ▸ List.nil_sublist _)
  | false =>
    cases t with
    | node c n =>
      have hout : c.inDocs = false := hdocs
      rw [placed, hout]
      exact placed_node_sublist labels notes inner hdocs hpage n
    | all c ns => cases ns <;> simp_all [steps, Step.placed, placed, Labels.placedAll, context]
    | top c ns =>
      cases ns with
      | nil => simp [steps, placed, Labels.placedAll]
      | cons n rest =>
        rw [steps]
        split <;> simp_all [Step.placed, placed, Labels.placedAll, context]
    | items c depth ordered ns =>
      cases ns <;> simp_all [steps, Step.placed, placed, Labels.placedItems, context]
    | item c depth n =>
      rw [placed, Labels.placedItem_eq, steps]
      cases n.contents? with
      | none => simp [Step.placed]
      | some cs => cases cs <;> simp_all [Step.placed, placed, context, Context.block]
    | parts c depth further ns =>
      cases ns with
      | nil => simp [steps, placed, Labels.placedAll]
      | cons n rest =>
        cases n with
        | list ordered items =>
          simp_all [steps, Step.placed, placed, Labels.placedAll, Labels.placed, context]
        | _ => cases further <;> simp_all [steps, Step.placed, placed, Labels.placedAll, context]
    | bodies | contentsOf | index | contents => exact .inl (List.nil_sublist _)

end Placed

/-- Surroundings outside documentation, on a page with certain footnotes. -/
structure Context.Outside (c : Context) (page : String) (notes : Footnotes) : Prop where
  inDocs : c.inDocs = false
  page : c.page = page
  notes : c.notes = notes

section Nodes

open Draft

variable {page : String} {notes : Footnotes} (r : Renderer) {expand : Context → List Node → Draft}
  {inner : List Node → List LabelId}
  (hinner : ∀ c, Context.Outside c page notes → ∀ cs, Draft.Shows (inner cs) (expand c cs))

include hinner

/-- Outside documentation a step defines the labels placed in it. -/
theorem Step.draft_shows {t : Passage} (hpage : t.context.page = page)
    (hnotes : t.context.notes = notes)
    (s : Step) (hs : s.IsOf t) (hpassages : ∀ t' ∈ s.passages,
      Shows (t'.placed r.labels page notes inner) (t'.draft r expand)) :
    Shows (s.placed r.labels page notes inner) (s.draft r expand) := by
  cases s with
  | title c h =>
    rw [draft, placed, hs.1, hpage]
    split
    · exact Shows.nil _
    · exact (Shows.anchor _).first.second
  | anchor on name => exact Shows.anchor _
  | link c n text =>
    exact Shows.ofExcept fun _ =>
      (hpassages text (List.mem_singleton_self text)).first.second.second
  | mark c id =>
    rw [draft, placed, hs.1, hnotes]
    split
    · exact Shows.nil _
    · next hdocs =>
      cases notes.get? id with
      | none => exact Shows.nil _
      | some cs =>
        exact (hinner t.context.block ⟨Bool.eq_false_iff.mpr hdocs, hpage, hnotes⟩
          (footnoteText cs)).first.second
  | passage t' => exact hpassages t' (List.mem_singleton_self t')
  | _ => exact Shows.nil _

/-- Whatever is written outside documentation defines the labels placed in it. -/
theorem Passage.draft_shows (t : Passage) (hpage : t.context.page = page)
    (hnotes : t.context.notes = notes) :
    Shows (t.placed r.labels page notes inner) (t.draft r expand) := by
  refine collects Shows.additive (placed r.labels page notes inner)
    (Step.placed r.labels page notes inner)
    (fun t => t.context.page = page ∧ t.context.notes = notes)
    (fun t t' h ht' => ?_) (fun t h hsteps => ?_) (fun t h s hs => ?_) t ⟨hpage, hnotes⟩
  · have hands := hands_of_mem_within ht'
    exact ⟨hands.context.page.trans h.1, hands.context.notes.trans h.2⟩
  · rcases t.placed_sublist r.labels notes inner h.1 with hsub | ⟨f, hf⟩
    · exact hsteps.mono hsub
    · exact fun hok => absurd hok (fault_ofSteps_ne_none hf)
  · exact Step.draft_shows r hinner h.1 h.2 s (isOf_steps t s hs)

omit hinner

/-- Outside documentation nodes define the labels placed in them, with those of the footnotes. -/
theorem Renderer.draftUpTo_shows (depth : Nat) (c : Context) (hc : c.Outside page notes)
    (nodes : List Node) :
    Shows (r.labels.placedUpTo page notes depth nodes) (r.draftUpTo depth c nodes) := by
  induction depth generalizing c nodes with
  | zero => exact Shows.stop _
  | succ depth ih =>
    have hall := Passage.draft_shows r ih (.all c nodes) hc.page hc.notes
    rwa [Passage.placed, hc.inDocs] at hall

end Nodes

end Folio
