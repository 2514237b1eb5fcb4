import Folio.Proofs.Node.Tidy
import Folio.Proofs.Render.Links
import Folio.Proofs.Render.Placed

/-!
# All labels that a node defines

A heading defines its label where it is written, unless it stands in documentation, and a binding
defines its label wherever it is written. The text of a footnote is written at each of its marks, so
that a footnote may define a label as often as it is referred to, and with its heading a mark comes
back in a table of contents. A draft without a fault defines exactly the labels listed here, in this
order.
-/

namespace Folio

open Draft

/-- The definition of a label in a book. -/
structure Definition where
  id : LabelId
  /-- Whether it is that of a page, or of a heading in the text of a page itself. The other ones are
  those of documentation and of the text of footnotes. -/
  own : Bool
deriving DecidableEq

/-- The definition of a label in documentation or in a footnote. -/
def Definition.further (id : LabelId) : Definition := ⟨id, false⟩

namespace Labels

variable (labels : Labels) (page : String) (notes : Footnotes)

section Defined

variable (inner : Bool → List Node → List Definition)

mutual

/-- The definitions in a node of a page, inside or outside of documentation, given those in the text
of a footnote. -/
def defined (docs : Bool) : Node → List Definition
  | .heading level cs anchor =>
    definedAll docs cs ++
      if docs then [] else [⟨labels.id page (Heading.label ⟨level, cs, anchor⟩), true⟩]
  | .binding name _ bodies owner =>
    .further (labels.id (if owner = "" then page else owner) name) ::
      (definedBodies bodies).map fun d => .further d.id
  | .list _ items => definedItems docs items
  | .document cs | .paragraph cs | .listItem cs | .quote cs | .admonition _ _ cs | .table _ cs
  | .tableRow cs | .tableCell cs | .strong cs | .emph cs | .link _ cs | .pageLink _ _ cs
  | .image _ cs _ => definedAll docs cs
  | .footnoteMark id =>
    ((notes.get? id).map fun cs =>
      (inner docs (footnoteText cs)).map fun d => .further d.id).getD []
  | .contents entries minLevel => definedEntries docs minLevel entries
  | _ => []

/-- The definitions in nodes, one after the other. -/
def definedAll (docs : Bool) : List Node → List Definition
  | [] => []
  | node :: rest => defined docs node ++ definedAll docs rest

/-- The definitions in the items of a list. -/
def definedItems (docs : Bool) : List Node → List Definition
  | [] => []
  | item :: rest => definedContents docs item ++ definedItems docs rest

/-- The definitions in documentation bodies. -/
def definedBodies : List Node → List Definition
  | [] => []
  | .body tree _ :: rest => definedContents true tree ++ definedBodies rest
  | _ :: rest => definedBodies rest

/-- The definitions in the contents of a node. -/
def definedContents (docs : Bool) : Node → List Definition
  | .document cs | .heading _ cs _ | .paragraph cs | .listItem cs | .quote cs
  | .admonition _ _ cs | .tableCell cs | .footnote _ cs | .contentsEntry _ _ _ cs | .strong cs
  | .emph cs | .link _ cs | .pageLink _ _ cs | .image _ cs _ => definedAll docs cs
  | _ => []

/-- The definitions in the entries of a table of contents from the smallest level on. -/
def definedEntries (docs : Bool) (minLevel : Int) : List Node → List Definition
  | [] => []
  | .contentsEntry _ _ level cs :: rest =>
    (if (level - minLevel + 1).toNat = 0 then [] else definedAll docs cs) ++
      definedEntries docs minLevel rest
  | _ :: rest => definedEntries docs minLevel rest

end

end Defined

/-- The definitions in nodes with footnotes nested at most so many times. -/
def definedUpTo : Nat → Bool → List Node → List Definition
  | 0, _, _ => []
  | depth + 1, docs, nodes => labels.definedAll page notes (definedUpTo depth) docs nodes

end Labels

namespace Draft

/-- A draft without a fault defines exactly certain labels, in order. -/
def Sets (ids : List LabelId) (d : Draft) : Prop := d.fault = none → d.anchors = ids

namespace Sets

variable {ids later : List LabelId} {a b : Draft}

/-- A draft without labels sets none. -/
theorem plain (h : a.anchors = []) : Sets [] a := fun _ => h

/-- A draft that ends with a fault defines any labels. -/
theorem stop (f : Fault) : Sets ids (stop f) := nofun

/-- Drafts in sequence set the labels of the first and then those of the second. -/
theorem both (ha : Sets ids a) (hb : Sets later b) : Sets (ids ++ later) (a >> b) := by
  intro h
  obtain ⟨hfa, hfb⟩ := fault_seq_eq_none.mp h
  rw [anchors_seq hfa, ha hfa, hb hfb]

/-- Nothing is defined by what stands in front. -/
theorem behind (hb : Sets ids b) (a : Draft) (ha : a.anchors = [] := by rfl) : Sets ids (a >> b) :=
  (plain ha).both hb

/-- Nothing is defined by what follows. -/
theorem before (ha : Sets ids a) (b : Draft) (hb : b.anchors = [] := by rfl) :
    Sets ids (a >> b) := by
  simpa only [List.append_nil] using ha.both (plain hb)

/-- Labels that any result sets are set, or writing stops in front of them. -/
theorem ofExcept {α : Type} {e : Except Fault α} {next : α → Draft} (h : ∀ x, Sets ids (next x)) :
    Sets ids (ofExcept e next) := by
  cases e with
  | ok x => exact h x
  | error f => exact stop f

/-- What is set adds up by the rules. -/
theorem additive : Additive Sets where
  nil := plain rfl
  append := both
  stop := fun hfault _ hok => absurd hok hfault

end Sets

/-- A draft without a fault defines exactly the labels of certain definitions, in order. -/
def Defines (ds : List Definition) (d : Draft) : Prop := Sets (ds.map Definition.id) d

namespace Defines

variable {ds es : List Definition} {a b : Draft}

theorem plain (h : a.anchors = []) : Defines [] a := Sets.plain h

/-- A draft that ends with a fault defines any labels. -/
theorem stop (f : Fault) : Defines ds (stop f) := Sets.stop f

/-- A label that is written is set. -/
theorem anchor (d : Definition) : Defines [d] (ofPiece (.anchor d.id)) := fun _ => rfl

/-- Drafts in sequence define what the first and then what the second defines. -/
theorem both (ha : Defines ds a) (hb : Defines es b) : Defines (ds ++ es) (a >> b) := by
  rw [Defines, List.map_append]
  exact Sets.both ha hb

/-- Nothing is defined by what stands in front. -/
theorem behind (hb : Defines ds b) (a : Draft) (ha : a.anchors = [] := by rfl) :
    Defines ds (a >> b) := Sets.behind hb a ha

/-- Nothing is defined by what follows. -/
theorem before (ha : Defines ds a) (b : Draft) (hb : b.anchors = [] := by rfl) :
    Defines ds (a >> b) := Sets.before ha b hb

end Defines

/-- Looking at an image sets no label. -/
theorem anchors_imageCheck (r : Renderer) (page destination : String) (isLocal : Bool) :
    (imageCheck r page destination isLocal).anchors = [] := by
  rw [anchors, pieces_imageCheck]
  rfl

end Draft

/-! ### Passages -/

section Definitions

variable (labels : Labels) (page : String) (notes : Footnotes)
  (inner : Bool → List Node → List Definition)

/-- The definitions in a passage. -/
def Passage.definitions : Passage → List Definition
  | node c n => labels.defined page notes inner c.inDocs n
  | all c ns | top c ns | parts c _ _ ns => labels.definedAll page notes inner c.inDocs ns
  | items c _ _ ns => labels.definedItems page notes inner c.inDocs ns
  | item c _ n | contentsOf c n => labels.definedContents page notes inner c.inDocs n
  | bodies c ns => ns.flatMap fun n => match n with
    | .body tree _ => labels.definedContents page notes inner c.inDocs tree
    | _ => []
  | index .. => []
  | contents c minLevel _ ns => labels.definedEntries page notes inner c.inDocs minLevel ns

/-- The labels that a step defines. -/
def Step.defined : Step → List LabelId
  | title c h => if c.inDocs then [] else [labels.id c.page h.label]
  | anchor page name => [labels.id page name]
  | mark c id =>
    ((notes.get? id).map fun cs => (inner c.inDocs (footnoteText cs)).map Definition.id).getD []
  | link _ _ t | passage t => (t.definitions labels page notes inner).map Definition.id
  | _ => []

/-- What a node other than a leaf holds defines its labels one after the other. -/
theorem Labels.definedContents_eq (docs : Bool) (n : Node) :
    labels.definedContents page notes inner docs n = match n.contents? with
      | some cs => labels.definedAll page notes inner docs cs
      | none => [] := by
  cases n <;> rfl

/-- Of bodies only those that are such define labels, as documentation does. -/
theorem Labels.definedBodies_eq (ns : List Node) :
    labels.definedBodies page notes inner ns = ns.flatMap fun n => match n with
      | .body tree _ => labels.definedContents page notes inner true tree
      | _ => [] := by
  induction ns with
  | nil => rfl
  | cons n rest ih => cases n <;> simp [definedBodies, ih]

/-- The link to a source sets no label. -/
theorem Step.defined_source (c : Context) (tree : Node) (url : Option String) :
    (source c tree url).flatMap (defined labels page notes inner) = [] := by
  rw [List.flatMap_eq_nil_iff]
  exact all_source (fun _ => rfl) fun _ _ => rfl

variable {page}

/-- What is defined in a node is what its steps define, one after the other. -/
theorem Passage.definitions_node {c : Context} (hpage : c.page = page) (n : Node) :
    (labels.defined page notes inner c.inDocs n).map Definition.id =
      (n.steps c).flatMap (Step.defined labels page notes inner) := by
  cases n with
  | heading =>
    cases hdocs : c.inDocs <;>
      simp [Node.steps, Step.defined, Labels.defined, Passage.definitions, hdocs, hpage]
  | raw | link | index =>
    rw [Node.steps]
    split <;> simp [Step.defined, Labels.defined, Passage.definitions]
  | contents =>
    rw [Node.steps]
    split <;> simp_all [Step.defined, Labels.defined, Labels.definedEntries, Passage.definitions]
  | binding =>
    simp [Node.steps, Step.codeInline, Step.defined, Labels.defined, Labels.definedBodies_eq,
      Passage.definitions, Definition.further, Function.comp_def, hpage]
  | footnoteMark id =>
    cases hnote : Table.get? id notes <;>
    simp [Node.steps, Step.defined, Labels.defined, Definition.further, Function.comp_def, hnote]
  | _ =>
    simp [Node.steps, Step.codeInline, Step.defined, Labels.defined, Passage.definitions,
      Context.block]

/-- The labels of passages and steps are put together as the rules are. -/
theorem Passage.gathers_defined :
    Gathers (fun t => (t.definitions labels page notes inner).map Definition.id)
      (Step.defined labels page notes inner) where
  handed _ := rfl
  markup _ := rfl
  literal _ := rfl
  stop _ := rfl
  nil t h := by
    cases t with
    | node | item | contentsOf => cases h
    | _ =>
      obtain rfl := h
      rfl
  consAll _ _ _ := List.map_append
  consTop _ _ _ := List.map_append
  consItems _ _ _ _ _ := List.map_append
  ofItem c depth n cs hcs := by
    change (labels.definedContents page notes inner c.inDocs n).map _ = _
    rw [Labels.definedContents_eq, hcs]
    rfl
  consList _ _ _ _ _ _ := List.map_append
  consParts _ _ _ _ _ := List.map_append
  consBodies c tree url rest := by
    rw [Step.defined_source]
    exact List.map_append
  ofContents c n cs hcs := by
    change (labels.definedContents page notes inner c.inDocs n).map _ = _
    rw [Labels.definedContents_eq, hcs]
    rfl
  consIndex _ _ _ _ _ := rfl
  consEntry c minLevel depth page' label level cs rest := by
    change (labels.definedEntries page notes inner c.inDocs minLevel
      (.contentsEntry page' label level cs :: rest)).map _ = _
    rw [Labels.definedEntries, List.map_append]
    split <;> rfl
  consHeading _ _ _ _ _ _ _ := rfl

/-- The steps define the labels of the definitions, unless they stop. -/
theorem Passage.definitions_eq (t : Passage) (hpage : t.context.page = page) :
    (t.definitions labels page notes inner).map Definition.id =
        t.steps.flatMap (Step.defined labels page notes inner) ∨
      t.steps.flatMap (Step.defined labels page notes inner) = [] ∧ ∃ f, .stop f ∈ t.steps := by
  refine (gathers_defined labels notes inner).eq_or_stops ?_
  rintro c n rfl
  exact definitions_node labels notes inner hpage n

end Definitions

section Nodes

variable {page : String} {notes : Footnotes} (r : Renderer)
  {expand : Context → List Node → Draft} {inner : Bool → List Node → List Definition}
  (hinner : ∀ c : Context, c.page = page ∧ c.notes = notes → ∀ cs,
    Defines (inner c.inDocs cs) (expand c cs))

include hinner

/-- A step defines its labels. -/
theorem Step.draft_sets {t : Passage} (hc : t.context.page = page ∧ t.context.notes = notes)
    (s : Step) (hs : s.IsOf t) (hpassages : ∀ t' ∈ s.passages,
      Sets ((t'.definitions r.labels page notes inner).map Definition.id) (t'.draft r expand)) :
    Sets (s.defined r.labels page notes inner) (s.draft r expand) := by
  cases s with
  | markup | prose | literal => exact .plain rfl
  | stop f => exact .stop f
  | anchor page name => exact fun _ => rfl
  | title c h =>
    rw [draft, defined]
    split <;> exact fun _ => rfl
  | code s info =>
    rw [draft, codeBlock]
    split <;> exact .plain rfl
  | image page destination isLocal => exact .plain (anchors_imageCheck ..)
  | refer c n => exact .ofExcept fun _ => .plain rfl
  | link c n text =>
    have htext := hpassages text (List.mem_singleton_self text)
    exact .ofExcept fun _ => ((htext.before _).behind _).behind _
  | mark c id =>
    rw [draft, defined, hs.1, hc.2]
    cases notes.get? id with
    | none => exact .plain rfl
    | some cs => exact ((hinner t.context.block hc (footnoteText cs)).before _).behind _
  | passage t' => exact hpassages t' (List.mem_singleton_self t')

/-- Whatever is written defines the labels listed for it. -/
theorem Passage.draft_defines (t : Passage) (hc : t.context.page = page ∧ t.context.notes = notes) :
    Defines (t.definitions r.labels page notes inner) (t.draft r expand) := by
  refine collects Sets.additive
    (fun t => (t.definitions r.labels page notes inner).map Definition.id)
    (Step.defined r.labels page notes inner)
    (fun t => t.context.page = page ∧ t.context.notes = notes)
    (fun t t' h ht' => ?_)
    (fun t h => Sets.additive.of_steps (t.definitions_eq r.labels notes inner h.1))
    (fun t h s hs => ?_) t hc
  · have hands := hands_of_mem_within ht'
    exact ⟨hands.context.page.trans h.1, hands.context.notes.trans h.2⟩
  · exact Step.draft_sets r hinner h s (isOf_steps t s hs)

omit hinner

/-- Nodes define the labels listed for them, with those of the footnotes. -/
theorem Renderer.draftUpTo_defines (depth : Nat) (c : Context)
    (hc : c.page = page ∧ c.notes = notes) (nodes : List Node) :
    Defines (r.labels.definedUpTo page notes depth c.inDocs nodes)
      (r.draftUpTo depth c nodes) := by
  induction depth generalizing c nodes with
  | zero => exact .stop _
  | succ depth ih => exact Passage.draft_defines r ih (.all c nodes) hc

end Nodes

/-! ### The labels of a page itself -/

namespace Labels

/-- The labels of the headings in the text of a page itself, and of pages. -/
def own (ds : List Definition) : List LabelId := (ds.filter Definition.own).map Definition.id

/-- What is defined on the page itself is so in either part. -/
theorem own_append (ds es : List Definition) : own (ds ++ es) = own ds ++ own es := by
  rw [own, List.filter_append, List.map_append]
  rfl

/-- What is defined further inside is not defined on the page itself. -/
theorem own_further (ds : List Definition) : own (ds.map fun d => .further d.id) = [] := by
  rw [own, List.filter_eq_nil_iff.mpr]
  · rfl
  · intro d hd
    obtain ⟨_, _, rfl⟩ := List.mem_map.mp hd
    exact Bool.false_ne_true

variable (labels : Labels) (page : String) (notes : Footnotes)
  (inner : Bool → List Node → List Definition) (docs : Bool)

mutual

/-- A tidy node defines labels of the page itself for headings of its outline only, and for each of
them at most once. -/
theorem own_defined_sublist : (n : Node) → n.Tidy →
    (own (labels.defined page notes inner docs n)).Sublist (labels.ofHeadings page n.headings)
  | .heading level cs anchor, h => by
    have hcs := own_definedAll_sublist cs h.self.tidy
    rw [h.self.headingsAll_eq_nil] at hcs
    rw [defined, own_append, List.sublist_nil.mp hcs, List.nil_append, Node.headings]
    cases docs with
    | false => exact List.Sublist.refl _
    | true => exact List.nil_sublist _
  | .binding name category bodies owner, _ => by
    rw [defined]
    change (own ((labels.definedBodies page notes inner bodies).map _)).Sublist _
    rw [own_further]
    exact List.nil_sublist _
  | .list ordered items, h => by
    rw [defined, Node.headings]
    exact own_definedItems_sublist items fun m hm => h.below hm
  | .contents entries minLevel, h => by
    rw [defined, own_definedEntries minLevel entries h.self]
    exact List.nil_sublist _
  | .footnoteMark id, _ => by
    rw [defined]
    cases notes.get? id with
    | none => exact List.nil_sublist _
    | some cs =>
      change (own ((inner docs (footnoteText cs)).map _)).Sublist _
      rw [own_further]
      exact List.nil_sublist _
  | .document cs, h | .paragraph cs, h | .listItem cs, h | .quote cs, h | .admonition _ _ cs, h
  | .table _ cs, h | .tableRow cs, h | .tableCell cs, h | .strong cs, h | .emph cs, h
  | .link _ cs, h | .pageLink _ _ cs, h | .image _ cs _, h => by
    rw [defined, Node.headings]
    exact own_definedAll_sublist cs fun m hm => h.below hm
  | .footnote .., _ | .contentsEntry .., _ | .codeBlock .., _ | .displayMath _, _ | .rule, _
  | .raw .., _ | .body .., _ | .index _, _ | .indexEntry .., _ | .text _, _ | .code _, _
  | .math _, _ | .lineBreak, _ | .softBreak, _ => List.nil_sublist _

/-- Tidy nodes define labels of the page itself for headings of their outlines only. -/
theorem own_definedAll_sublist : (ns : List Node) → (∀ n ∈ ns, n.Tidy) →
    (own (labels.definedAll page notes inner docs ns)).Sublist
      (labels.ofHeadings page (Node.headingsAll ns))
  | [], _ => List.nil_sublist _
  | n :: rest, h => by
    rw [definedAll, own_append, Node.headingsAll, ofHeadings_append]
    exact (own_defined_sublist n (h n List.mem_cons_self)).append
      (own_definedAll_sublist rest fun m hm => h m (List.mem_cons_of_mem _ hm))

/-- Tidy items define labels of the page itself for headings of their outlines only. -/
theorem own_definedItems_sublist : (items : List Node) → (∀ n ∈ items, n.Tidy) →
    (own (labels.definedItems page notes inner docs items)).Sublist
      (labels.ofHeadings page (Node.headingsAll items))
  | [], _ => List.nil_sublist _
  | item :: rest, h => by
    rw [definedItems, own_append, Node.headingsAll, ofHeadings_append]
    exact (own_definedContents_sublist item (h item List.mem_cons_self)).append
      (own_definedItems_sublist rest fun m hm => h m (List.mem_cons_of_mem _ hm))

/-- The contents of a tidy node define labels of the page itself for headings of its outline only.
-/
theorem own_definedContents_sublist : (n : Node) → n.Tidy →
    (own (labels.definedContents page notes inner docs n)).Sublist
      (labels.ofHeadings page n.headings)
  | .heading level cs anchor, h => by
    have hcs := own_definedAll_sublist cs h.self.tidy
    rw [h.self.headingsAll_eq_nil] at hcs
    rw [definedContents, List.sublist_nil.mp hcs]
    exact List.nil_sublist _
  | .document cs, h | .paragraph cs, h | .listItem cs, h | .quote cs, h | .admonition _ _ cs, h
  | .tableCell cs, h | .footnote _ cs, h | .contentsEntry _ _ _ cs, h | .strong cs, h
  | .emph cs, h | .link _ cs, h | .pageLink _ _ cs, h | .image _ cs _, h => by
    rw [definedContents, Node.headings]
    exact own_definedAll_sublist cs fun m hm => h.below hm
  | .list .., _ | .codeBlock .., _ | .displayMath _, _ | .table .., _ | .tableRow _, _ | .rule, _
  | .raw .., _ | .binding .., _ | .body .., _ | .index _, _ | .indexEntry .., _ | .contents .., _
  | .text _, _ | .code _, _ | .math _, _ | .lineBreak, _ | .softBreak, _ | .footnoteMark _, _ =>
    List.nil_sublist _

/-- A table of contents whose entries are phrases defines no labels of the page itself. -/
theorem own_definedEntries (minLevel : Int) : (ns : List Node) →
    (∀ n ∈ ns, Node.IsPhrase n.children) →
    own (labels.definedEntries page notes inner docs minLevel ns) = []
  | [], _ => rfl
  | n :: rest, h => by
    have hrest := own_definedEntries minLevel rest fun m hm => h m (List.mem_cons_of_mem _ hm)
    cases n with
    | contentsEntry page label level cs =>
      have hphrase : Node.IsPhrase cs := h _ List.mem_cons_self
      have hcs := own_definedAll_sublist cs hphrase.tidy
      rw [hphrase.headingsAll_eq_nil] at hcs
      rw [definedEntries, own_append, hrest, List.append_nil]
      split
      · rfl
      · exact List.sublist_nil.mp hcs
    | _ => exact hrest

end

end Labels

end Folio
