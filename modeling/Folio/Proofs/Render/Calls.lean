import Folio.Proofs.Render.Links

/-!
# The links of a heading

In a heading the links of the text are not followed, but other nodes write links all the same: a
link to a page of the book, an entry of an index or of a table of contents, and a documentation body
with a source. In a phrase of its own a heading has only the first of them; the others may stand in
footnotes. The links that come out are those of these nodes, in order.
-/

namespace Folio

open Draft

/-- Where a piece leads, if it is a link. -/
def Piece.call? : Piece → Option Target
  | link target => some target
  | _ => none

/-- Where the links of a draft lead, in order. -/
def Draft.calls (d : Draft) : List Target := d.pieces.filterMap Piece.call?

/-- Where the link of a node leads, if it is written as one whatever stands around it. -/
def Labels.call? (labels : Labels) : Node → Option Target
  | .pageLink page fragment _ => (labels.resolve page fragment).toOption.map .label
  | .indexEntry _ page label | .contentsEntry page label _ _ => some (.label (labels.id page label))
  | .body _ (some url) => some (.address url)
  | _ => none

namespace Node

section Callers

variable (notes : Footnotes) (inner : List Node → List Node)

mutual

/-- The nodes that are written as links, also in a heading, where a node is written, given those of
the text of a footnote. -/
def callers : Node → List Node
  | .pageLink page fragment cs => .pageLink page fragment cs :: callersAll cs
  | .list _ items => callersItems items
  | .document cs | .heading _ cs _ | .paragraph cs | .listItem cs | .quote cs | .admonition _ _ cs
  | .table _ cs | .tableRow cs | .tableCell cs | .strong cs | .emph cs | .link _ cs
  | .image _ cs _ => callersAll cs
  | .binding _ _ bodies _ => callersBodies bodies
  | .index entries => entries
  | .contents entries minLevel => callersEntries minLevel entries
  | .footnoteMark id => ((notes.get? id).map fun cs => inner (footnoteText cs)).getD []
  | _ => []

/-- The nodes that are written as links where nodes are written one after the other. -/
def callersAll : List Node → List Node
  | [] => []
  | node :: rest => callers node ++ callersAll rest

/-- The nodes that are written as links where the items of a list are written. -/
def callersItems : List Node → List Node
  | [] => []
  | item :: rest => callersContents item ++ callersItems rest

/-- The nodes that are written as links where documentation bodies are written. -/
def callersBodies : List Node → List Node
  | [] => []
  | .body tree source :: rest =>
    callersContents tree ++ ((if source.getD "" = "" then [] else [.body tree source]) ++
      callersBodies rest)
  | _ :: _ => []

/-- The nodes that are written as links where the contents of a node are written. -/
def callersContents : Node → List Node
  | .document cs | .heading _ cs _ | .paragraph cs | .listItem cs | .quote cs
  | .admonition _ _ cs | .tableCell cs | .footnote _ cs | .contentsEntry _ _ _ cs | .strong cs
  | .emph cs | .link _ cs | .pageLink _ _ cs | .image _ cs _ => callersAll cs
  | _ => []

/-- The nodes that are written as links where a table of contents is written from the smallest level
on. -/
def callersEntries (minLevel : Int) : List Node → List Node
  | [] => []
  | .contentsEntry page label level cs :: rest =>
    if (level - minLevel + 1).toNat = 0 then callersEntries minLevel rest
    else .contentsEntry page label level cs :: (callersAll cs ++ callersEntries minLevel rest)
  | _ :: rest => callersEntries minLevel rest

end

end Callers

/-- The nodes that are written as links, with footnotes nested at most so many times. -/
def callersUpTo (notes : Footnotes) : Nat → List Node → List Node
  | 0, _ => []
  | depth + 1, ns => callersAll notes (callersUpTo notes depth) ns

end Node

namespace Draft

/-- The links of a draft are those of certain nodes in order. Some at the end are missing if the
draft ends with a fault. -/
structure Calls (labels : Labels) (ns : List Node) (d : Draft) : Prop where
  begins : d.calls.map some <+: ns.map labels.call?
  complete : d.fault = none → d.calls.map some = ns.map labels.call?

/-- The calls of drafts in sequence are those of the one and the other. -/
theorem calls_seq {a : Draft} (h : a.fault = none) (b : Draft) :
    (a >> b).calls = a.calls ++ b.calls := by
  rw [calls, pieces_seq h, List.filterMap_append]
  rfl

namespace Calls

variable {labels : Labels} {ns ms : List Node} {a b d : Draft}

theorem plain (h : d.calls = [] := by rfl) : Calls labels [] d := by
  have hcalls : d.calls.map some = [].map labels.call? := by rw [h]; rfl
  exact ⟨hcalls ▸ List.prefix_rfl, fun _ => hcalls⟩

/-- Any links may be missing where nothing is written. -/
theorem stop (f : Fault) : Calls labels ns (stop f) := ⟨List.nil_prefix, nofun⟩

/-- A node that is written as a link. -/
theorem link {n : Node} {target : Target} (h : labels.call? n = some target) :
    Calls labels [n] (ofPiece (.link target)) := by
  have hcalls : (ofPiece (.link target)).calls.map some = [n].map labels.call? := by
    rw [List.map_singleton, h]
    rfl
  exact ⟨hcalls ▸ List.prefix_rfl, fun _ => hcalls⟩

/-- Drafts in sequence call what either part calls. -/
theorem both (ha : Calls labels ns a) (hb : Calls labels ms b) :
    Calls labels (ns ++ ms) (a >> b) := by
  cases hfault : a.fault with
  | none =>
    have hcalls : (a >> b).calls.map some = ns.map labels.call? ++ b.calls.map some := by
      rw [calls_seq hfault, List.map_append, ha.complete hfault]
    refine ⟨?_, fun hnone => ?_⟩
    · rw [hcalls, List.map_append, List.prefix_append_right_inj]
      exact hb.begins
    · rw [hcalls, List.map_append, hb.complete (fault_seq_eq_none.mp hnone).2]
  | some f =>
    rw [seq_of_fault hfault]
    refine ⟨?_, fun hnone => ?_⟩
    · rw [List.map_append]
      exact ha.begins.trans (List.prefix_append _ _)
    · rw [hfault] at hnone
      cases hnone

/-- The link of a node, if it does not depend on what stands around it. -/
theorem destination {n : Node} {page : String} {next : Target → Draft} (hn : n.isLink = false)
    (hnext : ∀ target, Calls labels ns (next target)) :
    Calls labels (n :: ns) (ofExcept (n.destination labels page) fun target =>
      ofPiece (.link target) >> next target) := by
  cases htarget : n.destination labels page with
  | error f => exact .stop f
  | ok target =>
    have hcall : labels.call? n = some target := by
      cases n with
      | link => cases hn
      | pageLink page fragment cs =>
        rw [Node.destination] at htarget
        rw [Labels.call?]
        cases hid : labels.resolve page fragment <;> simp_all [Except.map, Except.toOption]
      | indexEntry | contentsEntry => exact congrArg some (Except.ok.inj htarget)
      | body tree url =>
        cases url with
        | none => cases htarget
        | some url => exact congrArg some (Except.ok.inj htarget)
      | _ => cases htarget
    exact (link hcall).both (hnext target)

/-- Links may be missing at the end of a draft with a fault. -/
theorem cut (ha : Calls labels [] a) (hfault : a.fault ≠ none) : Calls labels ns a where
  begins := (List.prefix_nil.mp ha.begins) ▸ List.nil_prefix
  complete := fun hnone => absurd hnone hfault

/-- There is no link in what stands in front. -/
theorem behind (hb : Calls labels ns b) (a : Draft) (ha : a.calls = [] := by rfl) :
    Calls labels ns (a >> b) := (plain ha).both hb

/-- There is no link in what follows. -/
theorem before (ha : Calls labels ns a) (b : Draft) (hb : b.calls = [] := by rfl) :
    Calls labels ns (a >> b) := by
  simpa only [List.append_nil] using ha.both (plain hb)

end Calls

/-- Looking at an image is no link. -/
theorem calls_imageCheck (r : Renderer) (page destination : String) (isLocal : Bool) :
    (imageCheck r page destination isLocal).calls = [] := by
  rw [calls, pieces_imageCheck]
  rfl

end Draft

open Node Text

section Callers

variable (notes : Footnotes) (inner : List Node → List Node)

/-- The nodes that are written as links where a passage is written. -/
def Passage.callers : Passage → List Node
  | node _ n => n.callers notes inner
  | all _ ns | top _ ns | parts _ _ _ ns => callersAll notes inner ns
  | items _ _ _ ns => callersItems notes inner ns
  | item _ _ n | contentsOf _ n => n.callersContents notes inner
  | bodies _ ns => callersBodies notes inner ns
  | index _ ns => ns
  | contents _ minLevel _ ns => callersEntries notes inner minLevel ns

/-- The nodes that are written as links where a step is taken. -/
def Step.callers : Step → List Node
  | refer _ n => [n]
  | link _ n t => n :: t.callers notes inner
  | mark _ id => ((notes.get? id).map fun cs => inner (footnoteText cs)).getD []
  | passage t => t.callers notes inner
  | _ => []

/-- The callers in the contents of a node are those in what it holds. -/
theorem Node.callersContents_eq (n : Node) :
    n.callersContents notes inner = match n.contents? with
      | some cs => callersAll notes inner cs
      | none => [] := by
  cases n <;> rfl

/-- The callers in a node are those of its steps. -/
theorem Passage.callers_node {c : Context} (h : c.inHeading = true) (n : Node) :
    n.callers notes inner = (n.steps c).flatMap (Step.callers notes inner) := by
  cases n with
  | raw | link =>
    rw [Node.steps]
    split <;> simp_all [Step.callers, Node.callers, Passage.callers]
  | index entries =>
    rw [Node.steps]
    split <;> simp_all [Step.callers, Node.callers, Passage.callers]
  | contents entries minLevel =>
    rw [Node.steps]
    split <;> simp_all [Step.callers, Node.callers, callersEntries, Passage.callers]
  | _ => simp [Node.steps, Step.codeInline, Step.callers, Node.callers, Passage.callers]

/-- The callers of passages and steps are put together as the rules are. -/
theorem Passage.gathers_callers :
    Gathers (callers notes inner) (Step.callers notes inner) where
  handed _ := rfl
  markup _ := rfl
  literal _ := rfl
  stop _ := rfl
  nil t h := by
    cases t with
    | node | item | contentsOf => cases h
    | _ =>
      obtain rfl := h
      rfl
  consAll _ _ _ := rfl
  consTop _ _ _ := rfl
  consItems _ _ _ _ _ := rfl
  ofItem c depth n cs hcs := by
    change n.callersContents notes inner = callersAll notes inner cs
    rw [Node.callersContents_eq, hcs]
  consList _ _ _ _ _ _ := rfl
  consParts _ _ _ _ _ := rfl
  consBodies c tree url rest := by
    cases url with
    | none => rfl
    | some url =>
      change callersBodies notes inner (.body tree (some url) :: rest) = _
      by_cases hurl : url = "" <;> simp [Step.source, Step.callers, callers, callersBodies, hurl]
  ofContents c n cs hcs := by
    change n.callersContents notes inner = callersAll notes inner cs
    rw [Node.callersContents_eq, hcs]
  consIndex _ _ _ _ _ := rfl
  consEntry c minLevel depth page label level cs rest := by
    change callersEntries notes inner minLevel (.contentsEntry page label level cs :: rest) = _
    rw [callersEntries]
    split <;> rfl
  consHeading _ _ _ _ _ _ _ := rfl

/-- In a heading the nodes that are written as links are those of the steps, unless the writing
stops. -/
theorem Passage.callers_eq (t : Passage) (h : t.context.inHeading = true) :
    t.callers notes inner = t.steps.flatMap (Step.callers notes inner) ∨
      t.steps.flatMap (Step.callers notes inner) = [] ∧ ∃ f, .stop f ∈ t.steps := by
  refine (gathers_callers notes inner).eq_or_stops ?_
  rintro c n rfl
  exact callers_node notes inner h n

end Callers

/-- What is called adds up by the rules. -/
theorem Draft.Calls.additive {labels : Labels} : Additive (Calls labels) where
  nil := .plain
  append := .both
  stop := fun hfault ha => ha.cut hfault

section Nodes

variable (r : Renderer) {expand : Context → List Node → Draft} {notes : Footnotes}
  {inner : List Node → List Node}
  (hexpand : ∀ c : Context, c.inHeading = true → c.notes = notes → ∀ cs,
    Calls r.labels (inner cs) (expand c cs))

include hexpand

/-- The links of a step in a heading are those of the nodes in it that are written as links. -/
theorem Step.draft_calls {t : Passage} (h : t.context.inHeading = true)
    (hc : t.context.notes = notes)
    (s : Step) (hs : s.IsOf t) (hpassages : ∀ t' ∈ s.passages,
      Calls r.labels (t'.callers notes inner) (t'.draft r expand)) :
    Calls r.labels (s.callers notes inner) (s.draft r expand) := by
  cases s with
  | markup | prose | literal | stop | anchor => exact .plain
  | title c h =>
    rw [draft]
    split <;> exact .plain
  | code s info =>
    rw [draft, codeBlock]
    split <;> exact .plain
  | image page destination isLocal => exact .plain (calls_imageCheck ..)
  | refer c n =>
    have hn : Calls r.labels [n] (ofExcept (n.destination r.labels c.page) fun target =>
        ofPiece (.link target) >> empty) := .destination hs.2.2 fun _ => .plain
    simp only [seq_empty] at hn
    exact hn
  | link c n text =>
    have htext := hpassages text (List.mem_singleton_self text)
    have hn : n.isLink = false := by
      by_contra hlink
      have hout := hs.2.2.1 ((Bool.not_eq_false _).mp hlink)
      rw [hs.1, h] at hout
      cases hout
    exact .destination hn fun _ => (htext.before _).behind _
  | mark c id =>
    rw [draft, callers, hs.1, hc]
    cases notes.get? id with
    | none => exact .plain
    | some cs => exact ((hexpand t.context.block h hc _).before _).behind _
  | passage t' => exact hpassages t' (List.mem_singleton_self t')

/-- The links of what is written in a heading are those of the nodes that are written as links. -/
theorem Passage.draft_calls (t : Passage) (h : t.context.inHeading = true)
    (hc : t.context.notes = notes) :
    Calls r.labels (t.callers notes inner) (t.draft r expand) := by
  refine collects Calls.additive (callers notes inner) (Step.callers notes inner)
    (fun t => t.context.inHeading = true ∧ t.context.notes = notes)
    (fun t t' h ht' => ?_) (fun t h => Calls.additive.of_steps (t.callers_eq notes inner h.1))
    (fun t h s hs => ?_) t ⟨h, hc⟩
  · have hands := hands_of_mem_within ht'
    exact ⟨hands.context.inHeading h.1, hands.context.notes.trans h.2⟩
  · exact Step.draft_calls r hexpand h.1 h.2 s (isOf_steps t s hs)

end Nodes

/-- Footnotes included, the links of nodes in a heading are those of the nodes that are written as
links. -/
theorem Renderer.draftUpTo_calls (r : Renderer) (depth : Nat) (c : Context)
    (h : c.inHeading = true) (ns : List Node) :
    Calls r.labels (callersUpTo c.notes depth ns) (r.draftUpTo depth c ns) := by
  induction depth generalizing c ns with
  | zero => exact .stop .circularFootnote
  | succ depth ih =>
    exact Passage.draft_calls r (fun c' h' hnotes cs => hnotes ▸ ih c' h' cs) (.all c ns) h rfl

end Folio
