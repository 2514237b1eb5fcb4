import Folio.Markdown.Convert
import Folio.Proofs.Markdown.Anchors
import Folio.Proofs.Node.Notes

/-!
# What the conversion of a page keeps

Marks of footnotes, footnotes, and the places of documentation and listings come from elements of
the syntax tree, and the conversion keeps all of them in their order, however deep they stand. An
element that is not converted, such as the title of an admonition, leaves no trace.
-/

namespace Folio

/-- Whether a target of raw markup is that of a place for documentation or for a listing. -/
def isPlaceTarget (target : String) : Bool :=
  target = docsFence || target = contentsFence || target = indexFence

/-- What a node in a tree stands for, apart from its text. -/
inductive Trace
  /-- The mark of a footnote. -/
  | mark (name : String)
  /-- A footnote. -/
  | note (name : String)
  /-- The place of documentation or of a listing. -/
  | place (target text : String)
  /-- Documentation or a listing, or a part of it. -/
  | generated
deriving DecidableEq

namespace Node

/-- The trace of a node, if it leaves one. -/
def trace? : Node → Option Trace
  | footnoteMark id => some (.mark id)
  | footnote id _ => some (.note id)
  | raw target content => if isPlaceTarget target then some (.place target content) else none
  | node => if node.isGenerated then some .generated else none

/-- The traces that all parts of nodes leave. -/
def traces (ns : List Node) : List Trace := (partsAll ns).filterMap trace?

/-- The traces of nodes are those of either part. -/
theorem traces_append (ns ms : List Node) : traces (ns ++ ms) = traces ns ++ traces ms := by
  rw [traces, partsAll_append, List.filterMap_append]
  rfl

/-- The traces of a node are its own one and those of what stands in it. -/
theorem traces_singleton (n : Node) : traces [n] = n.trace?.toList ++ traces n.inside :=
  filterMap_partsAll_singleton trace? n

/-- The traces of nodes start with those of the first one and what stands in it. -/
theorem traces_cons (n : Node) (rest : List Node) :
    traces (n :: rest) = n.trace?.toList ++ traces n.inside ++ traces rest := by
  rw [← traces_singleton, ← traces_append, List.singleton_append]

/-- A node without a trace of its own has those of what stands in it. -/
theorem traces_around {n : Node} {cs : List Node} (hn : n.trace? = none) (hinside : n.inside = cs) :
    traces [n] = traces cs := by
  rw [traces_singleton, hn, hinside]
  rfl

end Node

namespace Markdown

open Node

/-- What an element of a syntax tree says that leaves a trace. -/
inductive Mention
  /-- The mark of a footnote. -/
  | mark (a : Attributes)
  /-- A footnote. -/
  | note (a : Attributes)
  /-- A fence, which may be a place for documentation or for a listing. -/
  | fence (a : Attributes)

/-- The trace that an element leaves, if it does. -/
def Mention.trace? : Mention → Option Trace
  | mark a => some (.mark a.footnoteName)
  | note a => some (.note a.footnoteName)
  | fence a => (fenceNode a).trace?

mutual

/-- What is said in an inline element, in order. -/
def inlineMentions : Element → List Mention
  | .mk kind a cs =>
    match kind with
    | .footnoteMark => [.mark a]
    | .text | .softBreak | .hardBreak | .codeSpan | .math | .footnoteAnchor | .htmlInline => []
    | _ => inlineMentionsAll cs

/-- What is said in inline elements, one after the other. -/
def inlineMentionsAll : List Element → List Mention
  | [] => []
  | e :: rest => inlineMentions e ++ inlineMentionsAll rest

end

/-- What is said in the cells of a table. -/
def tableMentions (sections : List Element) : List Mention :=
  (sections.flatMap Element.children).flatMap fun row =>
    row.children.flatMap fun cell => inlineMentionsAll cell.children

mutual

/-- What is said in a block, in order. -/
def mentions : Element → List Mention
  | .mk kind a cs =>
    match kind with
    | .heading | .paragraph => inlineMentionsAll cs
    | .bulletList | .orderedList => itemMentions cs
    | .quote | .admonition => mentionsAll cs
    | .fence => [.fence a]
    | .table => tableMentions cs
    | .footnoteBlock => noteMentions cs
    | _ => []

/-- What is said in blocks, one after the other. -/
def mentionsAll : List Element → List Mention
  | [] => []
  | e :: rest => mentions e ++ mentionsAll rest

/-- What is said in the items of a list. -/
def itemMentions : List Element → List Mention
  | [] => []
  | .mk _ _ cs :: rest => mentionsAll cs ++ itemMentions rest

/-- What is said by footnotes. -/
def noteMentions : List Element → List Mention
  | [] => []
  | .mk _ a cs :: rest => .note a :: mentionsAll cs ++ noteMentions rest

end

/-! ### Inline elements -/

/-- A link leaves the traces of its text. -/
theorem traces_linkNode (page href : String) (cs : List Node) :
    traces [linkNode page href cs] = traces cs := by
  rw [linkNode]
  split
  · exact traces_around rfl rfl
  · dsimp only
    split
    · exact traces_around rfl rfl
    · split <;> exact traces_around rfl rfl

mutual

/-- An inline element leaves the traces of what is said in it. -/
theorem traces_inlineNodes (page : String) : (e : Element) →
    traces (inlineNodes page e) = (inlineMentions e).filterMap Mention.trace?
  | .mk kind a cs => by
    have hcs := traces_inlineAll page cs
    rw [inlineNodes.eq_def, inlineMentions.eq_def]
    cases kind with
    | text | softBreak | hardBreak | codeSpan | math | footnoteMark => rfl
    | strong | emph | image => exact (traces_around rfl rfl).trans hcs
    | link => exact (traces_linkNode page _ _).trans hcs
    | footnoteAnchor | htmlInline => rfl
    | _ => exact hcs

/-- Inline elements leave the traces of what they mention. -/
theorem traces_inlineAll (page : String) : (es : List Element) →
    traces (inlineAll page es) = (inlineMentionsAll es).filterMap Mention.trace?
  | [] => rfl
  | e :: rest => by
    rw [inlineAll, inlineMentionsAll, traces_append, List.filterMap_append,
      traces_inlineNodes page e, traces_inlineAll page rest]

end

/-! ### Blocks -/

/-- Whenever the conversion succeeds, its nodes leave the traces of what is said. -/
def Conversion.Leaves (c : Conversion (List Node)) (ms : List Mention) : Prop :=
  ∀ used nodes used', c used = .ok (nodes, used') → traces nodes = ms.filterMap Mention.trace?

namespace Conversion.Leaves

variable {c d : Conversion (List Node)} {ms ks : List Mention}

/-- Nodes that are there at once leave their traces. -/
theorem done {nodes : List Node} (h : traces nodes = ms.filterMap Mention.trace?) :
    Leaves (done nodes) ms := by
  rintro used _ _ ⟨⟩
  exact h

/-- Conversions in sequence leave the traces of both. -/
theorem append (hc : c.Leaves ms) (hd : d.Leaves ks) :
    Leaves (c.andThen fun nodes => d.map (nodes ++ ·)) (ms ++ ks) := by
  intro used _ used' h
  obtain ⟨nodes, mid, hnodes, h⟩ := andThen_eq_ok.mp h
  obtain ⟨others, hothers, rfl⟩ := map_eq_ok.mp h
  rw [traces_append, List.filterMap_append, hc used nodes mid hnodes, hd mid others used' hothers]

/-- A node around others, without a trace of its own. -/
theorem around {f : List Node → Node} (hc : c.Leaves ms) (hf : ∀ ns, (f ns).trace? = none)
    (hinside : ∀ ns, (f ns).inside = ns) : Leaves (c.map fun nodes => [f nodes]) ms := by
  intro used _ used' h
  obtain ⟨nodes, hnodes, rfl⟩ := map_eq_ok.mp h
  rw [traces_around (hf nodes) (hinside nodes), hc used nodes used' hnodes]

/-- A node around some nodes, with a trace of its own, in front of others. -/
theorem cons {f : List Node → Node} (own : List Mention) (hc : c.Leaves ms) (hd : d.Leaves ks)
    (hf : ∀ ns, (f ns).trace?.toList = own.filterMap Mention.trace?)
    (hinside : ∀ ns, (f ns).inside = ns) :
    Leaves (c.andThen fun nodes => d.map (f nodes :: ·)) (own ++ ms ++ ks) := by
  intro used _ used' h
  obtain ⟨nodes, mid, hnodes, h⟩ := andThen_eq_ok.mp h
  obtain ⟨others, hothers, rfl⟩ := map_eq_ok.mp h
  rw [traces_cons, hf, hinside, List.filterMap_append, List.filterMap_append,
    hc used nodes mid hnodes, hd mid others used' hothers]

end Conversion.Leaves

open Conversion

/-- A heading leaves the traces of its text. -/
theorem leaves_headingNode (page tag : String) (cs : List Element) :
    Leaves (headingNode page tag cs) (inlineMentionsAll cs) := by
  intro used nodes used' h
  rw [headingNode] at h
  split at h
  · cases h
    exact (traces_around rfl rfl).trans (traces_inlineAll page cs)
  · cases h

/-- If each node leaves the traces of what is said, so do all of them. -/
theorem traces_map {α : Type} {f : α → Node} {said : α → List Mention} {l : List α}
    (h : ∀ a, traces [f a] = (said a).filterMap Mention.trace?) :
    traces (l.map f) = (l.flatMap said).filterMap Mention.trace? := by
  induction l with
  | nil => rfl
  | cons a rest ih =>
    rw [List.map_cons, ← List.singleton_append, traces_append, h, ih, List.flatMap_cons,
      List.filterMap_append]

/-- A table leaves the traces of its cells. -/
theorem traces_tableNode (page : String) (sections : List Element) :
    traces [tableNode page sections] = (tableMentions sections).filterMap Mention.trace? := by
  have hcell (cell : Element) : traces [.tableCell (inlineAll page cell.children)] =
      (inlineMentionsAll cell.children).filterMap Mention.trace? :=
    (traces_around rfl rfl).trans (traces_inlineAll page cell.children)
  have hrow (row : Element) : traces [.tableRow (row.children.map fun cell =>
        .tableCell (inlineAll page cell.children))] =
      (row.children.flatMap fun cell => inlineMentionsAll cell.children).filterMap
        Mention.trace? :=
    (traces_around rfl rfl).trans (traces_map hcell)
  exact (traces_around rfl rfl).trans (traces_map hrow)

/-- Nothing stands in a fence. -/
theorem inside_fenceNode (a : Attributes) : (fenceNode a).inside = [] := by
  simp only [fenceNode]
  split
  · rfl
  · split <;> rfl
  · rfl

mutual

/-- A block leaves the traces of what is said in it. -/
theorem leaves_blockNodes (page : String) : (e : Element) →
    Leaves (blockNodes page e) (mentions e)
  | .mk kind a cs => by
    have hblocks := leaves_blockAll page cs
    have hitems := leaves_itemNodes page cs
    rw [blockNodes.eq_def, mentions.eq_def]
    cases kind with
    | heading => exact leaves_headingNode page a.tag cs
    | paragraph => exact .done ((traces_around rfl rfl).trans (traces_inlineAll page cs))
    | bulletList | orderedList => exact hitems.around (fun _ => rfl) fun _ => rfl
    | quote | admonition => exact hblocks.around (fun _ => rfl) fun _ => rfl
    | fence =>
      refine .done ?_
      rw [traces_singleton, inside_fenceNode, List.filterMap_cons, Mention.trace?]
      cases (fenceNode a).trace? <;> rfl
    | table => exact .done (traces_tableNode page cs)
    | footnoteBlock => exact leaves_footnoteNodes page cs
    | codeBlock | mathBlock | rule | htmlBlock => exact .done rfl
    | _ => exact .done rfl

/-- Blocks leave the traces of what they mention. -/
theorem leaves_blockAll (page : String) : (es : List Element) →
    Leaves (blockAll page es) (mentionsAll es)
  | [] => .done rfl
  | e :: rest => (leaves_blockNodes page e).append (leaves_blockAll page rest)

/-- Items leave the traces of what they mention. -/
theorem leaves_itemNodes (page : String) : (es : List Element) →
    Leaves (itemNodes page es) (itemMentions es)
  | [] => .done rfl
  | .mk _ _ cs :: rest =>
    .cons [] (leaves_blockAll page cs) (leaves_itemNodes page rest) (fun _ => rfl) fun _ => rfl

/-- Footnotes leave the traces of what they mention. -/
theorem leaves_footnoteNodes (page : String) : (es : List Element) →
    Leaves (footnoteNodes page es) (noteMentions es)
  | [] => .done rfl
  | .mk _ a cs :: rest =>
    .cons [.note a] (leaves_blockAll page cs) (leaves_footnoteNodes page rest) (fun _ => rfl)
      fun _ => rfl

end

/-- The tree of a page leaves the traces of what is said in its syntax tree. -/
theorem traces_documentTree {page : String} {elements : List Element} {nodes : List Node}
    (h : documentTree page elements = .ok nodes) :
    traces nodes = (mentionsAll elements).filterMap Mention.trace? := by
  obtain ⟨used, hblocks⟩ := blockAll_of_documentTree h
  exact leaves_blockAll page elements [] nodes used hblocks

end Markdown

end Folio
