import Folio.Proofs.Node.Tidy
import Mathlib.Data.List.Basic

/-!
# All parts of a tree

Besides the children that the walk goes through, a binding holds documentation bodies and a listing
holds entries. The parts of a node are all nodes in it, these included.
-/

namespace Folio.Node

/-- What stands directly in a node, of whatever kind. -/
def inside : Node → List Node
  | binding _ _ bodies _ => bodies
  | body tree _ => [tree]
  | index entries => entries
  | contents entries _ => entries
  | n => n.children

mutual

/-- A node and everything in it, in order. -/
def parts : Node → List Node
  | document cs => document cs :: partsAll cs
  | heading level cs anchor => heading level cs anchor :: partsAll cs
  | paragraph cs => paragraph cs :: partsAll cs
  | list ordered items => list ordered items :: partsAll items
  | listItem cs => listItem cs :: partsAll cs
  | quote cs => quote cs :: partsAll cs
  | admonition category title cs => admonition category title cs :: partsAll cs
  | table columns rows => table columns rows :: partsAll rows
  | tableRow cells => tableRow cells :: partsAll cells
  | tableCell cs => tableCell cs :: partsAll cs
  | footnote id cs => footnote id cs :: partsAll cs
  | binding name category bodies page => binding name category bodies page :: partsAll bodies
  | body tree source => body tree source :: parts tree
  | index entries => index entries :: partsAll entries
  | contents entries minLevel => contents entries minLevel :: partsAll entries
  | contentsEntry page label level cs => contentsEntry page label level cs :: partsAll cs
  | strong cs => strong cs :: partsAll cs
  | emph cs => emph cs :: partsAll cs
  | link destination cs => link destination cs :: partsAll cs
  | pageLink page fragment cs => pageLink page fragment cs :: partsAll cs
  | image destination cs isLocal => image destination cs isLocal :: partsAll cs
  | node => [node]

/-- All nodes and everything in them, in order. -/
def partsAll : List Node → List Node
  | [] => []
  | node :: rest => node.parts ++ partsAll rest

end

/-- The parts of a node are the node and the parts of what stands in it. -/
theorem parts_eq (n : Node) : n.parts = n :: partsAll n.inside := by
  cases n <;> simp [parts, inside, children, partsAll]

/-- The parts of nodes are those of each of them, in order. -/
theorem partsAll_eq_flatMap (ns : List Node) : partsAll ns = ns.flatMap parts := by
  induction ns with
  | nil => rfl
  | cons n rest ih => rw [partsAll, ih, List.flatMap_cons]

theorem partsAll_append (ns ms : List Node) : partsAll (ns ++ ms) = partsAll ns ++ partsAll ms := by
  simp only [partsAll_eq_flatMap, List.flatMap_append]

/-- What is read off a single node is what is read off the node and off what stands in it. -/
theorem filterMap_partsAll_singleton {α : Type} (f : Node → Option α) (n : Node) :
    (partsAll [n]).filterMap f = (f n).toList ++ (partsAll n.inside).filterMap f := by
  rw [partsAll, partsAll, List.append_nil, parts_eq, List.filterMap_cons]
  cases f n <;> rfl

/-- A part of nodes is a part of one of them. -/
theorem mem_partsAll {m : Node} {ns : List Node} : m ∈ partsAll ns ↔ ∃ n ∈ ns, m ∈ n.parts := by
  rw [partsAll_eq_flatMap, List.mem_flatMap]

theorem self_mem_parts (n : Node) : n ∈ n.parts := by
  rw [parts_eq]
  exact List.mem_cons_self

mutual

/-- What is in a part of a node is in the node. -/
theorem parts_subset_of_mem {m : Node} : (n : Node) → m ∈ n.parts → m.parts ⊆ n.parts
  | .document cs, h | .heading _ cs _, h | .paragraph cs, h | .list _ cs, h | .listItem cs, h
  | .quote cs, h | .admonition _ _ cs, h | .table _ cs, h | .tableRow cs, h | .tableCell cs, h
  | .footnote _ cs, h | .binding _ _ cs _, h | .index cs, h | .contents cs _, h
  | .contentsEntry _ _ _ cs, h | .strong cs, h | .emph cs, h | .link _ cs, h
  | .pageLink _ _ cs, h | .image _ cs _, h => by
    rw [parts] at h ⊢
    rcases List.mem_cons.mp h with rfl | h
    · rw [parts]
      exact List.Subset.refl _
    · exact List.Subset.trans (parts_subset_of_mem_partsAll cs h) (List.subset_cons_self ..)
  | .body tree source, h => by
    rw [parts] at h ⊢
    rcases List.mem_cons.mp h with rfl | h
    · rw [parts]
      exact List.Subset.refl _
    · exact List.Subset.trans (parts_subset_of_mem tree h) (List.subset_cons_self ..)
  | .codeBlock .., h | .displayMath _, h | .rule, h | .raw .., h | .indexEntry .., h | .text _, h
  | .code _, h | .math _, h | .lineBreak, h | .softBreak, h | .footnoteMark _, h => by
    obtain rfl := List.mem_singleton.mp h
    exact List.Subset.refl _

/-- Parts of parts are parts. -/
theorem parts_subset_of_mem_partsAll {m : Node} : (ns : List Node) → m ∈ partsAll ns →
    m.parts ⊆ partsAll ns
  | [], h => absurd h List.not_mem_nil
  | n :: rest, h => by
    rw [partsAll] at h ⊢
    rcases List.mem_append.mp h with h | h
    · exact List.Subset.trans (parts_subset_of_mem n h) (List.subset_append_left ..)
    · exact List.Subset.trans (parts_subset_of_mem_partsAll rest h) (List.subset_append_right ..)

end

mutual

/-- Nothing stands in an inline node but what the walk meets, if that is inline too. -/
theorem parts_eq_walk : (n : Node) → (∀ m ∈ n.walk, m.isInline) → n.parts = n.walk
  | .strong cs, h | .emph cs, h | .link _ cs, h | .pageLink _ _ cs, h | .image _ cs _, h => by
    rw [parts, walk, partsAll_eq_walkAll cs (List.forall_mem_cons.mp h).2]
  | .text _, _ | .code _, _ | .math _, _ | .lineBreak, _ | .softBreak, _ | .footnoteMark _, _ => rfl
  | .document _, h | .heading .., h | .paragraph _, h | .list .., h | .listItem _, h | .quote _, h
  | .admonition .., h | .codeBlock .., h | .displayMath _, h | .table .., h | .tableRow _, h
  | .tableCell _, h | .rule, h | .raw .., h | .footnote .., h | .binding .., h | .body .., h
  | .index _, h | .indexEntry .., h | .contents .., h
  | .contentsEntry .., h => nomatch h _ List.mem_cons_self

/-- The parts of a phrase are what the walk meets. -/
theorem partsAll_eq_walkAll : (ns : List Node) → IsPhrase ns → partsAll ns = walkAll ns
  | [], _ => rfl
  | n :: rest, h => by
    obtain ⟨hn, hrest⟩ := List.forall_mem_append.mp h
    rw [partsAll, walkAll, parts_eq_walk n hn, partsAll_eq_walkAll rest hrest]

end

end Folio.Node
