import Folio.Node.Walk

/-!
# Walking through a tree

The walk visits a node and everything below it, before what follows, along the ordinary children
only. What a tree is expected to look like is said of every node that the walk meets.
-/

namespace Folio.Node

mutual

/-- A node and all nodes below it, in the order in which they are met. -/
def walk : Node → List Node
  | document cs => document cs :: walkAll cs
  | heading level cs anchor => heading level cs anchor :: walkAll cs
  | paragraph cs => paragraph cs :: walkAll cs
  | list ordered items => list ordered items :: walkAll items
  | listItem cs => listItem cs :: walkAll cs
  | quote cs => quote cs :: walkAll cs
  | admonition category title cs => admonition category title cs :: walkAll cs
  | table columns rows => table columns rows :: walkAll rows
  | tableRow cells => tableRow cells :: walkAll cells
  | tableCell cs => tableCell cs :: walkAll cs
  | footnote id cs => footnote id cs :: walkAll cs
  | contentsEntry page label level cs => contentsEntry page label level cs :: walkAll cs
  | strong cs => strong cs :: walkAll cs
  | emph cs => emph cs :: walkAll cs
  | link destination cs => link destination cs :: walkAll cs
  | pageLink page fragment cs => pageLink page fragment cs :: walkAll cs
  | image destination cs isLocal => image destination cs isLocal :: walkAll cs
  | node => [node]

/-- All nodes that are met in nodes one after the other. -/
def walkAll : List Node → List Node
  | [] => []
  | node :: rest => node.walk ++ walkAll rest

end

/-- The walk starts with the node and goes on through its children. -/
theorem walk_eq (n : Node) : n.walk = n :: walkAll n.children := by
  cases n <;> simp [walk, children, walkAll]

theorem walkAll_eq_flatMap (ns : List Node) : walkAll ns = ns.flatMap walk := by
  induction ns with
  | nil => rfl
  | cons n rest ih => rw [walkAll, ih, List.flatMap_cons]

/-- What stands directly in a node are its children. -/
theorem children_of_contents? {n : Node} {cs : List Node} (h : n.contents? = some cs) :
    n.children = cs := by
  cases n <;> simp_all [contents?, children]

/-- Whether a node is an item of a list. -/
def isListItem : Node → Bool
  | listItem _ => true
  | _ => false

/-- Whether a list holds nothing but items, and a footnote no heading. -/
def isOrderly : Node → Bool
  | list _ items => items.all isListItem
  | footnote _ cs => (headingsAll cs).isEmpty
  | _ => true

/-- A tree is orderly if every node that the walk meets is. -/
def Orderly (n : Node) : Prop := ∀ m ∈ n.walk, m.isOrderly

instance (n : Node) : Decidable n.Orderly := inferInstanceAs (Decidable (∀ m ∈ n.walk, _))

/-- What is below an orderly node is orderly too. -/
theorem Orderly.below {n m : Node} (h : n.Orderly) (hm : m ∈ n.children) : m.Orderly := by
  intro k hk
  apply h k
  rw [walk_eq, walkAll_eq_flatMap]
  exact List.mem_cons_of_mem _ (List.mem_flatMap_of_mem hm hk)

theorem Orderly.self {n : Node} (h : n.Orderly) : n.isOrderly :=
  h n (by rw [walk_eq]; exact List.mem_cons_self)

end Folio.Node
