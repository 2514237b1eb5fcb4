import Folio.Fault
import Folio.Node.Walk

/-!
# Walks with a stack

The nodes that are still to be visited stand on a stack, the next one on top, which is the end of
the list. Every turn takes the node on top off, gathers what it is visited for, and puts what is
visited below it on the stack, the first of it on top. The walk is over when the stack is empty, or
when a node does not tell what is below it.
-/

namespace Folio

/-- What nodes are visited for. -/
structure Visitor (α : Type) where
  /-- What is gathered behind a node, from what is gathered in front of it. -/
  gather : Node → α → α
  /-- What is visited below a node, in order. -/
  below : Node → Except Fault (List Node)

/-- A walk under way. -/
structure Visit (α : Type) where
  stack : List Node
  gathered : α
  fault : Option Fault

namespace Visit

variable {α : Type}

/-- A walk that starts with some nodes, in order. -/
def start (ns : List Node) (gathered : α) : Visit α := ⟨ns.reverse, gathered, none⟩

/-- Whether there is nothing more to do. -/
def isOver (s : Visit α) : Bool := s.stack.isEmpty || s.fault.isSome

end Visit

namespace Visitor

variable {α β : Type}

/-- One turn of a walk. -/
def turn (v : Visitor α) (s : Visit α) : Visit α :=
  match s.fault, s.stack.getLast? with
  | none, some n =>
    let gathered := v.gather n s.gathered
    match v.below n with
    | .ok ns => ⟨s.stack.dropLast ++ ns.reverse, gathered, none⟩
    | .error f => ⟨s.stack.dropLast, gathered, some f⟩
  | _, _ => s

/-- Lists what is taken from nodes; nothing is visited below a node from which something is
taken. -/
def listing (take? : Node → Option β) : Visitor (List β) where
  gather n taken := taken ++ (take? n).toList
  below n := .ok (if (take? n).isSome then [] else n.children)

end Visitor

namespace Node

/-- The heading that a node is. -/
def heading? : Node → Option Heading
  | heading level cs anchor => some { level, children := cs, anchor }
  | _ => none

/-- The documented binding that a node is. -/
def binding? : Node → Option Binding
  | binding name category bodies page => some { name, category, bodies, page }
  | _ => none

/-- The documentation bodies of a node. -/
def bodies : Node → List Node
  | binding _ _ bodies _ => bodies
  | _ => []

/-- The tree of a documentation body. -/
def tree? : Node → Option Node
  | body tree _ => some tree
  | _ => none

/-- The children of a node, and behind them the trees of its documentation bodies. -/
def branches (n : Node) : List Node := n.children ++ n.bodies.filterMap tree?

end Node

/-- Lists headings. -/
def Visitor.headings : Visitor (List Heading) := listing Node.heading?

/-- Lists documented bindings. -/
def Visitor.bindings : Visitor (List Binding) := listing Node.binding?

/-- Puts footnotes into a table, those of documentation bodies included. -/
def Visitor.footnotes : Visitor Footnotes where
  gather
    | .footnote id cs, notes => notes.put id cs
    | _, notes => notes
  below n := if n.bodies.all Node.isBody then .ok n.branches else .error .misplaced

end Folio
