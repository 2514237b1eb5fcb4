import Folio.Render

/-!
# Writing step by step

A session is a book in the making: the surroundings of the next node and all that has been written
so far. Writing only adds to what is there, also when it ends with a fault, and leaves the
surroundings as they are; a fragment is written apart and adds nothing.
-/

namespace Folio

/-- A book in the making. -/
structure Session where
  renderer : Renderer
  context : Context
  written : List Piece
  notices : List Notice := []

namespace Session

/-- Adds a draft to what is written. -/
def add (s : Session) (d : Draft) : Session :=
  { s with written := s.written ++ d.pieces, notices := s.notices ++ d.notices }

/-- The text that is written. -/
def text (s : Session) : String := String.join (s.written.map Piece.written)

/-- The draft of nodes one after the other in the surroundings of a session. -/
def nodes (s : Session) (nodes : List Node) : Draft := s.renderer.nodes s.context nodes

/-- A session in which nothing is written yet. -/
def fresh (r : Renderer) : Session := { renderer := r, context := .atPage "" 1 [], written := [] }

/-- Starts a page: nothing of the page before is left but what is written. The mark of documentation
is not looked at, since whoever sets it also sets it back. -/
def startPage (s : Session) (page : String) (headingDepth : Int) : Session :=
  { s with context := { Context.atPage page headingDepth [] with inDocs := s.context.inDocs } }

/-- Adds the footnotes of a subtree to those of the page. -/
def collectFootnotes (s : Session) (node : Node) : Session :=
  { s with context := { s.context with notes := node.collectFootnotes s.context.notes } }

end Session

/-- Whether there is a rule for every kind of node; the missing ones are named in order. -/
def checkCovered (covered : List String) : Except Fault Unit :=
  match (Node.kinds.filter fun k => !covered.contains k).mergeSort (· ≤ ·) with
  | [] => .ok ()
  | missing => .error (.uncovered missing)

end Folio
