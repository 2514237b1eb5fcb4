import Folio.Node.Basic

/-!
# Documentation of bindings

What is known about a binding: its category and the documentation bodies, each a node of its own. A
binding without bodies counts as unknown.
-/

namespace Folio

/-- The documentation of a binding. -/
structure Documentation where
  category : String
  bodies : List Node

/-- Whoever looks up documentation. -/
abbrev Lookup : Type := String → Option Documentation

/-- The documentation of a binding that has some. -/
def Lookup.find? (lookup : Lookup) (name : String) : Option Documentation :=
  (lookup name).filter fun d => !d.bodies.isEmpty

end Folio
