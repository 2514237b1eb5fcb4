import Folio.Node.Basic
import Folio.Slug
import Folio.Table

/-!
# Walks through a document tree

Headings, documented bindings and footnotes in document order, and the plain text of nodes. The
headings and bindings of documentation bodies are not part of a page's outline, but their
footnotes belong to the page.
-/

namespace Folio

/-- A heading met in a tree. -/
structure Heading where
  level : Int
  children : List Node
  anchor : Option String

/-- A documented binding met in a tree. -/
structure Binding where
  name : String
  category : String
  bodies : List Node
  /-- The page it belongs to; empty for the page it stands on. -/
  page : String

/-- Footnotes by their names. -/
abbrev Footnotes : Type := Table String (List Node)

/-- A search for footnotes: what it has found, and whether it has come to its end. -/
structure FootnoteSearch where
  found : Footnotes
  complete : Bool

namespace FootnoteSearch

/-- A search that finds nothing. -/
def nothing : FootnoteSearch := ⟨[], true⟩

/-- A search that stops at once. -/
def stopped : FootnoteSearch := ⟨[], false⟩

/-- One search after the other, unless the first is stopped. -/
def append (a b : FootnoteSearch) : FootnoteSearch :=
  if a.complete then ⟨a.found ++ b.found, b.complete⟩ else a

instance : Append FootnoteSearch := ⟨append⟩

theorem append_eq (a b : FootnoteSearch) :
    a ++ b = if a.complete then ⟨a.found ++ b.found, b.complete⟩ else a := rfl

/-- Two searches come to their end together when both do. -/
theorem complete_append (a b : FootnoteSearch) :
    (a ++ b).complete = (a.complete && b.complete) := by
  rw [append_eq]
  cases h : a.complete <;> simp [h]

end FootnoteSearch

namespace Node

mutual

/-- The literal text of a node. -/
def plainText : Node → String
  | text s => s
  | code s => s
  | math s => s
  | lineBreak | softBreak => " "
  | document cs | heading _ cs _ | paragraph cs | list _ cs | listItem cs | quote cs
  | admonition _ _ cs | table _ cs | tableRow cs | tableCell cs | footnote _ cs
  | contentsEntry _ _ _ cs | strong cs | emph cs | link _ cs | pageLink _ _ cs
  | image _ cs _ => plainTextAll cs
  | _ => ""

/-- The literal text of nodes, one after the other. -/
def plainTextAll : List Node → String
  | [] => ""
  | node :: rest => node.plainText ++ plainTextAll rest

end

mutual

/-- The headings of a subtree in document order; none is looked for below a heading. -/
def headings : Node → List Heading
  | heading level cs anchor => [{ level, children := cs, anchor }]
  | document cs | paragraph cs | list _ cs | listItem cs | quote cs
  | admonition _ _ cs | table _ cs | tableRow cs | tableCell cs | footnote _ cs
  | contentsEntry _ _ _ cs | strong cs | emph cs | link _ cs | pageLink _ _ cs
  | image _ cs _ => headingsAll cs
  | _ => []

/-- The headings of nodes in document order. -/
def headingsAll : List Node → List Heading
  | [] => []
  | node :: rest => node.headings ++ headingsAll rest

end

mutual

/-- The documented bindings of a subtree in document order. -/
def bindings : Node → List Binding
  | binding name category bodies page => [{ name, category, bodies, page }]
  | document cs | heading _ cs _ | paragraph cs | list _ cs | listItem cs | quote cs
  | admonition _ _ cs | table _ cs | tableRow cs | tableCell cs | footnote _ cs
  | contentsEntry _ _ _ cs | strong cs | emph cs | link _ cs | pageLink _ _ cs
  | image _ cs _ => bindingsAll cs
  | _ => []

/-- The documented bindings of nodes in document order. -/
def bindingsAll : List Node → List Binding
  | [] => []
  | node :: rest => node.bindings ++ bindingsAll rest

end

mutual

/-- Searches a subtree for footnotes in document order, those inside other footnotes and in
documentation bodies included. The search stops at a binding that holds something else than
documentation bodies. -/
def searchFootnotes : Node → FootnoteSearch
  | footnote id cs => ⟨[(id, cs)], true⟩ ++ searchFootnotesAll cs
  | binding _ _ bodies _ => if bodies.all isBody then searchBodies bodies else .stopped
  | document cs | heading _ cs _ | paragraph cs | list _ cs | listItem cs | quote cs
  | admonition _ _ cs | table _ cs | tableRow cs | tableCell cs
  | contentsEntry _ _ _ cs | strong cs | emph cs | link _ cs | pageLink _ _ cs
  | image _ cs _ => searchFootnotesAll cs
  | _ => .nothing

/-- Searches nodes for footnotes in document order. -/
def searchFootnotesAll : List Node → FootnoteSearch
  | [] => .nothing
  | node :: rest => node.searchFootnotes ++ searchFootnotesAll rest

/-- Searches documentation bodies for footnotes in order. -/
def searchBodies : List Node → FootnoteSearch
  | [] => .nothing
  | body tree _ :: rest => tree.searchFootnotes ++ searchBodies rest
  | _ :: rest => searchBodies rest

end

/-- The footnotes that are found in a subtree, in document order. -/
def footnotes (node : Node) : Footnotes := node.searchFootnotes.found

/-- Whether every binding that a search for footnotes meets holds documentation bodies only. -/
def isSearchable (node : Node) : Bool := node.searchFootnotes.complete

/-- Adds the footnotes of a subtree to a table of footnotes; a later one replaces an earlier one
with the same name. -/
def collectFootnotes (node : Node) (table : Footnotes) : Footnotes :=
  table.putAll node.footnotes

end Node

/-- The anchor of a heading, or the slug of its text where it has none. -/
def Heading.label (h : Heading) : String :=
  match h.anchor with
  | some anchor => if anchor = "" then slug (Node.plainTextAll h.children) else anchor
  | none => slug (Node.plainTextAll h.children)

end Folio
