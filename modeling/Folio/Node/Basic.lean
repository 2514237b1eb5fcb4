/-!
# Document trees

A page body is a tree of nodes: blocks, inline text, and the generated listings and documentation
blocks. Documentation bodies and listing entries are nodes too, so that one walk fits every tree,
but they have a meaning only inside the block that holds them.
-/

namespace Folio

/-- How a column of a table is aligned; `automatic` is an alignment left empty. -/
inductive Alignment
  | left
  | center
  | right
  | automatic
deriving DecidableEq

/-- The name of an alignment; an empty one has none. -/
def Alignment.name : Alignment → String
  | left => "left"
  | center => "center"
  | right => "right"
  | automatic => ""

/-- A node of a document tree. -/
inductive Node
  /-- The root of a page. -/
  | document (children : List Node)
  /-- A section heading; its anchor is derived from the text unless it is given. -/
  | heading (level : Int) (children : List Node) (anchor : Option String)
  | paragraph (children : List Node)
  | list (ordered : Bool) (items : List Node)
  | listItem (children : List Node)
  | quote (children : List Node)
  | admonition (category title : String) (children : List Node)
  /-- Fenced or indented code with its whole info string. -/
  | codeBlock (code info : String)
  | displayMath (source : String)
  /-- A table with one alignment a column; the first row is the header. -/
  | table (columns : List (Option Alignment)) (rows : List Node)
  | tableRow (cells : List Node)
  | tableCell (children : List Node)
  | rule
  /-- Markup for a named target, taken over as it stands by that target only. -/
  | raw (target text : String)
  | footnote (id : String) (children : List Node)
  /-- The documentation of a binding; the bodies are not part of the page's own text. -/
  | binding (name category : String) (bodies : List Node) (page : String)
  /-- One documentation body: its tree and where its source is found. -/
  | body (tree : Node) (source : Option String)
  /-- An index of documented bindings. -/
  | index (entries : List Node)
  | indexEntry (name page label : String)
  /-- A table of contents, drawn in from the given level on. -/
  | contents (entries : List Node) (minLevel : Int)
  | contentsEntry (page label : String) (level : Int) (children : List Node)
  | text (text : String)
  | strong (children : List Node)
  | emph (children : List Node)
  | code (code : String)
  | math (source : String)
  | lineBreak
  | softBreak
  /-- A link as it was written. -/
  | link (destination : String) (children : List Node)
  /-- A link to a page of the book, at a fragment or as a whole. -/
  | pageLink (page fragment : String) (children : List Node)
  | image (destination : String) (children : List Node) (isLocal : Bool)
  /-- The place in the text that a footnote belongs to. -/
  | footnoteMark (id : String)

namespace Node

/-- The children in the order in which they are written. Documentation bodies and listing entries
are no children. -/
def children : Node → List Node
  | document cs | heading _ cs _ | paragraph cs | list _ cs | listItem cs | quote cs
  | admonition _ _ cs | table _ cs | tableRow cs | tableCell cs | footnote _ cs
  | contentsEntry _ _ _ cs | strong cs | emph cs | link _ cs | pageLink _ _ cs
  | image _ cs _ => cs
  | _ => []

/-- What stands directly in a node that holds a text of its own. Lists, tables and rows hold items,
rows and cells instead, and the other nodes hold nothing. -/
def contents? : Node → Option (List Node)
  | document cs | heading _ cs _ | paragraph cs | listItem cs | quote cs | admonition _ _ cs
  | tableCell cs | footnote _ cs | contentsEntry _ _ _ cs | strong cs | emph cs | link _ cs
  | pageLink _ _ cs | image _ cs _ => some cs
  | _ => none

/-- Whether a node is a documentation body. -/
def isBody : Node → Bool
  | body .. => true
  | _ => false

/-- The name of a kind of node in messages and in exchanged documents. -/
def kind : Node → String
  | document _ => "Document"
  | heading .. => "Heading"
  | paragraph _ => "Paragraph"
  | list .. => "List"
  | listItem _ => "ListItem"
  | quote _ => "BlockQuote"
  | admonition .. => "Admonition"
  | codeBlock .. => "CodeBlock"
  | displayMath _ => "DisplayMath"
  | table .. => "Table"
  | tableRow _ => "TableRow"
  | tableCell _ => "TableCell"
  | rule => "ThematicBreak"
  | raw .. => "RawPassthrough"
  | footnote .. => "FootnoteDefinition"
  | binding .. => "RichContentBlock"
  | body .. => "DocBody"
  | index _ => "IndexBlock"
  | indexEntry .. => "IndexEntry"
  | contents .. => "ContentsBlock"
  | contentsEntry .. => "ContentsEntry"
  | text _ => "Text"
  | strong _ => "Strong"
  | emph _ => "Emph"
  | code _ => "InlineCode"
  | math _ => "InlineMath"
  | lineBreak => "LineBreak"
  | softBreak => "SoftBreak"
  | link .. => "Link"
  | pageLink .. => "ResolvedPageLink"
  | image .. => "Image"
  | footnoteMark _ => "FootnoteReference"

/-- The kinds that may stand anywhere in a tree. -/
def kinds : List String := [
  "Document", "Heading", "Paragraph", "List", "ListItem", "BlockQuote", "Admonition", "CodeBlock",
  "InlineCode", "Table", "TableRow", "TableCell", "Image", "DisplayMath", "InlineMath", "Link",
  "ResolvedPageLink", "FootnoteDefinition", "FootnoteReference", "RawPassthrough",
  "RichContentBlock", "IndexBlock", "ContentsBlock", "Text", "Strong", "Emph", "LineBreak",
  "SoftBreak", "ThematicBreak"]

/-- Structural nodes are written without blank lines around them at page level. -/
def isStructural : Node → Bool
  | heading .. | index _ | contents .. | binding .. | raw .. => true
  | _ => false

end Node

end Folio
