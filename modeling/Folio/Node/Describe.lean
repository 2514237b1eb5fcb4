import Folio.Node.Basic
import Folio.Text.Cut
import Folio.Text.Quoted

/-!
# Descriptions of nodes

A node in a message is its kind with all its fields by name; texts are quoted, and groups stand in
parentheses.
-/

namespace Folio.Node

open Text

/-- A kind with its fields. -/
def fields (kind : String) (parts : List (String × String)) : String :=
  kind ++ "(" ++ joinWith ", " (parts.map fun (name, value) => name ++ "=" ++ value) ++ ")"

/-- A text that may be missing. -/
def shownOption : Option String → String
  | some s => quoted s
  | none => "None"

/-- A truth value. -/
def shownBool (b : Bool) : String := if b then "True" else "False"

mutual

/-- The description of a node. -/
def describe : Node → String
  | document cs => fields "Document" [("children", grouped (describeAll cs))]
  | heading level cs anchor => fields "Heading"
      [("level", toString level), ("children", grouped (describeAll cs)),
        ("anchor", shownOption anchor)]
  | paragraph cs => fields "Paragraph" [("children", grouped (describeAll cs))]
  | list ordered items => fields "List"
      [("ordered", shownBool ordered), ("items", grouped (describeAll items))]
  | listItem cs => fields "ListItem" [("children", grouped (describeAll cs))]
  | quote cs => fields "BlockQuote" [("children", grouped (describeAll cs))]
  | admonition category title cs => fields "Admonition"
      [("category", quoted category), ("title", quoted title),
        ("children", grouped (describeAll cs))]
  | codeBlock source info => fields "CodeBlock" [("code", quoted source), ("lang", quoted info)]
  | displayMath source => fields "DisplayMath" [("source", quoted source)]
  | table columns rows => fields "Table"
      [("spec", grouped (columns.map fun a => shownOption (a.map Alignment.name))),
        ("rows", grouped (describeAll rows))]
  | tableRow cells => fields "TableRow" [("cells", grouped (describeAll cells))]
  | tableCell cs => fields "TableCell" [("children", grouped (describeAll cs))]
  | rule => fields "ThematicBreak" []
  | raw target s => fields "RawPassthrough"
      [("target_name", quoted target), ("text", quoted s)]
  | footnote id cs => fields "FootnoteDefinition"
      [("id", quoted id), ("children", grouped (describeAll cs))]
  | binding name category bodies page => fields "RichContentBlock"
      [("binding_name", quoted name), ("category", quoted category),
        ("bodies", grouped (describeAll bodies)), ("page_path", quoted page)]
  | body tree source => fields "DocBody"
      [("tree", tree.describe), ("source_url", shownOption source)]
  | index entries => fields "IndexBlock" [("entries", grouped (describeAll entries))]
  | indexEntry name page label => fields "IndexEntry"
      [("binding_name", quoted name), ("page_path", quoted page), ("label", quoted label)]
  | contents entries minLevel => fields "ContentsBlock"
      [("entries", grouped (describeAll entries)), ("min_depth", toString minLevel)]
  | contentsEntry page label level cs => fields "ContentsEntry"
      [("page_path", quoted page), ("label", quoted label), ("level", toString level),
        ("children", grouped (describeAll cs))]
  | text s => fields "Text" [("text", quoted s)]
  | strong cs => fields "Strong" [("children", grouped (describeAll cs))]
  | emph cs => fields "Emph" [("children", grouped (describeAll cs))]
  | code s => fields "InlineCode" [("code", quoted s)]
  | math source => fields "InlineMath" [("source", quoted source)]
  | lineBreak => fields "LineBreak" []
  | softBreak => fields "SoftBreak" []
  | link destination cs => fields "Link"
      [("destination", quoted destination), ("children", grouped (describeAll cs))]
  | pageLink page fragment cs => fields "ResolvedPageLink"
      [("target_page", quoted page), ("fragment", quoted fragment),
        ("children", grouped (describeAll cs))]
  | image destination cs isLocal => fields "Image"
      [("destination", quoted destination), ("children", grouped (describeAll cs)),
        ("is_local", shownBool isLocal)]
  | footnoteMark id => fields "FootnoteReference" [("id", quoted id)]

/-- The descriptions of nodes. -/
def describeAll : List Node → List String
  | [] => []
  | node :: rest => node.describe :: describeAll rest

end

end Folio.Node
