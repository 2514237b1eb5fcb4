import Folio.Markdown.Element
import Folio.Value.Json

/-!
# Syntax trees as values

A syntax tree is exchanged as a value: an element is a mapping with its kind under `type`, what it
says of itself, and the elements below it under `children`. What is missing is empty.
-/

namespace Folio.Markdown

/-- The text under a key; empty if there is none. -/
def textUnder (key : String) (entries : List (Key × Value)) : String :=
  match Value.lookup? key entries with
  | some (.scalar (.text s)) => s
  | _ => ""

/-- The entries of the mapping under a key; none if there is none. -/
def entriesUnder (key : String) (entries : List (Key × Value)) : List (Key × Value) :=
  match Value.lookup? key entries with
  | some (.map es) => es
  | _ => []

/-- What the entries of an element say of it. -/
def Attributes.ofEntries (entries : List (Key × Value)) : Attributes where
  tag := textUnder "tag" entries
  content := textUnder "content" entries
  info := textUnder "info" entries
  attrs := entriesUnder "attrs" entries
  noted := entriesUnder "meta" entries

namespace Element

mutual

/-- The element that a value describes. -/
def ofValue : Value → Element
  | .map entries =>
    .mk (.ofName (textUnder "type" entries)) (.ofEntries entries) (ofEntries entries)
  | _ => .mk .other (.ofEntries []) []

/-- The elements that the entries of an element hold. -/
def ofEntries : List (Key × Value) → List Element
  | [] => []
  | (key, value) :: rest => if key = .text "children" then ofList value else ofEntries rest

/-- The elements that a list describes. -/
def ofList : Value → List Element
  | .list values => ofValues values
  | _ => []

/-- The elements that values describe. -/
def ofValues : List Value → List Element
  | [] => []
  | value :: rest => ofValue value :: ofValues rest

end

end Element

/-- The elements of a page whose text is its syntax tree. -/
def readTree (text : String) : Option (List Element) := (Value.Json.read? text).map Element.ofList

end Folio.Markdown
