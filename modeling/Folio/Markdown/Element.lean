import Folio.Value.Basic

/-!
# Markdown syntax

The syntax tree of a Markdown page: blocks and inline elements with their source text and
attributes. Blocks of text hold one element of kind `inline`, whose children are the inline
elements.
-/

namespace Folio.Markdown

/-- What an element is. -/
inductive ElementKind
  | heading
  | paragraph
  | bulletList
  | orderedList
  | quote
  | fence
  | codeBlock
  | mathBlock
  | table
  | rule
  | htmlBlock
  | admonition
  | admonitionTitle
  | footnoteBlock
  | inline
  | text
  | softBreak
  | hardBreak
  | codeSpan
  | strong
  | emph
  | math
  | footnoteMark
  | link
  | image
  | footnoteAnchor
  | htmlInline
  /-- Any element of another kind. -/
  | other
deriving DecidableEq

/-- The kinds by the names that syntax trees use. -/
def ElementKind.names : List (String × ElementKind) := [
  ("heading", heading), ("paragraph", paragraph), ("bullet_list", bulletList),
  ("ordered_list", orderedList), ("blockquote", quote), ("fence", fence),
  ("code_block", codeBlock), ("math_block", mathBlock), ("math_block_label", mathBlock),
  ("table", table), ("hr", rule), ("html_block", htmlBlock), ("admonition", admonition),
  ("admonition_title", admonitionTitle), ("footnote_block", footnoteBlock), ("inline", inline),
  ("text", text), ("softbreak", softBreak), ("hardbreak", hardBreak), ("code_inline", codeSpan),
  ("strong", strong), ("em", emph), ("math_inline", math), ("math_inline_double", math),
  ("footnote_ref", footnoteMark), ("link", link), ("image", image),
  ("footnote_anchor", footnoteAnchor), ("html_inline", htmlInline)]

/-- The kind with a given name. -/
def ElementKind.ofName (name : String) : ElementKind := (names.lookup name).getD other

/-- What an element says of itself, apart from its children. -/
structure Attributes where
  tag : String
  content : String
  info : String
  /-- Attributes of the element in the page. -/
  attrs : List (Key × Value)
  /-- What the parser noted about the element. -/
  noted : List (Key × Value)

/-- An element of a syntax tree. -/
inductive Element
  | mk (kind : ElementKind) (attributes : Attributes) (children : List Element)

namespace Element

/-- What an element is. -/
def kind : Element → ElementKind
  | mk kind _ _ => kind

/-- What an element says of itself. -/
def attributes : Element → Attributes
  | mk _ attributes _ => attributes

/-- The elements below. -/
def children : Element → List Element
  | mk _ _ children => children

end Element

/-- The plain form of an attribute; empty if it is missing. -/
def Attributes.attr (a : Attributes) (name : String) : String :=
  ((Value.lookup? name a.attrs).map Value.plain).getD ""

/-- The plain form of something noted; empty if it is missing. -/
def Attributes.note (a : Attributes) (name : String) : String :=
  ((Value.lookup? name a.noted).map Value.plain).getD ""

/-- The name of a footnote: its label if it has one, and otherwise its number. -/
def Attributes.footnoteName (a : Attributes) : String :=
  match Value.lookup? "label" a.noted with
  | some label => if label.isFilled then label.plain else a.note "id"
  | none => a.note "id"

end Folio.Markdown
