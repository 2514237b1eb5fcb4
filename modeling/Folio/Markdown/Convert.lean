import Folio.Listing
import Folio.Markdown.Element
import Folio.Number.Integer
import Folio.Path
import Folio.Render.Image
import Folio.Text.Percent

/-!
# Markdown pages as document trees

Every block and inline element becomes a node; elements without a counterpart are dropped when they
are blocks and give way to their children when they are inline. The headings of a page get anchors
that differ from each other: the slug of the text, with the smallest free number from two on when
an earlier heading has it already. Relative links to other pages are resolved against the page.
-/

namespace Folio.Markdown

open Text

/-- Why a syntax tree has no document tree: a heading whose level is no number. -/
inductive ConversionFault
  | headingTag (tag : String)

/-! ### Anchors -/

/-- A label with a number behind it. -/
def numbered (root : String) (n : Nat) : String := root ++ "-" ++ toString n

/-- The first number from `n` on that makes a label free; the fuel bounds the search. -/
def freeNumber (root : String) (used : List String) : Nat → Nat → Nat
  | 0, n => n
  | fuel + 1, n =>
    if used.contains (numbered root n) then freeNumber root used fuel (n + 1) else n

/-- The anchor of a heading with a given slug, when some anchors are in use. -/
def freeLabel (slug : String) (used : List String) : String :=
  let root := if slug = "" then "section" else slug
  if used.contains root then numbered root (freeNumber root used used.length 2) else root

/-! ### Inline elements -/

/-- A target on this book's pages without percent-encoding; other addresses stay as they are. -/
def localTarget (url : String) : String := if isAbsoluteUrl url then url else percentDecoded url

/-- The suffixes of pages. -/
def isPagePath (path : String) : Bool := endsWith path ".md" || endsWith path ".typ"

/-- A link on a page. -/
def linkNode (page href : String) (children : List Node) : Node :=
  if href = "" ∨ isAbsoluteUrl href ∨ startsWith href "mailto:" then .link href children
  else
    let href := percentDecoded href
    if startsWith href "#" then .link href children
    else
      let path := href.toList.takeWhile (· ≠ '#')
      let fragment := (href.toList.dropWhile (· ≠ '#')).drop 1
      if isPagePath (String.ofList path) then
        .pageLink (String.ofList (Path.resolve (Path.withSlashes page.toList) path))
          (String.ofList fragment) children
      else .link href children

mutual

/-- The nodes of one inline element. -/
def inlineNodes (page : String) : Element → List Node
  | .mk kind a cs =>
    match kind with
    | .text => [.text a.content]
    | .softBreak => [.softBreak]
    | .hardBreak => [.lineBreak]
    | .codeSpan => [.code a.content]
    | .strong => [.strong (inlineAll page cs)]
    | .emph => [.emph (inlineAll page cs)]
    | .math => [.math a.content]
    | .footnoteMark => [.footnoteMark a.footnoteName]
    | .link => [linkNode page (a.attr "href") (inlineAll page cs)]
    | .image => [.image (localTarget (a.attr "src")) (inlineAll page cs) false]
    | .footnoteAnchor => []
    | .htmlInline => []
    | _ => inlineAll page cs

/-- The nodes of inline elements in order. -/
def inlineAll (page : String) : List Element → List Node
  | [] => []
  | e :: rest => inlineNodes page e ++ inlineAll page rest

end

/-! ### Blocks -/

/-- A text without the line feeds at its end. -/
def withoutLastLines (s : String) : String := String.ofList (dropEndWhile (· = '\n') s.toList)

/-- A fence: raw markup for a target, the place of a listing, or code. -/
def fenceNode (a : Attributes) : Node :=
  let code := withoutLastLines a.content
  match (words a.info.toList).map String.ofList with
  | "@raw" :: target :: _ => .raw target code
  | first :: _ =>
    if first = docsFence ∨ first = contentsFence ∨ first = indexFence then .raw first code
    else .codeBlock code (trim a.info)
  | [] => .codeBlock code (trim a.info)

/-- The alignment that a style gives after a mark for it. -/
def alignmentAfter? (cs : List Char) : Option Alignment :=
  match after? "text-align:".toList cs with
  | none => none
  | some rest =>
    let value := rest.dropWhile isBlank
    if (after? "left".toList value).isSome then some .left
    else if (after? "center".toList value).isSome then some .center
    else if (after? "right".toList value).isSome then some .right
    else none

/-- The first alignment that a style gives; left if it gives none. -/
def styleAlignment : List Char → Alignment
  | [] => .left
  | c :: rest => (alignmentAfter? (c :: rest)).getD (styleAlignment rest)

/-- A table; the cells of its first row tell how the columns are aligned. -/
def tableNode (page : String) (sections : List Element) : Node :=
  let rows := sections.flatMap Element.children
  let header := (rows.head?.map Element.children).getD []
  .table (header.map fun cell => some (styleAlignment (cell.attributes.attr "style").toList))
    (rows.map fun row =>
      .tableRow (row.children.map fun cell => .tableCell (inlineAll page cell.children)))

/-- The plain text of the last title among the parts of an admonition. -/
def admonitionTitle (page : String) (parts : List Element) : String :=
  match (parts.filter fun e => e.kind = .admonitionTitle).getLast? with
  | some title => Node.plainTextAll (inlineAll page title.children)
  | none => ""

/-- Conversion with the anchors used so far. -/
abbrev Conversion (α : Type) : Type := List String → Except ConversionFault (α × List String)

/-- A result that uses no anchor. -/
def done (a : α) : Conversion α := fun used => .ok (a, used)

/-- One conversion after the other. -/
def Conversion.andThen (first : Conversion α) (next : α → Conversion β) : Conversion β :=
  fun used =>
    match first used with
    | .ok (a, used) => next a used
    | .error f => .error f

/-- The result of a conversion, changed. -/
def Conversion.map (f : α → β) (conversion : Conversion α) : Conversion β :=
  conversion.andThen fun a => done (f a)

/-- A heading with a fresh anchor. -/
def headingNode (page tag : String) (cs : List Element) : Conversion (List Node) := fun used =>
  let children := inlineAll page cs
  let anchor := freeLabel (slug (Node.plainTextAll children)) used
  match Number.readInt? (tag.toList.drop 1) with
  | some level => .ok ([.heading level children (some anchor)], anchor :: used)
  | none => .error (.headingTag tag)

mutual

/-- The nodes of one block. -/
def blockNodes (page : String) : Element → Conversion (List Node)
  | .mk kind a cs =>
    match kind with
    | .heading => headingNode page a.tag cs
    | .paragraph => done [.paragraph (inlineAll page cs)]
    | .bulletList => (itemNodes page cs).map fun items => [.list false items]
    | .orderedList => (itemNodes page cs).map fun items => [.list true items]
    | .quote => (blockAll page cs).map fun children => [.quote children]
    | .fence => done [fenceNode a]
    | .codeBlock => done [.codeBlock (withoutLastLines a.content) ""]
    | .mathBlock => done [.displayMath (trim a.content)]
    | .table => done [tableNode page cs]
    | .rule => done [.rule]
    | .htmlBlock => done [.raw "html" a.content]
    | .admonition => (blockAll page cs).map fun children =>
        [.admonition (a.note "tag") (admonitionTitle page cs) children]
    | .footnoteBlock => footnoteNodes page cs
    | _ => done []

/-- The nodes of blocks in order. -/
def blockAll (page : String) : List Element → Conversion (List Node)
  | [] => done []
  | e :: rest => (blockNodes page e).andThen fun nodes => (blockAll page rest).map (nodes ++ ·)

/-- The items of a list. -/
def itemNodes (page : String) : List Element → Conversion (List Node)
  | [] => done []
  | .mk _ _ cs :: rest => (blockAll page cs).andThen fun children =>
      (itemNodes page rest).map (.listItem children :: ·)

/-- The footnotes of a page. -/
def footnoteNodes (page : String) : List Element → Conversion (List Node)
  | [] => done []
  | .mk _ a cs :: rest => (blockAll page cs).andThen fun children =>
      (footnoteNodes page rest).map (.footnote a.footnoteName children :: ·)

end

/-- The document tree of a page. -/
def documentTree (page : String) (elements : List Element) : Except ConversionFault (List Node) :=
  (blockAll page elements []).map Prod.fst

end Folio.Markdown
