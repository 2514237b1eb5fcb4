import Folio.Render

/-!
# Books

A book is its preamble followed by its pages in order. Every page is written from its own entry and
the labels of the book alone, so that no page changes how another one is written.
-/

namespace Folio

open Draft

/-- How a book is written: its nodes, and the directory in which hand-written pages must exist. -/
structure Book where
  renderer : Renderer
  source : Option Folder

namespace Book

/-- The title of a page from the page list. -/
def title (p : Page) : Draft :=
  markup ("#extended_heading(level: " ++ toString p.depth ++ ", [") >> prose p.title >>
    markup "])\n\n"

/-- The label of a page as a whole. -/
def pageAnchor (b : Book) (p : Page) : Draft :=
  markup ("#metadata(\"" ++ pageLabel ++ "\") ") >>
    ofPiece (.anchor (b.renderer.labels.id p.path pageLabel)) >> markup "\n"

/-- The inclusion of a hand-written page, below its title. -/
def inclusion (b : Book) (p : Page) : Draft :=
  let offset := p.depth + (if p.title = "" then 0 else 1) - 1
  when (p.title ≠ "") (title p) >> b.pageAnchor p >> markup "#extended_include(" >>
    literal (String.ofList (Path.withSlashes p.path.toList)) >>
    markup (", offset: " ++ toString offset ++ ")\n")

/-- A hand-written page; it must exist if its directory is known. -/
def rawPage (b : Book) (p : Page) : Draft :=
  match b.source with
  | some folder =>
    ofExcept (folder.hasFile p.path) fun found =>
      if found then b.inclusion p
      else stop (.missingRawPage (folder.locate p.path).toString)
  | none => b.inclusion p

/-- The surroundings at the start of a page's body: below its title, and with its footnotes. -/
def start (p : Page) (tree : Node) : Context :=
  Context.atPage p.path (p.depth + if p.title = "" then 0 else 1) (tree.collectFootnotes [])

/-- One page. -/
def page (b : Book) (p : Page) : Draft :=
  if p.depth < 1 ∨ deepestHeading < p.depth then
    notice (.depthOutOfRange (if p.path = "" then p.title else p.path) p.depth)
  else if p.isSection then title p
  else if p.isRaw then b.rawPage p
  else match p.tree with
    | none => notice (.emptyPage p.path)
    | some tree =>
      searched tree >> when (p.title ≠ "") (title p) >>
        when (!b.renderer.labels.hasHeadings p.path) (b.pageAnchor p) >>
        b.renderer.tree (start p tree) tree

/-- Pages in order. -/
def pages (b : Book) : List Page → Draft
  | [] => empty
  | p :: rest => b.page p >> b.pages rest

/-- A preamble, on lines of its own, and the pages. -/
def draft (b : Book) (preamble : String) (ps : List Page) : Draft :=
  when (preamble ≠ "") (markup (preamble ++ "\n")) >> b.pages ps

section Sources

variable (lexers : Language.Lexers)

/-- A book with some labels, whose images and hand-written pages are in one directory. -/
def ofLabels (labels : Labels) (source : Option Folder) : Book where
  renderer := { labels, lexers, assets := source }
  source := source

/-- The book of some pages, with the labels of these pages. -/
def ofPages (base : String) (strict : Bool) (source : Option Folder) (ps : List Page) : Book :=
  ofLabels lexers (Labels.ofPages base strict ps) source

/-- A preamble and some pages as a book of its own; the pages must be readable. -/
def render (base : String) (strict : Bool) (source : Option Folder) (preamble : String)
    (ps : List Page) : Draft :=
  ofExcept (Labels.ofPages? base strict ps) fun labels =>
    (ofLabels lexers labels source).draft preamble ps

end Sources

end Book

end Folio
