import Folio.Book
import Folio.Render.InPlace

/-!
# Writing a book in place

One session serves for a whole book. A page that is passed over for its depth leaves the session as
it is; every other page is started, which clears what the page before it has left in the
surroundings, and then goes its own way out: a section behind its title, a hand-written page behind
its inclusion, a page without a tree at once, and any other page behind its body.
-/

namespace Folio.Writing

open Draft

/-- Starts a page. -/
def startPage (path : String) (headingDepth : Int) : Writing Unit :=
  modify fun s => s.startPage path headingDepth

/-- Adds the footnotes of a tree to those of the page, up to where the search is stopped. -/
def collectFootnotes (tree : Node) : Writing Unit := do
  modify fun s => s.collectFootnotes tree
  emit (searched tree)

/-- Sets the level at which a heading of level one is written. -/
def setHeadingDepth (depth : Int) : Writing Unit :=
  modify fun s => { s with context := { s.context with headingDepth := depth } }

/-- Writes the tree of a page that is started, below the title and the label of the page. -/
def pageTree (b : Book) (p : Page) (tree : Node) : Writing Unit := do
  collectFootnotes tree
  setHeadingDepth (p.depth + if p.title = "" then 0 else 1)
  emit (when (p.title ≠ "") (Book.title p))
  emit (when (!b.renderer.labels.hasHeadings p.path) (b.pageAnchor p))
  renderBody tree

/-- Writes a page. -/
def page (source : Option Folder) (p : Page) : Writing Unit := do
  let s ← get
  let b : Book := ⟨s.renderer, source⟩
  if p.depth < 1 ∨ deepestHeading < p.depth then
    emit (notice (.depthOutOfRange (if p.path = "" then p.title else p.path) p.depth))
  else
    startPage p.path p.depth
    if p.isSection then emit (Book.title p)
    else if p.isRaw then emit (b.rawPage p)
    else match p.tree with
      | none => emit (notice (.emptyPage p.path))
      | some tree => pageTree b p tree

/-- Writes pages in order. -/
def pages (source : Option Folder) : List Page → Writing Unit
  | [] => pure ()
  | p :: rest => do
    page source p
    pages source rest

/-- Writes a preamble, on lines of its own, and pages. -/
def book (source : Option Folder) (preamble : String) (ps : List Page) : Writing Unit := do
  emit (when (preamble ≠ "") (markup (preamble ++ "\n")))
  pages source ps

/-- The text of a session behind a step of writing, if the step ends without a fault. -/
def text? (w : Writing Unit) (s : Session) : Option String :=
  match w s with
  | .ok _ t => some t.text
  | .error _ _ => none

end Folio.Writing
