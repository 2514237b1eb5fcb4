import Folio.Node.Basic
import Folio.Text.Cut

/-!
# Pages

A book is a list of pages. A page without a path is only a section title, a page whose path ends
in `.typ` is written by hand and included as it is, and any other page has a document tree.
-/

namespace Folio

/-- One entry of the page list. -/
structure Page where
  /-- The path below the source directory; empty for a section title. -/
  path : String
  /-- The document tree; missing for sections and hand-written pages. -/
  tree : Option Node
  /-- The title in the page list; empty for a page listed bare. -/
  title : String
  /-- The depth in the page list, from one on. -/
  depth : Int

namespace Page

/-- What stands at the top of the tree of a page. -/
def contents (p : Page) : List Node := (p.tree.bind Node.contents?).getD []

/-- Whether the tree of a page, if it has one, holds a text of its own. -/
def isReadable (p : Page) : Bool := p.tree.all fun tree => tree.contents?.isSome

/-- Whether a page is only a title. -/
def isSection (p : Page) : Bool := p.path = ""

/-- Whether a page is written by hand. -/
def isRaw (p : Page) : Bool := Text.endsWith p.path ".typ"

end Page

end Folio
