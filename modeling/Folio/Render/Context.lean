import Folio.Draft
import Folio.Language

/-!
# Where a node is written

The page and the surroundings of a node decide how it is written. They are handed down and never
changed in place, so that what holds around a node holds again after it.
-/

namespace Folio

/-- A directory on a disk. -/
structure Folder where
  place : Location
  disk : Disk

namespace Folder

/-- The location of a path below the directory. -/
def locate (f : Folder) (path : String) : Location := f.place.below (.ofString path)

/-- Whether a path leads to a file from the directory. -/
def hasFile (f : Folder) (path : String) : Except Fault Bool :=
  (f.disk.isFile (f.locate path)).mapError .disk

end Folder

/-- What is known about the book as a whole while its pages are written. -/
structure Renderer where
  labels : Labels
  /-- The highlighter that code blocks are meant for. -/
  lexers : Language.Lexers
  /-- The directory that images are looked for in, if they are. -/
  assets : Option Folder

/-- The surroundings of a node. -/
structure Context where
  page : String
  /-- The level at which a heading of level one is written. -/
  headingDepth : Int
  /-- Inside lists, quotes, tables and the like, where paragraphs are set closer. -/
  inBlock : Bool
  inHeading : Bool
  /-- Inside a documentation body, whose headings have no labels. -/
  inDocs : Bool
  /-- The footnotes of the page. -/
  notes : Footnotes

/-- The surroundings at the start of a page. -/
def Context.atPage (page : String) (headingDepth : Int) (notes : Footnotes) : Context :=
  { page, headingDepth, inBlock := false, inHeading := false, inDocs := false, notes }

/-- What comes of a search for footnotes: nothing is written, and a search that is stopped is a
fault. -/
def searched (node : Node) : Draft :=
  if node.isSearchable then .empty else .stop .misplaced

/-- The same surroundings inside a block. -/
def Context.block (c : Context) : Context := { c with inBlock := true }

end Folio
