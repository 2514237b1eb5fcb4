import Folio.Documentation
import Folio.Fault
import Folio.Listing.Options
import Folio.Node.Walk
import Folio.Notice
import Folio.Page
import Folio.Text.Line
import Folio.Text.Lower

/-!
# Listings

A page holds places for documentation, for a table of contents and for an index. Documentation is
filled in page by page, because the index lists every documented binding; contents and index are
filled in afterwards from all pages at once.
-/

namespace Folio

open Text

/-- The target of a place for documentation, one binding a line. -/
def docsFence : String := "@docs"

/-- The target of a place for a table of contents. -/
def contentsFence : String := "@contents"

/-- The target of a place for an index. -/
def indexFence : String := "@index"

/-- A page after its documentation has been filled in. -/
structure Documented where
  nodes : List Node
  notices : List Notice
  /-- The bindings asked for. -/
  lookups : List String

namespace Documented

/-- One after the other. -/
def append (a b : Documented) : Documented :=
  ⟨a.nodes ++ b.nodes, a.notices ++ b.notices, a.lookups ++ b.lookups⟩

instance : Append Documented := ⟨append⟩

end Documented

/-- What stands for documentation that is not found. -/
def missingDocumentation (name : String) : Node :=
  .paragraph [.strong [.text "Missing documentation: "], .code name]

/-- The names that lines give, without blanks around them. -/
def listedNames (text : String) : List String := ((lines text).map trim).filter (· ≠ "")

/-- The documentation of a binding on a page. -/
def documentBinding (lookup : Lookup) (page name : String) : Documented :=
  match lookup.find? name with
  | none => ⟨[missingDocumentation name], [.undocumented name page], [name]⟩
  | some found => ⟨[.binding name found.category found.bodies page], [], [name]⟩

/-- A node of a page, with documentation in place of a fence for it. -/
def documentNode (lookup : Lookup) (page : String) : Node → Documented
  | .raw target text =>
    if target = docsFence then
      ((listedNames text).map (documentBinding lookup page)).foldr (· ++ ·) ⟨[], [], []⟩
    else ⟨[.raw target text], [], []⟩
  | node => ⟨[node], [], []⟩

/-- Fills documentation in among the nodes of a page. -/
def documentPage (lookup : Lookup) (page : String) (nodes : List Node) : Documented :=
  (nodes.map (documentNode lookup page)).foldr (· ++ ·) ⟨[], [], []⟩

/-- The covered pages. -/
def coveredPages (o : ListingOptions) (pages : List Page) : List Page :=
  pages.filter fun p => o.covers p.path

/-- A heading with the page it stands on. -/
structure ContentsLine where
  page : String
  heading : Heading

/-- The headings that a table of contents lists. -/
def contentsLines (o : ListingOptions) (pages : List Page) : List ContentsLine :=
  (coveredPages o pages).flatMap fun p =>
    ((Node.headingsAll p.contents).filter fun h => h.level ≤ (o.depth : Int)).map fun h =>
      ⟨p.path, h⟩

/-- The smallest of some levels. -/
def smallestLevel : List Int → Int
  | [] => 1
  | [level] => level
  | level :: rest => min level (smallestLevel rest)

/-- A table of contents. -/
def contentsBlock (o : ListingOptions) (pages : List Page) : Node :=
  let found := contentsLines o pages
  .contents
    (found.map fun l => .contentsEntry l.page l.heading.label l.heading.level l.heading.children)
    (smallestLevel (found.map fun l => l.heading.level))

/-- A documented binding and the page it belongs to. -/
structure IndexLine where
  name : String
  page : String

/-- The bindings that an index lists, by name in lower case, otherwise in the order of the pages. -/
def indexLines (o : ListingOptions) (pages : List Page) : List IndexLine :=
  ((coveredPages o pages).flatMap fun p =>
    (Node.bindingsAll p.contents).map fun b =>
      (⟨b.name, if b.page = "" then p.path else b.page⟩ : IndexLine)).mergeSort
    fun a b => lower a.name ≤ lower b.name

/-- An index. -/
def indexBlock (o : ListingOptions) (pages : List Page) : Node :=
  .index ((indexLines o pages).map fun l => .indexEntry l.name l.page l.name)

/-- A listing with the options that a text gives; the covered pages must be readable. -/
def listing (block : ListingOptions → List Page → Node) (text : String) (pages : List Page) :
    Except Fault Node :=
  match ListingOptions.ofText? text with
  | none => .error .depthTooLong
  | some o =>
    if (coveredPages o pages).all Page.isReadable then .ok (block o pages) else .error .misplaced

/-- A node of a page, with a listing of all pages in place of a fence for it. -/
def listNode (pages : List Page) : Node → Except Fault Node
  | .raw target text =>
    if target = contentsFence then listing contentsBlock text pages
    else if target = indexFence then listing indexBlock text pages
    else .ok (.raw target text)
  | node => .ok node

/-- Fills listings in among the nodes of a page. -/
def listPage (pages : List Page) (nodes : List Node) : Except Fault (List Node) :=
  nodes.mapM (listNode pages)

end Folio
