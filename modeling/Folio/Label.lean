import Folio.Fault
import Folio.Markup.Escape
import Folio.Node.Walk
import Folio.Page
import Folio.Path
import Folio.Text.Lower

/-!
# Labels

Every heading and every documented binding of a book has a label on its page. The index of labels
is built from all pages before anything is written, so that a link may point forwards, to another
page, or at a heading whose name differs in case only. Of several headings with one name the last
one is found, and a heading is found before a binding. A link to a page as a whole leads to its
first heading, or to the label of the page itself if it has none.
-/

namespace Folio

open Text

/-- The label of a page without headings. -/
def pageLabel : String := "__page__"

/-- A label on a page; the page path is in normal form. -/
structure LabelId where
  page : String
  name : String
deriving DecidableEq

/-- The full name of a label. -/
def LabelId.text (id : LabelId) : String :=
  if id.page = "" then id.name else id.page ++ "#" ++ id.name

/-- The name of a label inside a string argument. -/
def LabelId.escaped (id : LabelId) : String := Markup.escapeString id.text

/-- The labels of a book. -/
structure Labels where
  /-- The build directory that page paths may start with. -/
  base : String
  /-- Whether an unknown fragment is a fault. -/
  strict : Bool
  /-- Labels by page and lower-case name. -/
  index : Table String String
  /-- The label of the first heading of every page that has one. -/
  first : Table String String

namespace Labels

/-- The key of a label in the index. -/
def key (page name : String) : String := page ++ "#" ++ lower name

/-- The labels of all headings in order. -/
def headingIds (base : String) (pages : List Page) : List LabelId :=
  pages.flatMap fun p =>
    (Node.headingsAll p.contents).map fun h => ⟨Path.normal base p.path, h.label⟩

/-- The labels of all documented bindings in order. -/
def bindingIds (base : String) (pages : List Page) : List LabelId :=
  pages.flatMap fun p =>
    (Node.bindingsAll p.contents).map fun b =>
      ⟨Path.normal base (if b.page = "" then p.path else b.page), b.name⟩

/-- The labels of a book. -/
def ofPages (base : String) (strict : Bool) (pages : List Page) : Labels :=
  let headings := headingIds base pages
  let index := headings.foldl
    (fun (t : Table String String) id => t.put (key id.page id.name) id.name) []
  { base, strict
    index := (bindingIds base pages).foldl
      (fun (t : Table String String) id => t.putNew (key id.page id.name) id.name) index
    first := headings.foldl (fun (t : Table String String) id => t.putNew id.page id.name) [] }

/-- The labels of a book, whose pages must be readable. -/
def ofPages? (base : String) (strict : Bool) (pages : List Page) : Except Fault Labels :=
  if pages.all Page.isReadable then .ok (ofPages base strict pages) else .error .misplaced

variable (labels : Labels)

/-- The label with a given name on a page. -/
def id (page name : String) : LabelId := ⟨Path.normal labels.base page, name⟩

/-- The name of the label that a link to a fragment of a page leads to. -/
def resolveName (page fragment : String) : Except Fault String :=
  let path := Path.normal labels.base page
  if fragment = "" then .ok ((labels.first.get? path).getD pageLabel)
  else match labels.index.get? (key path fragment) with
    | some name => .ok name
    | none => if labels.strict then .error (.unresolved fragment path) else .ok fragment

/-- The label that a link to a fragment of a page leads to. -/
def resolve (page fragment : String) : Except Fault LabelId :=
  (labels.resolveName page fragment).map (labels.id page)

/-- Whether a page has a heading. -/
def hasHeadings (page : String) : Bool := labels.first.has (Path.normal labels.base page)

end Labels

end Folio
