import Folio.Book
import Folio.Build.Fault
import Folio.Config.Load
import Folio.Directive
import Folio.Listing
import Folio.Preamble

/-!
# The sources of a book

A book is written in a working copy of its source directory. Its pages are read from the copy and
completed by documentation, then by listings; the book is written beside them under the name of its
artifact; then the hand-written pages are expanded in place, in the order of the page list, and the
style library is put beside the book.
-/

namespace Folio

/-- What a book is made of: the configuration and whoever knows what it does not say. -/
structure Manuscript where
  config : BuildConfig
  /-- The template of the preamble, and who fills it. -/
  template : String
  engine : TemplateEngine
  /-- The highlighter that code blocks are meant for. -/
  lexers : Language.Lexers
  lookup : Lookup
  evaluator : Evaluator
  /-- The reader of Markdown; not every text has a syntax tree. -/
  markdown : String → Option (List Markdown.Element)
  today : Date

/-- A book that is written, and not yet compiled. -/
structure WrittenBook where
  source : Location
  /-- The hand-written pages. -/
  expanded : List String

namespace Manuscript

variable (m : Manuscript) (copy : Location)

/-- The language of the examples on hand-written pages. -/
def exampleLanguage : String := "python"

/-- The document tree of a Markdown page, with its documentation. -/
def tree (path : String) : Job BuildFault (List Node) := do
  let file := copy.below (.ofString path)
  unless ← Job.read .disk fun disk => disk.isFile file do
    throw (.missingPage path m.config.sourceDir)
  let text ← Job.read .disk fun disk => disk.readText file
  let some elements := m.markdown text | throw (.unreadablePage path)
  match Markdown.documentTree path elements with
  | .error fault => throw (.conversion fault)
  | .ok nodes =>
    let documented := documentPage m.lookup path nodes
    Job.notices documented.notices
    modify fun desk => { desk with lookups := desk.lookups ++ documented.lookups }
    return documented.nodes

/-- An entry of the page list as a page. -/
def page (entry : PageEntry) : Job BuildFault Page := do
  let bare : Page := ⟨entry.path, none, entry.title, entry.depth⟩
  if bare.isSection || bare.isRaw then return bare
  return { bare with tree := some (.document (← m.tree copy entry.path)) }

/-- The entries of the page list as pages, before listings are filled in. -/
def bareEntries : List PageEntry → Job BuildFault (List Page)
  | [] => return []
  | entry :: rest => do
    let page ← m.page copy entry
    return page :: (← bareEntries rest)

/-- A page with listings of all pages in its tree. -/
def listedPage (pages : List Page) (p : Page) : Except Fault Page := do
  match p.tree with
  | none => .ok p
  | some _ => .ok { p with tree := some (.document (← listPage pages p.contents)) }

/-- The pages of the book. -/
def pages : Job BuildFault (List Page) := do
  let bare ← m.bareEntries copy m.config.pages
  match bare.mapM (listedPage bare) with
  | .ok pages => return pages
  | .error fault => throw (.page fault)

/-- The style of the project, if it has its own. -/
def customStyle : Job BuildFault (Option String) := do
  let file := copy.below (.ofString Style.customPath)
  if ← Job.read .disk fun disk => disk.isFile file then
    return some (← Job.read .disk fun disk => disk.readText file)
  return none

/-- What the preamble says of the book, with the style of the project if it has its own. -/
def imprint (customStyle : Option String) : Imprint :=
  { sitename := m.config.sitename, version := m.config.version, authors := m.config.authors
    customStyle, date := m.today }

/-- How the pages are written, with the directory as it is on a disk. -/
def book (pages : List Page) (disk : Disk) : Book :=
  .ofPages m.lexers "" m.config.strictLinks (some ⟨copy, disk⟩) pages

/-- The file that the book is written to, by the name of its artifact. -/
def source : Job BuildFault Location :=
  match artifactStem? m.config.sitename m.config.version with
  | some stem => return copy.below (.ofString (stem ++ ".typ"))
  | none => throw .versionTooLong

/-- Writes the book; the answer is its file. -/
def write (pages : List Page) : Job BuildFault Location := do
  let style ← customStyle copy
  match preamble m.engine m.template (m.imprint style) with
  | .error reason => throw (.template reason)
  | .ok preamble =>
    let draft := (m.book copy pages (← get).disk).draft preamble pages
    Job.notices draft.notices
    match draft.fault with
    | some fault => throw (.page fault)
    | none =>
      let source ← m.source copy
      Job.change .disk fun disk => disk.write source (.text draft.text)
      return source

/-- What hand-written pages are expanded with. -/
def expander (renderer : Renderer) : Expander where
  renderer
  lookup := m.lookup
  evaluator := m.evaluator
  language := exampleLanguage

/-- Expands a hand-written page in place. -/
def expandPage (pages : List Page) (path : String) : Job BuildFault Unit := do
  let file := copy.below (.ofString path)
  let text ← Job.read .disk fun disk => disk.readText file
  let e := (m.expander (m.book copy pages (← get).disk).renderer).expand path text
  Job.notices e.draft.notices
  modify fun desk =>
    { desk with lookups := desk.lookups ++ e.lookups, evaluated := desk.evaluated ++ e.evaluated }
  match e.draft.fault with
  | some fault => throw (.page fault)
  | none => Job.change .disk fun disk => disk.write file (.text e.draft.text)

/-- Expands hand-written pages in place, in order. -/
def expandPages (pages : List Page) : List String → Job BuildFault Unit
  | [] => return ()
  | path :: rest => do
    m.expandPage copy pages path
    expandPages pages rest

/-- The paths of hand-written pages. -/
def rawPaths (pages : List Page) : List String := (pages.filter Page.isRaw).map Page.path

/-- Writes the book with everything that belongs to it. -/
def writeAll : Job BuildFault WrittenBook := do
  let pages ← m.pages copy
  let source ← m.write copy pages
  m.expandPages copy pages (rawPaths pages)
  Job.change .disk fun disk => disk.write (copy.child Style.fileName) (.text Style.library)
  return ⟨source, rawPaths pages⟩

end Manuscript

end Folio
