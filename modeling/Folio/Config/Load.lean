import Folio.Config.Pages
import Folio.Config.Settings
import Folio.Yaml.Document

/-!
# Build configurations

The configuration of a book comes from a mapping. Relative directories are seen from the directory
of the configuration file. Of several faults the first in this order is reported: the mapping, the
name of the site, the page list as a whole, its entries, and the settings of the compiler; a number
too long to be shown is met where it is to be shown.
-/

namespace Folio

open Text

/-- The configuration of a book. -/
structure BuildConfig where
  sitename : String
  pages : List PageEntry
  sourceDir : Location
  buildDir : Location
  authors : String
  version : String
  compile : CompileSettings
  /-- Where the sources are copied to for debugging, if they are. -/
  debugDir : Option Location
  /-- How links to the sources of documentation are made, if they are. -/
  sourceUrl : Option String
  strictLinks : Bool
  /-- What other relative directories are seen from. -/
  projectRoot : Location

namespace BuildConfig

/-- The trimmed plain form of an option, unless it is missing, null or blank. -/
def textOption (v : Option Value) : Except ConfigFault (Option String) :=
  match v with
  | none => .ok none
  | some .null => .ok none
  | some v => v.plainText.map fun s => if trim s = "" then none else some (trim s)

/-- The authors of a book that are given as a list, joined by commas. -/
def listedAuthors : Option Value → Except ConfigFault (Option String)
  | some (.list vs) => (vs.mapM Value.plainText).map fun names => some (joinWith ", " names)
  | _ => .ok none

/-- The authors of a book that are given as one text. -/
def plainAuthors : Option Value → Except ConfigFault String
  | some v => if v.isFilled then v.plainText else .ok ""
  | none => .ok ""

/-- A directory below the one of the configuration file. -/
def directory (root : Location) (fallback : String) (v : Option Value) :
    Except ConfigFault Location :=
  ((v.map Value.plainText).getD (.ok fallback)).map fun s => root.below (.ofString s)

/-- The first entry of a page list and the others; a list without entries counts as none. -/
def pageList : Option Value → Except ConfigFault (List Value)
  | some (.list (first :: rest)) => .ok (first :: rest)
  | _ => .error .noPages

/-- The configuration that the entries of a mapping give; `environmentVersion` is the version where
the mapping has none. -/
def ofEntries (root : Location) (environmentVersion : Option String)
    (entries : List (Key × Value)) : Except ConfigFault BuildConfig := do
  let option (key : String) : Option Value := Value.lookup? key entries
  let sitename ← match ← textOption (option "sitename") with
    | some name => .ok name
    | none => .error .missingSitename
  let list ← pageList (option "pages")
  let version := (← textOption (option "version")).getD (environmentVersion.getD "")
  let listed ← listedAuthors (option "authors")
  let pages ← flattenPages 1 list
  let sourceDir ← directory root "src" (option "source_dir")
  let buildDir ← directory root "build" (option "build_dir")
  let authors ← match listed with
    | some authors => .ok authors
    | none => plainAuthors (option "authors")
  let compile ← CompileSettings.ofValue ((option "compile").getD .null) version
  let debugDir := (← textOption (option "debug_dir")).map fun d => root.below (.ofString d)
  let sourceUrl ← textOption (option "source_url")
  .ok
    { sitename, pages, version, compile, sourceDir, buildDir, authors, debugDir, sourceUrl
      strictLinks := ((option "strict_links").map Value.isFilled).getD false
      projectRoot := root }

/-- The configuration that a value gives; an empty value counts as a mapping without entries. -/
def ofValue (root : Location) (environmentVersion : Option String) (v : Value) :
    Except ConfigFault BuildConfig :=
  match v with
  | .map entries => ofEntries root environmentVersion entries
  | v => if v.isFilled then .error .notMapping else ofEntries root environmentVersion []

/-- The configuration in the text of a file, with relative directories seen from `root`. -/
def ofText (root : Location) (environmentVersion : Option String) (text : String) :
    Except ConfigFault BuildConfig :=
  match Yaml.read text with
  | .error t => .error (.unreadable t)
  | .ok v => ofValue root environmentVersion v

end BuildConfig

end Folio
