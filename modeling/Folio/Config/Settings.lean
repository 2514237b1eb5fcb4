import Folio.Config.Fault
import Folio.Location
import Folio.Number.Integer
import Folio.Text.Blank
import Folio.Text.Lower

/-!
# Settings of the compiler

How a book is compiled: by which backend and with which options, and the name of the file that
comes out of it.
-/

namespace Folio

open Text

/-- How the source of a book is turned into a PDF. -/
inductive Backend
  | bundled
  | system
  | none
deriving DecidableEq

/-- The name of a backend. -/
def Backend.name : Backend → String
  | bundled => "bundled"
  | system => "system"
  | none => "none"

/-- The backend that a text names; blanks around it and case do not matter. -/
def Backend.ofName (name : String) : Except ConfigFault Backend :=
  let key := lower (trim name)
  if key = "bundled" then .ok .bundled
  else if key = "system" then .ok .system
  else if key = "none" then .ok .none
  else .error (.unknownBackend name)

/-- The options of a compilation. -/
structure CompileSettings where
  backend : Backend
  /-- The executable of the system backend, if it is given. -/
  executable : Option String
  /-- The version in the name of the artifact. -/
  version : String
  /-- Whether the PDF is optimised. -/
  optimize : Bool
  systemFonts : Bool
  fontDirectories : List String
deriving DecidableEq

namespace CompileSettings

/-- The font directories that a value names: one text, the items of a list or the keys of a
mapping. -/
def fontsOf : Value → Except ConfigFault (List String)
  | .scalar (.text s) => .ok (if s = "" then [] else [s])
  | .list vs => vs.mapM Value.plainText
  | .map es => es.mapM fun (k, _) => k.plainText
  | v => if v.isFilled then .error .fontsNotList else .ok []

/-- The settings that the entries of a mapping give. -/
def ofEntries (entries : List (Key × Value)) (version : String) :
    Except ConfigFault CompileSettings := do
  let option (key : String) : Option Value := Value.lookup? key entries
  let backend ← match option "backend" with
    | some v => v.plainText.bind Backend.ofName
    | .none => .ok .bundled
  let executable ← match option "typst" with
    | some v => if v.isFilled then v.plainText.map some else .ok .none
    | .none => .ok .none
  let fonts ← fontsOf ((option "font_paths").getD .null)
  .ok
    { backend, executable, version
      optimize := ((option "optimize_output").map Value.isFilled).getD true
      systemFonts := ((option "use_system_fonts").map Value.isFilled).getD true
      fontDirectories := fonts }

/-- The settings that a section of a configuration gives; an empty section counts as none. -/
def ofValue (section_ : Value) (version : String) : Except ConfigFault CompileSettings :=
  match section_ with
  | .map entries => ofEntries entries version
  | v => if v.isFilled then .error .settingsNotMapping else ofEntries [] version

/-- The arguments of the compiler for a source file. -/
def command (s : CompileSettings) (executable : String) (source : Location) : List String :=
  [executable, "compile"] ++ s.fontDirectories.flatMap (fun d => ["--font-path", d]) ++
    (if s.systemFonts then [] else ["--ignore-system-fonts"]) ++ [source.name]

end CompileSettings

/-! ### Names of artifacts -/

/-- Whether a character may stand in the labels behind a version. -/
def isVersionLabelChar (c : Char) : Bool := c.isAlphanum || c = '.' || c = '-'

/-- What follows an optional label behind a version; a label has at least one character. -/
def afterVersionLabel? (mark : Char) : List Char → Option (List Char)
  | [] => some []
  | c :: rest =>
    if c = mark then
      let (label, rest) := rest.span isVersionLabelChar
      if label.isEmpty then none else some rest
    else some (c :: rest)

/-- The digits of the first three numbers of a version. -/
def versionDigits? (version : String) : Option (List Char × List Char × List Char) := do
  let cs := match trimmed version.toList with
    | 'v' :: rest => rest
    | cs => cs
  let (major, cs) := cs.span isDecimal
  let cs ← after? ['.'] cs
  let (minor, cs) := cs.span isDecimal
  let cs ← after? ['.'] cs
  let (patch, cs) := cs.span isDecimal
  let cs ← afterVersionLabel? '-' cs
  let cs ← afterVersionLabel? '+' cs
  if major.isEmpty || minor.isEmpty || patch.isEmpty || !cs.isEmpty then none
  else some (major, minor, patch)

/-- What a version adds to the name of a book: its numbers, if it has three. There is no answer if
one of them has too many digits. -/
def versionSuffix? (version : String) : Option String :=
  match versionDigits? version with
  | none => some ""
  | some (major, minor, patch) => do
    let major ← Number.ofDigits? major
    let minor ← Number.ofDigits? minor
    let patch ← Number.ofDigits? patch
    some ("-" ++ toString major ++ "." ++ toString minor ++ "." ++ toString patch)

/-- The name of the files of a book, without their suffix: the name of the site, and the numbers of
its version. -/
def artifactStem? (sitename version : String) : Option String :=
  (versionSuffix? version).map fun suffix =>
    String.ofList ((sitename ++ suffix).toList.filter (· ≠ ' '))

end Folio
