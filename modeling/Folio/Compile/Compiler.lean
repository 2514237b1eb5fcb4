import Folio.Compile.Machine
import Folio.Config.Settings

/-!
# Compilers

A compiler makes a PDF beside a source file and answers where it is, if it makes one. There is one
for each backend: the bundled compiler, the one of the system, and one that makes nothing.
-/

namespace Folio

/-- A compiler. -/
structure Compiler where
  name : String
  compile : CompileSettings → Location → Job ToolFault (Option Location)

namespace Compiler

/-- The suffix of a compiled book. -/
def pdfSuffix : String := ".pdf"

/-- The file that the output of the compiler is kept in, beside the source. -/
def outputLog : String := "typst-pages.stdout"

/-- The file that the errors of the compiler are kept in, beside the source. -/
def errorLog : String := "typst-pages.stderr"

/-- The compiler that comes with the program. -/
def bundled (m : Machine) : Compiler where
  name := Backend.bundled.name
  compile settings source := do
    match m.bundled with
    | none => throw .compilerNotInstalled
    | some bundled =>
      Job.notice (.compiling Backend.bundled.name)
      let pdf := source.withSuffix pdfSuffix
      Machine.call bundled
        { source, output := pdf, root := source.parent
          fontDirectories := settings.fontDirectories, systemFonts := settings.systemFonts }
      Job.notice .compiled
      return some pdf

/-- Where the output of the compiler goes: to empty files, unless it is to be shown. -/
def openLogs (verbose : Bool) (directory : Location) : Job ToolFault ProgramOutput := do
  if verbose then return .shown
  let output := directory.child outputLog
  let errors := directory.child errorLog
  Job.change .disk fun disk => disk.write output (.text "")
  Job.change .disk fun disk => disk.write errors (.text "")
  return .files output errors

/-- The compiler of the system. It runs in the directory of the source. -/
def system (m : Machine) (verbose : Bool) : Compiler where
  name := Backend.system.name
  compile settings source := do
    match m.program? settings.executable "typst" with
    | none => throw .compilerNotFound
    | some executable =>
      Job.notice (.compiling Backend.system.name)
      let output ← openLogs verbose source.parent
      m.run ⟨settings.command executable source, some source.parent, output⟩
      Job.notice .compiled
      return some (source.withSuffix pdfSuffix)

/-- The compiler that makes nothing. -/
def none : Compiler where
  name := Backend.none.name
  compile _ source := do
    Job.notice (.compilationSkipped source.name)
    return .none

/-- The compiler of a backend. -/
def ofBackend (m : Machine) (verbose : Bool) : Backend → Compiler
  | .bundled => bundled m
  | .system => system m verbose
  | .none => none

end Compiler

end Folio
