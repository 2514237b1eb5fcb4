import Folio.Command
import Folio.Language.Alias
import Folio.Markdown.Tree
import Folio.Template
import Std.Time.Zoned

/-!
# The program

The files that a command may read are named on the standard input, one path a line, and Markdown
pages hold their syntax trees. The command is carried out on a disk with these files; then the files
that have changed are written, and what the command prints is printed. Notices and faults go to the
standard error. No external program is run: books are built by the backend that makes nothing.
-/

namespace Folio

/-- The lines of a stream. -/
partial def readLines (stream : IO.FS.Stream) : IO (List String) := do
  let line ← stream.getLine
  if line.isEmpty then return []
  return Text.trim line :: (← readLines stream)

/-- A disk with some files of the file system. -/
def readDisk (place : Location) (disk : Disk) : List String → IO Disk
  | [] => return disk
  | path :: rest => do
    let l := place.below (.ofString path)
    let content := Content.ofBytes (← IO.FS.readBinFile l.toString)
    readDisk place ((disk.withFile l content).toOption.getD disk) rest

/-- Writes files. -/
def writeFiles : List (Location × Content) → IO Unit
  | [] => return ()
  | (l, content) :: rest => do
    IO.FS.createDirAll l.parent.toString
    IO.FS.writeBinFile l.toString content.toBytes
    writeFiles rest

/-- The values of variables of the environment. -/
def readVariables : List String → IO (Table String String)
  | [] => return []
  | name :: rest => do
    let table ← readVariables rest
    match ← IO.getEnv name with
    | some value => return (name, value) :: table
    | none => return table

/-- The current day. -/
def today : IO Date := do
  let day ← Std.Time.PlainDate.now
  return ⟨day.year.toInt.toNat, day.month.val.toNat, day.day.val.toNat⟩

/-- A machine without external programs. -/
def bareMachine : Machine where
  executable _ := none
  outcome _ _ := ⟨id, "", .done⟩
  bundled := none

/-- Where commands are given on this machine. -/
def console : IO Console := do
  let place := Location.ofString (toString (← IO.currentDir))
  let kept := Location.ofString (toString (← IO.FS.createTempDir))
  let debug := Location.ofString (toString (← IO.FS.createTempDir))
  let table ← readVariables Console.variableNames
  let today ← today
  return { place, environment := fun name => table.get? name, lexers := Language.lexers
           engine := TemplatePart.engine, lookup := fun _ => none
           evaluator := fun _ => .returned "" .null, markdown := Markdown.readTree
           machine := bareMachine, today
           places := ⟨⟨"scratch:", []⟩, kept, debug⟩ }

end Folio

open Folio

/-- Carries out the command that the arguments give. -/
def main (arguments : List String) : IO UInt32 := do
  let c ← console
  let paths ← readLines (← IO.getStdin)
  let disk ← readDisk c.place [] (paths.filter (· ≠ ""))
  let report (desk : Desk) : IO Unit := do
    for n in desk.notices do IO.eprintln n.line
    writeFiles (desk.disk.changes disk)
  match c.run arguments (Desk.ofDisk disk) with
  | .ok printed desk =>
    report desk
    IO.print printed
    return 0
  | .error fault desk =>
    report desk
    IO.eprintln (fault.message?.getD "error")
    return 1
