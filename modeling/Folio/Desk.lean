import Folio.Disk
import Folio.Notice

/-!
# At work

What a build works on, and the record of what it did: the disk, the notices given, the external
programs run, the documentation asked for and the examples evaluated. A job that fails leaves the
desk as it was when it failed.
-/

namespace Folio

/-- Where the output of a program goes. -/
inductive ProgramOutput
  /-- To the terminal. -/
  | shown
  | discarded
  /-- To two files, one for the output and one for the errors. -/
  | files (output errors : Location)
deriving DecidableEq

/-- A run of an external program. -/
structure Run where
  command : List String
  /-- The directory it runs in, unless it is the one of this program. -/
  directory : Option Location
  output : ProgramOutput
deriving DecidableEq

/-- A call of the bundled compiler. -/
structure BundledCall where
  source : Location
  output : Location
  root : Location
  fontDirectories : List String
  systemFonts : Bool
deriving DecidableEq

/-- The disk, and what has been done so far. -/
structure Desk where
  disk : Disk
  notices : List Notice
  runs : List Run
  calls : List BundledCall
  /-- The bindings whose documentation was asked for. -/
  lookups : List String
  /-- The examples evaluated. -/
  evaluated : List String

/-- A desk with a disk on which nothing has been done yet. -/
def Desk.ofDisk (disk : Disk) : Desk := ⟨disk, [], [], [], [], []⟩

/-- Work at a desk that may fail. -/
abbrev Job (ε α : Type) : Type := EStateM ε Desk α

namespace Job

/-- Gives notices. -/
def notices (ns : List Notice) : Job ε Unit :=
  modify fun desk => { desk with notices := desk.notices ++ ns }

/-- Gives a notice. -/
def notice (n : Notice) : Job ε Unit := notices [n]

/-- Reads from the disk. -/
def read (fault : DiskFault → ε) (f : Disk → Except DiskFault α) : Job ε α := fun desk =>
  match f desk.disk with
  | .ok a => .ok a desk
  | .error e => .error (fault e) desk

/-- Changes the disk. -/
def change (fault : DiskFault → ε) (f : Disk → Except DiskFault Disk) : Job ε Unit := fun desk =>
  match f desk.disk with
  | .ok disk => .ok () { desk with disk }
  | .error e => .error (fault e) desk

/-- Copies what is below a directory into another one. What cannot be copied is left out, which is a
fault in the end. -/
def copyTree (fault : DiskFault → ε) (source target : Location) : Job ε Unit := fun desk =>
  match desk.disk.copyTree source target with
  | .error e => .error (fault e) desk
  | .ok (disk, true) => .ok () { desk with disk }
  | .ok (disk, false) => .error (fault ⟨.incomplete, target⟩) { desk with disk }

end Job

end Folio
