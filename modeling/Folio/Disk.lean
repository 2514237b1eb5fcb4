import Folio.Location
import Folio.Table
import Folio.Text.Line
import Folio.Text.Quoted

/-!
# Disks

A disk holds directories and files, each at a location without double dots; the roots themselves
are always directories. A location is followed name by name, so that every name on the way must be
a directory, and a double dot leads to the directory above. Names and locations have a greatest
length. Directories are copied file by file into what is there already, and what cannot be copied
is left out.
-/

namespace Folio

open Text

/-- What a file holds. -/
inductive Content
  | text (text : String)
  /-- Bytes that are no text. -/
  | bytes (bytes : ByteArray)
  /-- So many bytes that must not be read. -/
  | locked (size : Nat)

instance : DecidableEq Content
  | .text a, .text b => decidable_of_iff (a = b) (by simp)
  | .bytes a, .bytes b =>
    decidable_of_iff (a.data = b.data) (by cases a; cases b; simp)
  | .locked m, .locked n => decidable_of_iff (m = n) (by simp)
  | .text _, .bytes _ | .text _, .locked _ | .bytes _, .text _ | .bytes _, .locked _
  | .locked _, .text _ | .locked _, .bytes _ => isFalse nofun

/-- What bytes hold. -/
def Content.ofBytes (b : ByteArray) : Content :=
  match String.fromUTF8? b with
  | some s => text s
  | none => bytes b

/-- The bytes of a file, as far as they can be read. -/
def Content.toBytes : Content → ByteArray
  | text s => s.toUTF8
  | bytes b => b
  | locked _ => .empty

/-- Whether a file must not be read. -/
def Content.isLocked : Content → Bool
  | locked _ => true
  | _ => false

/-- The number of bytes of a file. -/
def Content.size : Content → Nat
  | text s => s.utf8ByteSize
  | bytes b => b.size
  | locked n => n

/-- A file with its start written over by a text. -/
def Content.overwritten (content : Content) (s : String) : Content :=
  .ofBytes (s.toUTF8 ++ content.toBytes.extract s.utf8ByteSize content.size)

/-- What there is at a location. -/
inductive Entry
  | directory
  | file (content : Content)
deriving DecidableEq

/-- Whether an entry can be read. -/
def Entry.isReadable : Entry → Bool
  | directory => true
  | file content => !content.isLocked

/-- Why a location cannot be used. -/
inductive DiskTrouble
  | missing
  /-- A name on the way is a file. -/
  | notDirectory
  | isDirectory
  /-- A file is where a directory should be made. -/
  | occupied
  /-- The bytes of a file are no text. -/
  | notText
  /-- A file must not be read. -/
  | denied
  /-- A name, or the location as a whole, is longer than the disk allows. -/
  | tooLong
  /-- A name with a character that no name may hold. -/
  | unnameable
  /-- Some of the files of a directory could not be copied. -/
  | incomplete
deriving DecidableEq

/-- The wording of a trouble. -/
def DiskTrouble.message : DiskTrouble → String
  | missing => "[Errno 2] No such file or directory"
  | notDirectory => "[Errno 20] Not a directory"
  | isDirectory => "[Errno 21] Is a directory"
  | occupied => "[Errno 17] File exists"
  | notText => "not a text"
  | denied => "[Errno 13] Permission denied"
  | tooLong => "[Errno 36] File name too long"
  | unnameable => "not a name"
  | incomplete => "not everything was copied"

/-- A location that cannot be used, and why. -/
structure DiskFault where
  trouble : DiskTrouble
  place : Location

/-- The wording of a fault. -/
def DiskFault.message (f : DiskFault) : String :=
  f.trouble.message ++ ": " ++ quoted f.place.toString

/-- What there is, by location. -/
abbrev Disk : Type := Table Location Entry

namespace Disk

/-- What there is at a location without double dots. -/
def at? (d : Disk) (place : Location) : Option Entry :=
  if place.names = [] then some .directory else d.get? place

/-- Putting something at a place changes nothing elsewhere. -/
theorem at?_put (d : Disk) (place other : Location) (entry : Entry) (h : other.names ≠ []) :
    Disk.at? (d.put place entry) other = if place = other then some entry else d.at? other := by
  simp only [at?, if_neg h, Table.get?_put]

/-- The most bytes that a name may have. -/
def longestName : Nat := 255

/-- The most bytes that a location may have. -/
def longestLocation : Nat := 4095

/-- Whether a name holds a character that no name may hold. -/
def isUnnameable (name : String) : Bool := name.toList.contains '\x00'

/-- What makes a location unusable whatever there is on the disk. -/
def check (l : Location) : Except DiskFault Unit :=
  if l.names.any isUnnameable then .error ⟨.unnameable, l⟩
  else if longestLocation < l.toString.utf8ByteSize then .error ⟨.tooLong, l⟩
  else .ok ()

/-- Where names lead to from a place on; `whole` is the location that is followed. -/
def follow (d : Disk) (whole place : Location) : List String → Except DiskFault Location
  | [] => .ok place
  | name :: rest =>
    match d.at? place with
    | some .directory =>
      if longestName < name.utf8ByteSize then .error ⟨.tooLong, whole⟩
      else d.follow whole (place.enter name) rest
    | some (.file _) => .error ⟨.notDirectory, whole⟩
    | none => .error ⟨.missing, whole⟩

/-- Where a location leads to. -/
def find (d : Disk) (l : Location) : Except DiskFault Location := do
  check l
  d.follow l ⟨l.root, []⟩ l.names

/-- What a location leads to, if it leads anywhere. Only a location that is too long cannot be
looked at. -/
def look (d : Disk) (l : Location) : Except DiskFault (Option Entry) :=
  match d.find l with
  | .ok place => .ok (d.at? place)
  | .error f => if f.trouble = .tooLong then .error f else .ok none

/-- Whether a location leads to a directory. -/
def isDirectory (d : Disk) (l : Location) : Except DiskFault Bool :=
  (d.look l).map fun entry => entry = some .directory

/-- Whether a location leads to a file. -/
def isFile (d : Disk) (l : Location) : Except DiskFault Bool :=
  (d.look l).map fun
    | some (.file _) => true
    | _ => false

/-- What a file holds. -/
def read (d : Disk) (l : Location) : Except DiskFault Content :=
  match d.find l with
  | .error f => .error f
  | .ok place =>
    match d.at? place with
    | some (.file content) => if content.isLocked then .error ⟨.denied, l⟩ else .ok content
    | some .directory => .error ⟨.isDirectory, l⟩
    | none => .error ⟨.missing, l⟩

/-- The size of a directory by itself: one block. -/
def directorySize : Nat := 4096

/-- The size of what a location leads to. -/
def size (d : Disk) (l : Location) : Except DiskFault Nat :=
  match d.find l with
  | .error f => .error f
  | .ok place =>
    match d.at? place with
    | some (.file content) => .ok content.size
    | some .directory => .ok directorySize
    | none => .error ⟨.missing, l⟩

/-- The text of a file, with every line end as a line feed. -/
def readText (d : Disk) (l : Location) : Except DiskFault String :=
  match d.read l with
  | .ok (.text s) => .ok (String.ofList (plainLineEnds s.toList))
  | .ok _ => .error ⟨.notText, l⟩
  | .error f => .error f

/-- Writes a file in a directory that there is. -/
def write (d : Disk) (l : Location) (content : Content) : Except DiskFault Disk :=
  match d.find l with
  | .error f => .error f
  | .ok place =>
    match d.at? place with
    | some .directory => .error ⟨.isDirectory, l⟩
    | _ => .ok (d.put place (.file content))

/-- Writes a text over the start of a file. -/
def overwrite (d : Disk) (l : Location) (s : String) : Except DiskFault Disk := do
  let content ← d.read l
  d.write l (content.overwritten s)

/-- Makes the directories that names lead through from a place on. -/
def makeAlong (d : Disk) (whole place : Location) : List String → Except DiskFault Disk
  | [] => .ok d
  | name :: rest =>
    if longestName < name.utf8ByteSize then .error ⟨.tooLong, whole⟩
    else
      let next := place.enter name
      match d.at? next with
      | some .directory => d.makeAlong whole next rest
      | some (.file _) => .error ⟨if rest = [] then .occupied else .notDirectory, whole⟩
      | none => makeAlong (d.put next .directory) whole next rest

/-- Makes a directory and those on the way to it, unless they are there. -/
def makeDirectory (d : Disk) (l : Location) : Except DiskFault Disk := do
  check l
  d.makeAlong l ⟨l.root, []⟩ l.names

/-- A disk with one more file, in a directory that is made if need be. -/
def withFile (d : Disk) (l : Location) (content : Content) : Except DiskFault Disk :=
  match d.makeDirectory l.parent with
  | .error f => .error f
  | .ok made => made.write l content

/-- The entries below a place, by the names that lead to them. -/
def below (d : Disk) (place : Location) : List (List String × Entry) :=
  d.filterMap fun (l, entry) =>
    match place.from? l with
    | some (name :: names) => some (name :: names, entry)
    | _ => none

/-- The files below a place, by the names that lead to them. -/
def filesBelow (d : Disk) (place : Location) : List (List String × Content) :=
  (d.below place).filterMap fun (names, entry) =>
    match entry with
    | .file content => some (names, content)
    | .directory => none

/-- Puts a file at a place; over a directory it goes into it, under its own name. -/
def putFile (d : Disk) (place : Location) (content : Content) : Except DiskFault Disk :=
  if d.at? place ≠ some .directory then .ok (d.put place (.file content))
  else
    let inside := place.child place.name
    if d.at? inside = some .directory then .error ⟨.isDirectory, inside⟩
    else .ok (d.put inside (.file content))

/-- Puts a copy of an entry that can be read at a place in a directory. -/
def putCopy (d : Disk) (place : Location) (entry : Entry) : Except DiskFault Disk :=
  if !entry.isReadable then .error ⟨.denied, place⟩
  else if d.at? place.parent ≠ some .directory then .error ⟨.notDirectory, place⟩
  else match entry, d.at? place with
    | .file content, _ => d.putFile place content
    | .directory, some .directory => .ok d
    | .directory, some (.file _) => .error ⟨.occupied, place⟩
    | .directory, none => .ok (d.put place .directory)

/-- Puts copies of entries below a place, as far as they can be put there; also whether all of them
could. -/
def putCopies (d : Disk) (place : Location) : List (List String × Entry) → Disk × Bool
  | [] => (d, true)
  | (names, entry) :: rest =>
    match d.putCopy (place.below ⟨"", names⟩) entry with
    | .ok d => d.putCopies place rest
    | .error _ => ((d.putCopies place rest).1, false)

/-- Copies what is below a directory into another directory, which is made if need be; also whether
everything could be copied. -/
def copyTree (d : Disk) (source target : Location) : Except DiskFault (Disk × Bool) := do
  let place ← d.find source
  match d.at? place with
  | none => .error ⟨.missing, source⟩
  | some (.file _) => .error ⟨.notDirectory, source⟩
  | some .directory =>
    let made ← d.makeDirectory target
    let there ← made.find target
    .ok (made.putCopies there (d.below place))

/-- Copies a file into a directory that there is. -/
def copyFile (d : Disk) (source directory : Location) : Except DiskFault Disk := do
  let content ← d.read source
  let there ← d.find (directory.child source.name)
  d.putFile there content

/-- Removes a place and everything below it. -/
def remove (d : Disk) (place : Location) : Disk := d.filter fun (l, _) => (place.from? l).isNone

/-- Removing a place removes what is at it and below it and nothing else. -/
theorem at?_remove (d : Disk) (place other : Location) (h : other.names ≠ []) :
    (d.remove place).at? other =
      if (place.from? other).isNone then d.at? other else none := by
  simp only [at?, if_neg h, remove]
  exact Table.get?_filter d (fun l => (place.from? l).isNone) other

/-- The files that hold something else than on an earlier disk. -/
def changes (d earlier : Disk) : List (Location × Content) :=
  d.filterMap fun (l, entry) =>
    match entry with
    | .directory => none
    | .file content => if earlier.get? l = some entry then none else some (l, content)

end Disk

end Folio
