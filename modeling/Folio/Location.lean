import Folio.Path

/-!
# Locations

Where a file or directory is: the names on the way to it, below the working directory or below a
root. Empty names and single dots say nothing and are dropped, while double dots are kept. The name
of a file ends in a suffix: what follows its last dot, unless that dot is the first or the last
character of the name.
-/

namespace Folio

open Text

/-- Where a file or directory is: its root, empty for the working directory, and the names below
it. -/
structure Location where
  root : String
  names : List String
deriving DecidableEq

namespace Location

/-- The location that a text names. -/
def ofString (s : String) : Location where
  root := String.ofList (Path.root s.toList)
  names := ((Path.segments s.toList).filter fun n => n ≠ [] ∧ n ≠ ['.']).map String.ofList

/-- The text of a location. -/
def toString (l : Location) : String :=
  let path := l.root ++ joinWith "/" l.names
  if path = "" then "." else path

/-- A location seen from another. -/
def below (base l : Location) : Location :=
  if l.root = "" then { base with names := base.names ++ l.names } else l

/-- The location with a name more. -/
def child (l : Location) (name : String) : Location := { l with names := l.names ++ [name] }

/-- The last name; empty for a root or the working directory. -/
def name (l : Location) : String := l.names.getLast?.getD ""

/-- The location without its last name. -/
def parent (l : Location) : Location := { l with names := l.names.dropLast }

/-- Where a name leads to from a directory: a double dot leads to the directory above. -/
def enter (l : Location) (name : String) : Location :=
  if name = ".." then l.parent else l.child name

/-- The names that lead from one location to another below it. -/
def from? (base l : Location) : Option (List String) :=
  if l.root = base.root ∧ base.names.isPrefixOf l.names then
    some (l.names.drop base.names.length)
  else none

/-- A name without its suffix. -/
def stem (name : String) : String :=
  let cs := name.toList
  let last := cs.reverse.takeWhile (· ≠ '.')
  let rest := (cs.reverse.dropWhile (· ≠ '.')).drop 1
  if last = [] ∨ rest = [] then name else String.ofList rest.reverse

/-- The location with another suffix, dot included, in place of its own. -/
def withSuffix (l : Location) (suffix : String) : Location := l.parent.child (stem l.name ++ suffix)

/-- A location is below another exactly if it has the names of that one in front of its own. -/
theorem from?_eq_some_iff {base l : Location} {names : List String} :
    from? base l = some names ↔ l = { base with names := base.names ++ names } := by
  obtain ⟨root, found⟩ := l
  simp only [from?, Option.ite_none_right_eq_some, Option.some.injEq, mk.injEq]
  constructor
  · rintro ⟨⟨rfl, hp⟩, rfl⟩
    obtain ⟨rest, rfl⟩ := List.isPrefixOf_iff_prefix.mp hp
    simp
  · rintro ⟨rfl, rfl⟩
    exact ⟨⟨rfl, List.isPrefixOf_iff_prefix.mpr (List.prefix_append ..)⟩, by simp⟩

theorem from?_below (base : Location) (names : List String) :
    from? base (base.below ⟨"", names⟩) = some names :=
  from?_eq_some_iff.mpr rfl

end Location

end Folio
