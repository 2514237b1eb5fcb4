import Folio.Text.Blank
import Folio.Text.Cut
import Folio.Text.Word

/-!
# Directives in hand-written pages

A comment line of a hand-written page may ask for the documentation of a binding, or open or close
an example; any other line that is no comment may hold references. Blanks around a line do not
matter.
-/

namespace Folio.Directive

open Text

/-- What follows the slashes of a comment and the blanks after them. -/
def comment? (line : String) : Option (List Char) :=
  (after? ['/', '/'] (trimmed line.toList)).map (·.dropWhile isBlank)

/-- Whether a line is a comment. -/
def isComment (line : String) : Bool := (comment? line).isSome

/-- Whether a line opens an example. -/
def opensExample (line : String) : Bool := comment? line = some "@typst-example".toList

/-- Whether a line closes an example. -/
def closesExample (line : String) : Bool := comment? line = some "@typst-example-end".toList

/-- Whether a character may begin the name of a binding. -/
def isNameStart (c : Char) : Bool :=
  ('A' ≤ c && c ≤ 'Z') || ('a' ≤ c && c ≤ 'z') || c = '_'

/-- The binding whose documentation a line asks for. -/
def documented? (line : String) : Option String :=
  match (comment? line).bind (after? "@typst-docs".toList) with
  | some (b :: rest) =>
    match rest.dropWhile isBlank with
    | c :: cs =>
      if isBlank b && isNameStart c && cs.all fun d => isWord d || d = '.' then
        some (String.ofList (c :: cs))
      else none
    | [] => none
  | _ => none

/-- A line of an example without the slashes of the comment and one blank after them. -/
def uncommented (line : String) : String :=
  match after? ['/', '/'] (line.toList.dropWhile isBlank) with
  | none => line
  | some (' ' :: rest) => String.ofList rest
  | some rest => String.ofList rest

/-- What opens a reference. -/
def referenceMark : List Char := "@typst-ref(".toList

/-- The target of a reference at the front. -/
def referenceAt? (cs : List Char) : Option (List Char) :=
  match after? referenceMark cs with
  | none => none
  | some rest =>
    let (target, tail) := rest.span fun c => c ≠ '(' && c ≠ ')' && !isBlank c
    if !target.isEmpty && tail.head? = some ')' then some target else none

/-- A part of a line. -/
inductive Part
  | char (c : Char)
  | reference (target : List Char)
deriving DecidableEq

/-- The parts of a line, after skipping so many characters of it. -/
def partsAfter : Nat → List Char → List Part
  | _, [] => []
  | skip + 1, _ :: rest => partsAfter skip rest
  | 0, c :: rest =>
    match referenceAt? (c :: rest) with
    | some target => .reference target :: partsAfter (referenceMark.length + target.length) rest
    | none => .char c :: partsAfter 0 rest

/-- The parts of a line. -/
def parts (line : String) : List Part := partsAfter 0 line.toList

/-- A stretch of a hand-written page. -/
inductive Segment
  /-- The lines between the directives of an example, and whether it is closed. -/
  | sample (lines : List String) (closed : Bool)
  | docs (name : String)
  | comment (line : String)
  | plain (line : String)
deriving DecidableEq

/-- The segment of a line outside of examples that does not open one. -/
def Segment.ofLine (line : String) : Segment :=
  match documented? line with
  | some name => docs name
  | none => if isComment line then comment line else plain line

/-- The segments of lines, the first of which may stand inside an example whose lines so far are
given last to first. -/
def Segment.after (sampled : Option (List String)) : List String → List Segment
  | [] =>
    match sampled with
    | some lines => [sample lines.reverse false]
    | none => []
  | line :: rest =>
    match sampled with
    | some lines =>
      if closesExample line then sample lines.reverse true :: Segment.after none rest
      else Segment.after (some (uncommented line :: lines)) rest
    | none =>
      if opensExample line then Segment.after (some []) rest
      else Segment.ofLine line :: Segment.after none rest

/-- The segments of a page. -/
def Segment.ofLines (lines : List String) : List Segment := Segment.after none lines

end Folio.Directive
