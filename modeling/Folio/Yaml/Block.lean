import Folio.Yaml.Cursor

/-!
# Block scalars

A block scalar is the lines below its mark, as far as they are drawn in. Its lines stay, or they are
folded: a line end between two lines that are not drawn in further is a space then, and further line
ends stay. Behind the mark stands what happens to the line ends at the end, and how far the lines
are drawn in; without that, the first line shows it.
-/

namespace Folio.Yaml

/-- What happens to the line ends behind the last line. -/
inductive Chomping
  | strip
  /-- One of them stays. -/
  | clip
  | keep
deriving DecidableEq

/-- What stands behind the mark of a block scalar. -/
structure BlockHeader where
  chomping : Chomping
  /-- How far the lines are drawn in further than the block around them, if that is said. -/
  increment : Option Nat

/-- What a character says about the line ends. -/
def Chomping.ofChar? : Char → Option Chomping
  | '-' => some strip
  | '+' => some keep
  | _ => none

/-- What the first character says, if it says something, and what follows it. -/
def indicator (meaning : Char → Option α) : List Char → Option α × List Char
  | [] => (none, [])
  | c :: rest =>
    match meaning c with
    | some a => (some a, rest)
    | none => (none, c :: rest)

/-- The header behind a mark, and the lines below it. -/
def blockHeader (cs : List Char) : Except Trouble (BlockHeader × List Char) :=
  let (first, rest) := indicator Chomping.ofChar? cs
  let (increment, rest) := indicator (fun c => if c.isDigit then some (c.toNat - 48) else none) rest
  let (chomping, rest) :=
    if first.isSome then (first, rest) else indicator Chomping.ofChar? rest
  if increment = some 0 then .error .malformed
  else if !atSpace rest then .error .malformed
  else match lineAfter? rest with
    | some tail => .ok (⟨chomping.getD .clip, increment⟩, tail)
    | none => .error .malformed

/-- The line ends of blank lines at the front, of which each has spaces up to a column, and what
follows the last of these spaces. -/
def blankLines (indent : Nat) : Nat → List Char → List Char × List Char
  | _, [] => ([], [])
  | column, c :: rest =>
    if c = ' ' ∧ column < indent then blankLines indent (column + 1) rest
    else if isBreak c then
      let (ends, tail) := blankLines indent (if c = '\n' then 0 else column + 1) rest
      (keptBreak c :: ends, tail)
    else ([], c :: rest)

/-- The greatest column up to which spaces reach, from a column on. -/
def reach : Nat → List Char → Nat
  | _, [] => 0
  | column, c :: rest =>
    if c = ' ' then max (column + 1) (reach (column + 1) rest)
    else reach (if c = '\n' then 0 else column + 1) rest

/-- The lines below a header, before they are read. -/
structure BlockStart where
  /-- The column that they start in. -/
  indent : Nat
  /-- The line ends in front of the first of them. -/
  ends : List Char
  place : Cursor

/-- Where the lines of a block scalar start that say themselves how far they are drawn in; no
blank line may be shorter than the first one and be followed by a longer one. -/
def BlockStart.seen (least : Nat) (k : Cursor) : Except Trouble BlockStart :=
  let (blank, tail) := k.rest.span fun c => c = ' ' || isBreak c
  let ends := blank.filter isBreak
  let firstEnd := k.column + (blank.takeWhile (· = ' ')).length
  let most := reach k.column blank
  if !ends.isEmpty ∧ 0 < firstEnd ∧ firstEnd < most then .error .malformed
  else .ok ⟨max least most, ends.map keptBreak, k.upTo tail⟩

/-- Where the lines of a block scalar start that are drawn in to a column. -/
def BlockStart.said (indent : Nat) (k : Cursor) : BlockStart :=
  let (ends, tail) := blankLines indent k.column k.rest
  ⟨indent, ends, k.upTo tail⟩

/-- Whether a line starts with a blank. -/
def startsBlank (cs : List Char) : Bool := cs.head?.any fun c => c = ' ' || c = '\t'

/-- What the line ends between two lines amount to: that of the first line and those of the blank
lines behind it. -/
def between (folded : Bool) (line lineEnd ends next : List Char) : List Char :=
  if folded && lineEnd = ['\n'] && !startsBlank line && !startsBlank next then
    if ends.isEmpty then [' '] else ends
  else lineEnd ++ ends

/-- The lines of a block scalar at a place where one starts; what ends the last one, the line ends
behind it, and the place behind those. A block without a column of its own also ends at a mark
between documents. -/
def blockLines (folded outermost : Bool) (indent : Nat) :
    Nat → Cursor → List Char × List Char × List Char × Cursor
  | 0, k => ([], [], [], k)
  | fuel + 1, k =>
    let (line, tail) := k.rest.span fun c => !isBreak c
    let lineEnd := (tail.take 1).map keptBreak
    let below := (k.upTo tail).next
    let (ends, tail) := blankLines indent below.column below.rest
    let next := below.upTo tail
    if next.column ≠ indent ∨ next.rest = [] ∨ (outermost ∧ next.column = 0 ∧ atEdge next.rest) then
      (line, lineEnd, ends, next)
    else
      let (more, last) := blockLines folded outermost indent fuel next
      (line ++ between folded line lineEnd ends next.rest ++ more, last)

/-- The block scalar behind a mark, in a block of a column, and the place behind it. -/
def blockScalar (folded : Bool) (column : Int) (k : Cursor) :
    Except Trouble (List Char × Cursor) := do
  let (header, tail) ← blockHeader k.rest
  let below := k.upTo tail
  let least := (column + 1).toNat
  let start ← match header.increment with
    | none => BlockStart.seen least below
    | some n => pure (BlockStart.said (max 1 least + n - 1) below)
  let place := start.place
  let (text, lineEnd, ends, last) :=
    if place.column = start.indent ∧ place.rest ≠ [] then
      let outermost := header.increment.isNone && least = 0
      let (text, last) := blockLines folded outermost start.indent (place.rest.length + 1) place
      (start.ends ++ text, last)
    else ([], [], start.ends, place)
  return match header.chomping with
    | .strip => (text, last)
    | .clip => (text ++ lineEnd, last)
    | .keep => (text ++ lineEnd ++ ends, last)

end Folio.Yaml
