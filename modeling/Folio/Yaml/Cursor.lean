import Folio.Text.Cut

/-!
# Places in a document

A document is read from place to place. Line feeds, next lines and the line and paragraph
separators end a line of text, but only a line feed starts a line that counts, with its first
column; a byte order mark takes no column. Three hyphens or three dots that are followed by a blank
stand between documents.
-/

namespace Folio.Yaml

open Text

/-- Why a document cannot be read. -/
inductive Trouble
  /-- It does not have the form of a document, or says something twice. -/
  | malformed
  /-- A number without digits or with too many of them, a day that the calendar does not have, or
  a character behind the last one. -/
  | senseless
  /-- A character whose number does not fit into a signed word, or a moment that is rounded past the
  end of the calendar. -/
  | outOfRange
  /-- A key of several parts, not all of which are scalars. -/
  | unfitKey
  /-- A scalar that is tagged as a number and is empty. -/
  | blankNumber
  /-- A scalar that is tagged as a truth value and is no word for one. -/
  | unknownWord
  /-- Collections inside one another beyond all measure. -/
  | tooDeep
deriving DecidableEq

/-- Whether a character ends a line of text. -/
def isBreak (c : Char) : Bool :=
  c = '\n' || c.toNat = 0x85 || c.toNat = 0x2028 || c.toNat = 0x2029

/-- Whether a character ends a word. -/
def isBlankOrBreak (c : Char) : Bool := c = ' ' || c = '\t' || isBreak c

/-- The characters that structure collections in brackets. -/
def isFlowMark (c : Char) : Bool := c = ',' || c = '[' || c = ']' || c = '\x7b' || c = '\x7d'

/-- What a line end amounts to where it is kept: a separator stays, any other is a line feed. -/
def keptBreak (c : Char) : Char := if c.toNat = 0x85 then '\n' else c

/-- Whether a text is at the end of a word. -/
def atBlank : List Char → Bool
  | [] => true
  | c :: _ => isBlankOrBreak c

/-- Whether a text is at a space or at the end of a line. -/
def atSpace : List Char → Bool
  | [] => true
  | c :: _ => c = ' ' || isBreak c

/-- What follows a line that has only spaces and a comment left; nothing if it has more. -/
def lineAfter? (cs : List Char) : Option (List Char) :=
  let rest := cs.dropWhile (· = ' ')
  match if rest.head? = some '#' then rest.dropWhile fun c => !isBreak c else rest with
  | [] => some []
  | c :: tail => if isBreak c then some tail else none

/-- Whether a mark and a blank stand here. -/
def atMark (mark cs : List Char) : Bool :=
  match after? mark cs with
  | some rest => atBlank rest
  | none => false

/-- The mark in front of a document. -/
def startMark : List Char := ['-', '-', '-']

/-- The mark behind a document. -/
def endMark : List Char := ['.', '.', '.']

/-- Whether a mark between documents stands here. -/
def atEdge (cs : List Char) : Bool := atMark startMark cs || atMark endMark cs

/-- A place in a text. -/
structure Cursor where
  /-- What follows. -/
  rest : List Char
  /-- How many characters stand before it. -/
  index : Nat
  line : Nat
  column : Nat

namespace Cursor

/-- The first place of a text. -/
def start (cs : List Char) : Cursor := ⟨cs, 0, 0, 0⟩

/-- The place behind the next character. -/
def next (k : Cursor) : Cursor :=
  match k.rest with
  | [] => k
  | c :: rest =>
    if c = '\n' then ⟨rest, k.index + 1, k.line + 1, 0⟩
    else ⟨rest, k.index + 1, k.line, if c.toNat = 0xFEFF then k.column else k.column + 1⟩

/-- The place a number of characters further. -/
def forward : Nat → Cursor → Cursor
  | 0, k => k
  | n + 1, k => forward n k.next

/-- The place where a tail of what follows starts. -/
def upTo (k : Cursor) (tail : List Char) : Cursor := k.forward (k.rest.length - tail.length)

end Cursor

end Folio.Yaml
