import Folio.Yaml.Block
import Folio.Yaml.Plain
import Folio.Yaml.Property
import Folio.Yaml.Quoted

/-!
# Tokens

A document is cut into tokens from left to right. Where a block starts and ends is seen from the
columns, and a key is found when its colon comes: it stands on one line, is not longer than 1024
characters, and has to be a key where a block goes on. A mapping that starts with a key then starts
in front of it, so that tokens are also put in between earlier ones.
-/

namespace Folio.Yaml

open Text

/-- A part of a document. -/
inductive Token
  | documentStart
  | documentEnd
  | textEnd
  | blockSequence
  | blockMapping
  | blockEnd
  | flowSequence
  | flowSequenceEnd
  | flowMapping
  | flowMappingEnd
  /-- The dash in front of an item. -/
  | item
  | comma
  | key
  | value
  | scalar (text : List Char) (plain : Bool)
  | alias (name : List Char)
  | anchor (name : List Char)
  | tag (tag : TagText)
  | declaration (d : Declaration)
deriving DecidableEq

/-- A place where a key may have started. -/
structure KeyStart where
  /-- How many tokens come before it. -/
  token : Nat
  /-- Whether nothing else than a key can stand there. -/
  required : Bool
  index : Nat
  line : Nat
  column : Nat

/-- The most characters that a key may have. -/
def longestKey : Nat := 1024

/-- The work of cutting a document into tokens. -/
structure Scanner where
  cursor : Cursor
  /-- The brackets around the cursor, innermost first; whether each is that of a sequence. -/
  brackets : List Bool
  /-- The column of the block around the cursor. -/
  indent : Int
  /-- The columns of the blocks around that one, innermost first. -/
  outer : List Int
  /-- Whether a key may start at the next token. -/
  keyAllowed : Bool
  /-- The places where keys may have started, by the number of brackets around them. -/
  starts : List (Nat × KeyStart)
  tokens : Array Token

namespace Scanner

/-- Before the first character of a text. -/
def start (cs : List Char) : Scanner :=
  let cs := if (cs.head?.map Char.toNat) = some 0xFEFF then cs.drop 1 else cs
  { cursor := Cursor.start cs, brackets := [], indent := -1, outer := [], keyAllowed := true
    starts := [], tokens := #[] }

variable (s : Scanner)

/-- The number of brackets around the cursor. -/
def depth : Nat := s.brackets.length

/-- Whether the cursor is between brackets. -/
def inFlow : Bool := !s.brackets.isEmpty

/-- The column of the cursor. -/
def column : Int := s.cursor.column

/-- Adds a token at the end. -/
def push (t : Token) : Scanner := { s with tokens := s.tokens.push t }

/-- Moves the cursor. -/
def forward (n : Nat) : Scanner := { s with cursor := s.cursor.forward n }

/-- Sets whether a key may start next. -/
def allowKey (allowed : Bool) : Scanner := { s with keyAllowed := allowed }

/-- Whether a key cannot have started so far back. -/
def isStale (k : KeyStart) : Bool :=
  k.line ≠ s.cursor.line || longestKey < s.cursor.index - k.index

/-- Forgets the places that satisfy a condition; one where a key is required cannot be forgotten. -/
def forget (condition : Nat → KeyStart → Bool) : Except Trouble Scanner :=
  if s.starts.any fun (n, k) => condition n k && k.required then .error .malformed
  else .ok { s with starts := s.starts.filter fun (n, k) => !condition n k }

/-- Forgets the places that are too far back. -/
def forgetStale : Except Trouble Scanner := s.forget fun _ k => s.isStale k

/-- Forgets the place between the innermost brackets. -/
def forgetHere : Except Trouble Scanner :=
  let here := s.depth
  s.forget fun n _ => n = here

/-- Notes that a key may start at the cursor. -/
def noteStart : Except Trouble Scanner :=
  if s.keyAllowed then
    s.forgetHere.map fun t =>
      let place : KeyStart :=
        { token := s.tokens.size, required := !s.inFlow && s.indent = s.column
          index := s.cursor.index, line := s.cursor.line, column := s.cursor.column }
      { t with starts := (s.depth, place) :: t.starts }
  else .ok s

/-- How many blocks end at a column, and the columns of those that do not. -/
def endedBlocks (column : Int) : Int → List Int → Nat × Int × List Int
  | indent, [] => (0, indent, [])
  | indent, next :: outer =>
    if column < indent then
      let (n, indent, outer) := endedBlocks column next outer
      (n + 1, indent, outer)
    else (0, indent, next :: outer)

/-- Ends the blocks that are drawn in further than a column; between brackets columns do not
matter. -/
def endBlocks (column : Int) : Scanner :=
  if s.inFlow then s
  else
    let (n, indent, outer) := endedBlocks column s.indent s.outer
    { s with indent, outer, tokens := s.tokens ++ Array.replicate n .blockEnd }

/-- Starts a block at a column unless there is one; its token is put in at a place. -/
def startBlock (column : Int) (t : Token) (place : Nat) : Scanner :=
  if s.indent < column then
    { s with
      indent := column
      outer := s.indent :: s.outer
      tokens := s.tokens.take place ++ #[t] ++ s.tokens.drop place }
  else s

/-- The blanks, comments and line ends at the front skipped, and whether a line ends in them. -/
def skipBlanks (flow inComment crossed : Bool) : List Char → List Char × Bool
  | [] => ([], crossed)
  | c :: rest =>
    if isBreak c then skipBlanks flow false true rest
    else if inComment ∨ c = '#' then skipBlanks flow true crossed rest
    else if c = ' ' ∨ (flow ∧ c = '\t') then skipBlanks flow false crossed rest
    else (c :: rest, crossed)

/-- Moves the cursor to the next token; outside of brackets a key may start on a new line. -/
def skip : Scanner :=
  let (tail, crossed) := skipBlanks s.inFlow false false s.cursor.rest
  { s with
    cursor := s.cursor.upTo tail
    keyAllowed := s.keyAllowed || (crossed && !s.inFlow) }

/-- The end of the text. -/
def finish : Except Trouble Scanner :=
  (s.endBlocks (-1)).forgetHere.map fun t => (t.allowKey false).push .textEnd

/-- A mark between documents. -/
def edge (t : Token) : Except Trouble Scanner :=
  (s.endBlocks (-1)).forgetHere.map fun u => ((u.allowKey false).push t).forward 3

/-- An opening bracket. -/
def openBracket (t : Token) (sequence : Bool) : Except Trouble Scanner :=
  s.noteStart.map fun u =>
    ((({ u with brackets := sequence :: u.brackets }).allowKey true).push t).forward 1

/-- A closing bracket. -/
def closeBracket (t : Token) : Except Trouble Scanner :=
  s.forgetHere.map fun u =>
    ((({ u with brackets := u.brackets.drop 1 }).allowKey false).push t).forward 1

/-- A comma between brackets. -/
def comma : Except Trouble Scanner :=
  s.forgetHere.map fun u => ((u.allowKey true).push .comma).forward 1

/-- A dash in front of an item. -/
def item : Except Trouble Scanner :=
  if !s.inFlow && !s.keyAllowed then .error .malformed
  else
    let t := if s.inFlow then s else s.startBlock s.column .blockSequence s.tokens.size
    t.forgetHere.map fun u => ((u.allowKey true).push .item).forward 1

/-- A question mark in front of a key. -/
def key : Except Trouble Scanner :=
  if !s.inFlow && !s.keyAllowed then .error .malformed
  else
    let t := if s.inFlow then s else s.startBlock s.column .blockMapping s.tokens.size
    t.forgetHere.map fun u => ((u.allowKey !u.inFlow).push .key).forward 1

/-- A colon behind the key that starts at a place. -/
def valueOfKey (k : KeyStart) : Scanner :=
  let here := s.depth
  let t := { s with
    starts := s.starts.filter fun (n, _) => n ≠ here
    tokens := s.tokens.take k.token ++ #[Token.key] ++ s.tokens.drop k.token }
  let t := if t.inFlow then t else t.startBlock k.column .blockMapping k.token
  ((t.allowKey false).push .value).forward 1

/-- A colon in front of a value. -/
def value : Except Trouble Scanner :=
  match s.starts.lookup s.depth with
  | some k => .ok (s.valueOfKey k)
  | none =>
    if !s.inFlow && !s.keyAllowed then .error .malformed
    else
      let t := if s.inFlow then s else s.startBlock s.column .blockMapping s.tokens.size
      t.forgetHere.map fun u => ((u.allowKey !u.inFlow).push .value).forward 1

/-- A scalar in quotes. -/
def quoted (quote : Char) (rest : List Char) : Except Trouble Scanner := do
  let t ← s.noteStart
  let (text, tail) ← quotedScalar quote rest
  return ({ t with cursor := t.cursor.upTo tail, keyAllowed := false }).push (.scalar text false)

/-- A scalar without quotes. -/
def plain : Except Trouble Scanner :=
  s.noteStart.map fun t =>
    let (text, cursor, crossed) := plainScalar t.inFlow (t.indent + 1) t.cursor
    ({ t with cursor, keyAllowed := crossed }).push (.scalar text true)

/-- A block scalar. -/
def block (folded : Bool) : Except Trouble Scanner := do
  let t ← s.forgetHere
  let (text, cursor) ← blockScalar folded t.indent t.cursor.next
  return ({ t with cursor, keyAllowed := true }).push (.scalar text false)

/-- A token with the name of an anchor. -/
def named (token : List Char → Token) (cs : List Char) : Except Trouble (Token × List Char) :=
  (anchorName cs).map fun (name, tail) => (token name, tail)

/-- A token with a tag. -/
def tagged (cs : List Char) : Except Trouble (Token × List Char) :=
  (tagText cs).map fun (t, tail) => (.tag t, tail)

/-- An alias, an anchor or a tag behind its mark. -/
def property (read : List Char → Except Trouble (Token × List Char)) (rest : List Char) :
    Except Trouble Scanner := do
  let t ← s.noteStart
  let (token, tail) ← read rest
  return ({ t with cursor := t.cursor.upTo tail, keyAllowed := false }).push token

/-- A declaration behind its percent sign. -/
def declare (rest : List Char) : Except Trouble Scanner := do
  let t ← (s.endBlocks (-1)).forgetHere
  let (d, tail) ← declaration rest
  return ({ t with cursor := t.cursor.upTo tail, keyAllowed := false }).push (.declaration d)

/-- Whether a colon stands in front of a value. Between brackets it may stand close to what follows,
but not in a sequence, and not right behind another colon while a key may still be found in what
comes before. -/
def startsValue (waiting : Bool) (rest : List Char) : Bool :=
  match s.brackets with
  | [] | true :: _ => atBlank rest
  | false :: _ => !(waiting && s.tokens.back? = some .value) || atBlank rest

/-- The token at the cursor. -/
def token (waiting : Bool) : Except Trouble Scanner :=
  match s.cursor.rest with
  | [] => s.finish
  | c :: rest =>
    if c = '%' ∧ s.cursor.column = 0 then s.declare rest
    else if s.cursor.column = 0 ∧ atMark startMark (c :: rest) then s.edge .documentStart
    else if s.cursor.column = 0 ∧ atMark endMark (c :: rest) then s.edge .documentEnd
    else if c = '[' then s.openBracket .flowSequence true
    else if c = '\x7b' then s.openBracket .flowMapping false
    else if c = ']' then s.closeBracket .flowSequenceEnd
    else if c = '\x7d' then s.closeBracket .flowMappingEnd
    else if c = ',' then s.comma
    else if c = '-' ∧ atBlank rest then s.item
    else if c = '?' ∧ (s.inFlow || atBlank rest) then s.key
    else if c = ':' ∧ s.startsValue waiting rest then s.value
    else if c = '*' then s.property (named .alias) rest
    else if c = '&' then s.property (named .anchor) rest
    else if c = '!' then s.property tagged rest
    else if (c = '|' ∨ c = '>') ∧ !s.inFlow then s.block (c = '>')
    else if c = '\'' ∨ c = '"' then s.quoted c rest
    else if startsPlain s.inFlow (c :: rest) then s.plain
    else .error .malformed

/-- One token more. -/
def step : Except Trouble Scanner := do
  let t ← s.skip.forgetStale
  (t.endBlocks t.column).token !s.starts.isEmpty

/-- The tokens in front of which no key can be found any more. -/
def settled : List Token :=
  match (s.starts.map fun (_, k) => k.token).min? with
  | some n => (s.tokens.take n).toList
  | none => s.tokens.toList

/-- The tokens of the rest of a text, and why there are no more. -/
def run : Nat → Scanner → List Token × Trouble
  | 0, s => (s.settled, .malformed)
  | fuel + 1, s =>
    match s.forgetStale with
    | .error t => (s.settled, t)
    | .ok s =>
      match s.step with
      | .error t => (s.settled, t)
      | .ok next =>
        if next.tokens.back? = some .textEnd then (next.tokens.toList, .malformed)
        else run fuel next

end Scanner

/-- The tokens of a text; where there is no end of the text among them, also why. -/
def tokens (cs : List Char) : List Token × Trouble :=
  Scanner.run (cs.length + 1) (Scanner.start cs)

end Folio.Yaml
