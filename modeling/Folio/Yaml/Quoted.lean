import Folio.Value.Json
import Folio.Yaml.Cursor

/-!
# Quoted scalars

In a quoted scalar a line end is a space, further line ends stay, and the blanks around line ends
are dropped. A mark between documents may not start a line of it. Between single quotes a quote is
written twice; between double quotes characters are escaped by a backslash, which also takes a line
end away.
-/

namespace Folio.Yaml

/-- A line end inside a quoted scalar; an escaped one counts for nothing. -/
inductive LineEnd
  | escaped
  | plain
  /-- A line or paragraph separator, which stays. -/
  | separator (c : Char)

/-- A line end as a character of its own. -/
def LineEnd.kept : LineEnd → List Char
  | escaped => []
  | plain => ['\n']
  | separator c => [c]

/-- What consecutive line ends amount to. -/
def foldEnds : List LineEnd → List Char
  | [] => []
  | .plain :: [] => [' ']
  | .plain :: rest => rest.flatMap LineEnd.kept
  | first :: rest => first.kept ++ rest.flatMap LineEnd.kept

/-- The line end that a character is. -/
def lineEnd (c : Char) : LineEnd := if keptBreak c = '\n' then .plain else .separator c

/-- A quoted scalar as far as it is read: the blanks and line ends that are not decided yet. -/
structure Pending where
  blanks : List Char
  ends : List LineEnd

namespace Pending

/-- Nothing undecided. -/
def none : Pending := ⟨[], []⟩

/-- What undecided blanks amount to before further text. -/
def text (p : Pending) : List Char :=
  if p.ends.isEmpty then p.blanks.reverse else foldEnds p.ends.reverse

/-- A blank, which does not count at the start of a line. -/
def blank (p : Pending) (c : Char) : Pending :=
  if p.ends.isEmpty then { p with blanks := c :: p.blanks } else p

/-- A line end. -/
def lineEnd (p : Pending) (e : LineEnd) : Pending := ⟨[], e :: p.ends⟩

end Pending

/-- Text in front of what is read of a scalar. -/
def inFront (cs : List Char) (read : Except Trouble (List Char × List Char)) :
    Except Trouble (List Char × List Char) :=
  read.map fun (more, tail) => (cs ++ more, tail)

/-- The inside of a scalar in single quotes, after its opening quote. -/
def singleQuoted (p : Pending) : List Char → Except Trouble (List Char × List Char)
  | [] => .error .malformed
  | '\'' :: '\'' :: rest => inFront (p.text ++ ['\'']) (singleQuoted .none rest)
  | c :: rest =>
    if c = '\'' then .ok (p.text, rest)
    else if c = ' ' ∨ c = '\t' then singleQuoted (p.blank c) rest
    else if isBreak c then
      if atEdge rest then .error .malformed else singleQuoted (p.lineEnd (lineEnd c)) rest
    else inFront (p.text ++ [c]) (singleQuoted .none rest)

/-- The character of a short escape. -/
def shortEscape? : Char → Option Nat
  | '0' => some 0
  | 'a' => some 7
  | 'b' => some 8
  | 't' => some 9
  | '\t' => some 9
  | 'n' => some 10
  | 'v' => some 11
  | 'f' => some 12
  | 'r' => some 13
  | 'e' => some 27
  | ' ' => some 32
  | '"' => some 34
  | '/' => some 47
  | '\\' => some 92
  | 'N' => some 0x85
  | '_' => some 0xA0
  | 'L' => some 0x2028
  | 'P' => some 0x2029
  | _ => none

/-- The number of hexadecimal digits after an escape. -/
def hexWidth? : Char → Option Nat
  | 'x' => some 2
  | 'u' => some 4
  | 'U' => some 8
  | _ => none

/-- The number that so many hexadecimal digits at the front write. -/
def hexNumber? (width : Nat) (cs : List Char) : Option (Nat × List Char) :=
  let digits := (cs.take width).filterMap Value.Json.hexValue?
  if digits.length = width then some (digits.foldl (16 * · + ·) 0, cs.drop width) else none

/-- The character with a number; a half of one counts as a character. -/
def character (n : Nat) : Except Trouble Char :=
  if 0x7FFFFFFF < n then .error .outOfRange
  else if 0x10FFFF < n then .error .senseless
  else .ok (Text.charOrHalf n)

/-- The character that an escape at the front stands for, after its backslash. -/
def escape : List Char → Except Trouble (Char × List Char)
  | [] => .error .malformed
  | c :: rest =>
    match hexWidth? c with
    | none =>
      match shortEscape? c with
      | some code => .ok (Char.ofNat code, rest)
      | none => .error .malformed
    | some width =>
      match hexNumber? width rest with
      | some (n, rest) => (character n).map fun c => (c, rest)
      | none => .error .malformed

/-- The inside of a scalar in double quotes, after its opening quote; the fuel bounds its length. -/
def doubleQuoted : Nat → Pending → List Char → Except Trouble (List Char × List Char)
  | 0, _, _ => .error .malformed
  | _ + 1, _, [] => .error .malformed
  | fuel + 1, p, c :: rest =>
    if c = '"' then .ok (p.text, rest)
    else if c = '\\' then
      match rest with
      | e :: tail =>
        if isBreak e then
          if atEdge tail then .error .malformed
          else inFront p.text (doubleQuoted fuel (Pending.none.lineEnd .escaped) tail)
        else
          match escape rest with
          | .ok (e, tail) => inFront (p.text ++ [e]) (doubleQuoted fuel .none tail)
          | .error t => .error t
      | [] => .error .malformed
    else if c = ' ' ∨ c = '\t' then doubleQuoted fuel (p.blank c) rest
    else if isBreak c then
      if atEdge rest then .error .malformed else doubleQuoted fuel (p.lineEnd (lineEnd c)) rest
    else inFront (p.text ++ [c]) (doubleQuoted fuel .none rest)

/-- The scalar behind a quote and what follows it. -/
def quotedScalar (quote : Char) (cs : List Char) : Except Trouble (List Char × List Char) :=
  if quote = '\'' then singleQuoted .none cs else doubleQuoted (cs.length + 1) .none cs

end Folio.Yaml
