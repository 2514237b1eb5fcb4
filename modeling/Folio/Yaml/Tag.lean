import Folio.Moment
import Folio.Value.Json

/-!
# Tags

A tag says what a part of a document is taken for. Without one, an unquoted scalar is taken for
what it is written like: null, a truth value, a number, a day or a moment, and otherwise a text.
-/

namespace Folio.Yaml

open Text

/-- What a part of a document is taken for. -/
inductive Tag
  | null
  | bool
  | int
  | float
  /-- A day or a moment. -/
  | time
  | text
  | sequence
  | mapping
  /-- The mark that takes the entries of another mapping over. -/
  | merge
  /-- The mark that stands for the value of a mapping. -/
  | value
  /-- Something that has no meaning here. -/
  | unknown
deriving DecidableEq

/-- Tags by the names that documents use. -/
def Tag.names : List (String × Tag) := [
  ("null", null), ("bool", bool), ("int", int), ("float", float), ("timestamp", time),
  ("str", text), ("seq", sequence), ("map", mapping), ("merge", merge), ("value", value)]

/-- The tag with a name. -/
def Tag.ofName (name : String) : Tag := (names.lookup name).getD unknown

/-- Whether a character is a digit below a base. -/
def isDigitBelow (base : Nat) (c : Char) : Bool :=
  match Value.Json.hexValue? c with
  | some n => n < base
  | none => false

/-- Whether characters are digits of a base and low lines. -/
def isDigitRow (base : Nat) (cs : List Char) : Bool :=
  !cs.isEmpty && cs.all fun c => c = '_' || isDigitBelow base c

/-- A sign at the front. -/
def signed (cs : List Char) : Bool × List Char :=
  match cs with
  | '-' :: rest => (true, rest)
  | '+' :: rest => (false, rest)
  | cs => (false, cs)

/-- The base that an integer is written in, and its digits. -/
def baseOf (cs : List Char) : Nat × List Char :=
  match cs with
  | '0' :: 'b' :: rest => (2, rest)
  | '0' :: 'o' :: rest => (8, rest)
  | '0' :: 'x' :: rest => (16, rest)
  | cs => (10, cs)

/-- Whether a word is written like an integer. -/
def looksInteger (word : List Char) : Bool :=
  let (base, row) := baseOf (signed word).2
  isDigitRow base row && word.head? ≠ some '_'

/-- Whether a number may end with an exponent like this. -/
def looksExponent (signNeeded : Bool) : List Char → Bool
  | [] => true
  | e :: rest =>
    let digits := (signed rest).2
    (e = 'e' || e = 'E') && !(signNeeded && digits.length = rest.length) && !digits.isEmpty &&
      digits.all Char.isDigit

/-- Whether a word is written like a floating-point number. -/
def looksFloat (word : List Char) : Bool :=
  let body := (signed word).2
  let isPart (c : Char) : Bool := c.isDigit || c = '_'
  let (whole, rest) := body.span isPart
  [".inf", ".Inf", ".INF"].contains (String.ofList body) ||
    [".nan", ".NaN", ".NAN"].contains (String.ofList word) ||
    match rest with
    | '.' :: tail =>
      let (fraction, tail) := tail.span isPart
      if whole.isEmpty then !fraction.isEmpty && looksExponent true tail
      else whole.head? ≠ some '_' && looksExponent false tail
    | [] => false
    | rest => !whole.isEmpty && whole.head? ≠ some '_' && looksExponent false rest

/-! ### Days and moments -/

/-- A time of day as it is written. -/
structure ClockText where
  hour : Nat
  minute : Nat
  second : Nat
  /-- The digits of the fraction of the second. -/
  fraction : List Char
  /-- How far the clock is ahead of universal time, if that is said. -/
  zone : Option Zone

/-- A day, perhaps with a time, as it is written. -/
structure TimeText where
  date : Date
  clock : Option ClockText

/-- The number of digits at the front, at least and at most so many, and what follows them. -/
def number? (least most : Nat) (cs : List Char) : Option (Nat × List Char) :=
  let digits := (cs.take most).takeWhile Char.isDigit
  if digits.length < least then none else some (digitsValue digits, cs.drop digits.length)

/-- How many minutes a clock is ahead, after a sign; this is the end of a moment. -/
def minutes? (cs : List Char) : Option Nat := do
  let (hours, rest) ← number? 1 2 cs
  match rest with
  | [] => some (60 * hours)
  | ':' :: rest =>
    match ← number? 2 2 rest with
    | (minutes, []) => some (60 * hours + minutes)
    | _ => none
  | _ => none

/-- The zone at the end of a moment, if there is one. -/
def zone? (cs : List Char) : Option (Option Zone) :=
  let word := cs.dropWhile fun c => c = ' ' || c = '\t'
  let zone (n : Int) : Option Zone := some ⟨n, String.ofList word⟩
  match word with
  | [] => if cs.isEmpty then some none else none
  | ['Z'] => some (zone 0)
  | '-' :: rest => (minutes? rest).map fun n => zone (-n)
  | '+' :: rest => (minutes? rest).map fun n => zone n
  | _ => none

/-- The time of day that a text writes. -/
def clock? (cs : List Char) : Option ClockText := do
  let (hour, cs) ← number? 1 2 cs
  let (minute, cs) ← number? 2 2 (← after? [':'] cs)
  let (second, cs) ← number? 2 2 (← after? [':'] cs)
  let (fraction, cs) := match cs with
    | '.' :: rest => rest.span Char.isDigit
    | cs => ([], cs)
  some { hour, minute, second, fraction, zone := ← zone? cs }

/-- The day, perhaps with a time, that a word writes. -/
def time? (word : List Char) : Option TimeText := do
  let (year, cs) ← number? 4 4 word
  let (month, cs) ← number? 1 2 (← after? ['-'] cs)
  let (day, cs) ← number? 1 2 (← after? ['-'] cs)
  let clock ← match cs with
    | [] => some none
    | c :: rest =>
      if c = 'T' ∨ c = 't' then (clock? rest).map some
      else if c = ' ' ∨ c = '\t' then
        (clock? (rest.dropWhile fun c => c = ' ' || c = '\t')).map some
      else none
  some ⟨⟨year, month, day⟩, clock⟩

/-- Whether a word is written like a day or a moment; a day alone has two digits for the month and
the day. -/
def looksTime (word : List Char) : Bool :=
  match time? word with
  | some t => t.clock.isSome || word.length = 10
  | none => false

/-! ### What a scalar is written like -/

/-- The words for null. -/
def nullWords : List String := ["", "~", "null", "Null", "NULL"]

/-- The words for truth values. -/
def boolWords : List String := ["true", "True", "TRUE", "false", "False", "FALSE"]

/-- The tag of an unquoted scalar without one. -/
def Tag.ofWord (word : List Char) : Tag :=
  let s := String.ofList word
  if nullWords.contains s then null
  else if boolWords.contains s then bool
  else if s = "<<" then merge
  else if s = "=" then value
  else if looksFloat word then float
  else if looksInteger word then int
  else if looksTime word then time
  else text

end Folio.Yaml
