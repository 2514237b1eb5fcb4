import Folio.Yaml.Cursor

/-!
# Unquoted scalars

An unquoted scalar is a row of words. A word ends at a blank, at a colon before a blank, and between
brackets at the characters that structure them. Between words on one line the spaces stay; a line
end is a space, further line ends stay. The scalar ends before a comment, before a mark between
documents, and outside of brackets before a line that is not drawn in.
-/

namespace Folio.Yaml

/-- Whether an unquoted scalar may start here. -/
def startsPlain (flow : Bool) : List Char → Bool
  | [] => false
  | c :: rest =>
    if c = '-' then !atBlank rest
    else if c = ':' then
      !atBlank rest || (flow && !(rest.head? = some ' ' || rest.head? = some '\t'))
    else if c = '?' then !flow && !atBlank rest
    else !(isBlankOrBreak c || isFlowMark c || "#&*!|>'\"%@\x60".toList.contains c)

/-- Whether a character ends a word, with what follows it. -/
def endsWord (flow : Bool) (c : Char) (rest : List Char) : Bool :=
  if c = ':' then atBlank rest else isBlankOrBreak c || (flow && isFlowMark c)

/-- The word at the front and what follows it. -/
def plainWord (flow : Bool) : List Char → List Char × List Char
  | [] => ([], [])
  | c :: rest =>
    if endsWord flow c rest then ([], c :: rest)
    else
      let (word, tail) := plainWord flow rest
      (c :: word, tail)

/-- The further line ends at the front, with the spaces between them, and what follows; none if a
mark between documents follows. -/
def plainBreaks : List Char → Option (List Char) × List Char
  | [] => (some [], [])
  | c :: rest =>
    if c = ' ' then plainBreaks rest
    else if isBreak c then
      if atEdge rest then (none, rest)
      else
        let (more, tail) := plainBreaks rest
        (more.map (keptBreak c :: ·), tail)
    else (some [], c :: rest)

/-- What stands between two words. -/
structure Gap where
  /-- What it amounts to; nothing if no word can follow. -/
  text : List Char
  tail : List Char
  /-- Whether a line ends in it. -/
  crossed : Bool

/-- The gap at the front. -/
def gap (cs : List Char) : Gap :=
  let (spaces, rest) := cs.span (· = ' ')
  match rest with
  | [] => ⟨spaces, [], false⟩
  | c :: rest =>
    if !isBreak c then ⟨spaces, c :: rest, false⟩
    else if atEdge rest then ⟨[], rest, true⟩
    else match plainBreaks rest with
      | (none, tail) => ⟨[], tail, true⟩
      | (some breaks, tail) =>
        let first := if keptBreak c ≠ '\n' then [c] else if breaks.isEmpty then [' '] else []
        ⟨first ++ breaks, tail, true⟩

/-- The words at a place with the gaps in front of them, of which the first is given; the place
behind the last gap, and whether a line ends in that gap. -/
def plainWords : Nat → Bool → Int → Gap → Cursor → List Char × Cursor × Bool
  | 0, _, _, before, k => ([], k, before.crossed)
  | fuel + 1, flow, column, before, k =>
    match plainWord flow k.rest with
    | ([], _) => ([], k, before.crossed)
    | (word, tail) =>
      let found := gap tail
      let next := k.upTo found.tail
      if found.text = [] ∨ next.rest.head? = some '#' ∨ (!flow ∧ next.column < column) then
        (before.text ++ word, next, found.crossed)
      else
        let (more, last, crossed) := plainWords fuel flow column found next
        (before.text ++ word ++ more, last, crossed)

/-- The unquoted scalar at a place, of which further lines start at a column or behind it; the place
behind it and the blanks that follow it, and whether a line ends in those. -/
def plainScalar (flow : Bool) (column : Int) (k : Cursor) : List Char × Cursor × Bool :=
  plainWords (k.rest.length + 1) flow column ⟨[], k.rest, false⟩ k

end Folio.Yaml
