import Folio.Text.Decimal
import Folio.Yaml.Cursor

/-!
# Properties of nodes

In front of a part of a document may stand its anchor, by which an alias repeats it, and its tag,
which says what it is taken for. A tag is a handle with a suffix. In front of a document stand
declarations: its version, and the handles of its tags.
-/

namespace Folio.Yaml

open Text

/-- Whether a character may stand in the name of an anchor. -/
def isAnchorChar (c : Char) : Bool :=
  let n := c.toNat
  !isFlowMark c &&
    ((0x21 ≤ n && n ≤ 0x7E) || (0xA0 ≤ n && n ≤ 0xD7FF) ||
      (0xE000 ≤ n && n ≤ 0xFFFD && n ≠ 0xFEFF) || 0x10000 ≤ n)

/-- The name of an anchor at the front and what follows it. -/
def anchorName (cs : List Char) : Except Trouble (List Char × List Char) :=
  let (name, rest) := cs.span isAnchorChar
  if !name.isEmpty && (atBlank rest || rest.head?.any isFlowMark) then .ok (name, rest)
  else .error .malformed

/-- Whether a character may stand in the suffix of a tag. -/
def isSuffixChar (c : Char) : Bool :=
  c.isAlphanum || "-;/?:@&=+$,_.!~*'()[]%#".toList.contains c

/-- The suffix of a tag at the front and what follows it. -/
def tagSuffix (cs : List Char) : Except Trouble (List Char × List Char) :=
  let (suffix, rest) := cs.span isSuffixChar
  if suffix.isEmpty then .error .malformed else .ok (suffix, rest)

/-- The handle of a tag after its exclamation mark, up to the next one, and what follows it. -/
def namedHandle (cs : List Char) : Except Trouble (List Char × List Char) :=
  let (name, rest) := cs.span fun c => c.isAlphanum || c = '-' || c = '_'
  match rest with
  | '!' :: rest => .ok ('!' :: name ++ ['!'], rest)
  | _ => .error .malformed

/-- The handle of a tag that has no name. -/
def shortHandle : List Char := ['!']

/-- The handle of the tags that every document knows. -/
def commonHandle : List Char := ['!', '!']

/-- A tag as it is written. -/
structure TagText where
  /-- Its handle; a tag that is written out has none. -/
  handle : Option (List Char)
  suffix : List Char
deriving DecidableEq

/-- The tag after its exclamation mark and what follows it. -/
def tagText (cs : List Char) : Except Trouble (TagText × List Char) := do
  let (short, cs) := match cs with
    | '!' :: rest => (commonHandle, rest)
    | cs => (shortHandle, cs)
  let (tag, rest) ← match cs with
    | '<' :: rest =>
      match ← tagSuffix rest with
      | (suffix, '>' :: rest) => pure (⟨none, suffix⟩, rest)
      | _ => throw .malformed
    | cs =>
      if atBlank cs then pure (⟨none, short⟩, cs)
      else
        let word := cs.takeWhile fun c => c ≠ ' ' && !isBreak c
        let (handle, rest) ← if word.contains '!' then namedHandle cs else pure (short, cs)
        let (suffix, rest) ← tagSuffix rest
        pure (⟨some handle, suffix⟩, rest)
  if atSpace rest then return (tag, rest) else throw .malformed

/-- A declaration in front of a document. -/
inductive Declaration
  | version (major : Nat)
  | handle (name : List Char)
  /-- Any other, which says nothing. -/
  | other
deriving DecidableEq

/-- The version in a declaration, of which only the first number matters, and what follows it. -/
def versionNumber (cs : List Char) : Except Trouble (Nat × List Char) :=
  let (major, rest) := cs.span Char.isDigit
  match rest with
  | '.' :: rest =>
    let (minor, rest) := rest.span Char.isDigit
    if major.isEmpty || minor.isEmpty || !atSpace rest then .error .malformed
    else .ok (digitsValue major, rest)
  | _ => .error .malformed

/-- The handle in a declaration; what it stands for is not needed, but has to be there. -/
def declaredHandle (cs : List Char) : Except Trouble (List Char × List Char) := do
  let (name, rest) ← match cs with
    | '!' :: ' ' :: rest => pure (shortHandle, ' ' :: rest)
    | '!' :: rest => namedHandle rest
    | _ => throw .malformed
  match rest with
  | ' ' :: rest =>
    let (_, rest) ← tagSuffix (rest.dropWhile (· = ' '))
    if atSpace rest then return (name, rest) else throw .malformed
  | _ => throw .malformed

/-- The declaration after its percent sign, and the lines below it. -/
def declaration (cs : List Char) : Except Trouble (Declaration × List Char) := do
  let (name, rest) := cs.span fun c => c.isAlphanum || "-_:.".toList.contains c
  if name.isEmpty || !atSpace rest then throw .malformed
  let value := rest.dropWhile (· = ' ')
  let (d, rest) ←
    if name = "YAML".toList then (versionNumber value).map fun (n, rest) => (.version n, rest)
    else if name = "TAG".toList then (declaredHandle value).map fun (h, rest) => (.handle h, rest)
    else pure (.other, rest.dropWhile fun c => !isBreak c)
  match lineAfter? rest with
  | some tail => return (d, tail)
  | none => throw .malformed

end Folio.Yaml
