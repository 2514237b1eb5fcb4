import Folio.Text.Line
import Folio.Yaml.Scalar
import Folio.Yaml.Tree

/-!
# Configuration documents

A document is one value. Its tree is read first; then values are made of it from the outside to the
inside, level by level, so that of several troubles the outermost one counts, and of those on one
level the first. A key is made as a whole on the level of its entry. It is a scalar or a sequence
of scalars, and it comes once in its mapping unless it is merged into it.
-/

namespace Folio.Yaml

open Text

/-- The level inside a collection that is made as a whole or level by level. -/
def inside (whole : Bool) (level : Nat) : Nat := if whole then level else level + 1

/-- A value, and the troubles met in making it, each with its level. -/
structure Made (α : Type) where
  result : α
  troubles : List (Nat × Trouble)

/-- A value made of another one. -/
def Made.map (f : α → β) (m : Made α) : Made β := ⟨f m.result, m.troubles⟩

/-- The key that a value makes, if it can be one. -/
def keyOf? : Value → Option Key
  | .scalar s => some (.scalar s)
  | .list items => (items.mapM Value.scalar?).map .group
  | .map _ => none

/-- Whether a value is a mapping. -/
def isMapping : Value → Bool
  | .map _ => true
  | _ => false

/-- Puts an entry, replacing the value of a key that is there. -/
def putEntry (key : Key) (value : Value) : List (Key × Value) → List (Key × Value)
  | [] => [(key, value)]
  | (k, v) :: rest =>
    if k.isSame key then (k, value) :: rest else (k, v) :: putEntry key value rest

/-- The mapping in which every entry is put in order. -/
def mappingOf (entries : List (Key × Value)) : Value :=
  .map (entries.foldl (fun es (k, v) => putEntry k v es) [])

/-- A trouble if something is the case. -/
def troubleIf (condition : Bool) (level : Nat) (t : Trouble) : List (Nat × Trouble) :=
  if condition then [(level, t)] else []

namespace Tree

mutual

/-- The value that a tree on a level makes, as a whole or level by level. -/
def value (whole : Bool) (level : Nat) : Tree → Made Value
  | .scalar .sequence _ => ⟨.list [], [(inside whole level, .malformed)]⟩
  | .scalar .mapping _ => ⟨.map [], [(inside whole level, .malformed)]⟩
  | .scalar tag text =>
    match scalarOf tag text with
    | .ok s => ⟨.scalar s, []⟩
    | .error t => ⟨.null, [(level, t)]⟩
  | .sequence .sequence items => (values whole (inside whole level) items).map .list
  | .mapping .mapping entries merged =>
    (entryValues whole (inside whole level) merged [] entries).map mappingOf
  | .sequence .mapping _ => ⟨.map [], [(inside whole level, .malformed)]⟩
  | .mapping .sequence _ _ => ⟨.list [], [(inside whole level, .malformed)]⟩
  | .unmergeable .sequence => ⟨.list [], [(inside whole level, .malformed)]⟩
  | .unmergeable .mapping => ⟨.map [], [(inside whole level, .malformed)]⟩
  | _ => ⟨.null, [(level, .malformed)]⟩

/-- The values that the items of a sequence make. -/
def values (whole : Bool) (level : Nat) : List Tree → Made (List Value)
  | [] => ⟨[], []⟩
  | item :: rest =>
    let first := value whole level item
    let others := values whole level rest
    ⟨first.result :: others.result, first.troubles ++ others.troubles⟩

/-- The entries that those of a mapping make, behind some keys. -/
def entryValues (whole : Bool) (level : Nat) (merged : Bool) (before : List Key) :
    List (Tree × Tree) → Made (List (Key × Value))
  | [] => ⟨[], []⟩
  | (k, v) :: rest =>
    let madeKey := value true level k
    let madeValue := value whole level v
    let key := (keyOf? madeKey.result).getD (.group [])
    let others := entryValues whole level merged (key :: before) rest
    ⟨(key, madeValue.result) :: others.result,
      madeKey.troubles ++ troubleIf (isMapping madeKey.result) level .malformed ++
        madeValue.troubles ++ troubleIf (keyOf? madeKey.result).isNone level .unfitKey ++
        troubleIf (!merged && before.any key.isSame) level .malformed ++ others.troubles⟩

end

end Tree

/-- The first trouble on the outermost level. -/
def outermost : List (Nat × Trouble) → Option (Nat × Trouble)
  | [] => none
  | (level, t) :: rest =>
    match outermost rest with
    | some (other, u) => if other < level then some (other, u) else some (level, t)
    | none => some (level, t)

/-- Whether a character may stand in a document at all. -/
def isAllowed (c : Char) : Bool :=
  let n := c.toNat
  n = 9 || n = 10 || n = 13 || (0x20 ≤ n && n ≤ 0x7E) || n = 0x85 || (0xA0 ≤ n && n ≤ 0xFFFD) ||
    0x10000 ≤ n

/-- How many characters of a text are read at once. -/
def stretch : Nat := 4096

/-- The stretches at the front of a text without a character that may not stand there; the first
stretch is twice as long as the others. -/
def allowedPart (cs : List Char) : List Char :=
  let good := (cs.takeWhile isAllowed).length
  if good = cs.length then cs
  else if good < 2 * stretch then []
  else cs.take (good / stretch * stretch)

/-- The value of a document; a text without a document is null. What is wrong in front of a
character that may not stand there is found first. -/
def read (text : String) : Except Trouble Value := do
  let cs := plainLineEnds text.toList
  let part := allowedPart cs
  let tree ← (Tokens.ofText part).document
  if part.length < cs.length then throw .malformed
  match tree with
  | none => return .null
  | some tree =>
    let made := tree.value false 0
    match outermost made.troubles with
    | some (_, t) => throw t
    | none => return made.result

end Folio.Yaml
