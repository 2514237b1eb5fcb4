import Folio.Yaml.Tag
import Folio.Yaml.Token

/-!
# Document trees of a configuration

The tokens of a document make a tree of scalars, sequences and mappings, each with its tag. What is
left out is an empty scalar: a value, an item of a block, and also a key in front of its colon. An
alias stands for the last tree with its anchor, and a mapping takes the entries of those over that
are merged into it.
-/

namespace Folio.Yaml

/-- A document. -/
inductive Tree
  | scalar (tag : Tag) (text : List Char)
  | sequence (tag : Tag) (items : List Tree)
  /-- A mapping; if entries are merged into it, they come first and may come again. -/
  | mapping (tag : Tag) (entries : List (Tree × Tree)) (merged : Bool)
  /-- A mapping into which is merged twice, or something that is no mapping. -/
  | unmergeable (tag : Tag)

namespace Tree

/-- What is left out. -/
def empty : Tree := scalar .null []

/-- The entries of a mapping. -/
def entries? : Tree → Option (List (Tree × Tree))
  | mapping _ entries _ => some entries
  | _ => none

/-- The entries that a tree gives to a mapping that it is merged into; in a list of mappings the
last one comes first. -/
def given? : Tree → Option (List (Tree × Tree))
  | sequence _ items => (items.reverse.mapM entries?).map List.flatten
  | t => t.entries?

/-- The entries that trees give to a mapping; behind one that gives some no other may come. -/
def givenByAll? : List Tree → Option (List (Tree × Tree))
  | [] => some []
  | t :: rest => do
    let entries ← t.given?
    if entries.isEmpty then givenByAll? rest
    else if rest.isEmpty then some entries
    else none

/-- Whether a key is the mark for merging. -/
def isMerge : Tree → Bool
  | scalar .merge _ => true
  | _ => false

/-- A tree as a key: the mark for a value is a text there. -/
def asKey : Tree → Tree
  | scalar .value text => scalar .text text
  | t => t

/-- The mapping with some entries, among them those that say what is merged into it. -/
def ofEntries (tag : Tag) (entries : List (Tree × Tree)) : Tree :=
  let (merges, own) := entries.partition fun (k, _) => k.isMerge
  match givenByAll? (merges.map Prod.snd) with
  | some given => mapping tag (given ++ own.map fun (k, v) => (k.asKey, v)) !given.isEmpty
  | none => unmergeable tag

end Tree

/-- What stands in front of a node. -/
structure Properties where
  anchor : Option (List Char)
  /-- Its tag; there is also one that says nothing. -/
  tag : Option (Option Tag)

namespace Properties

/-- Whether nothing stands there. -/
def isNone (p : Properties) : Bool := p.anchor.isNone && p.tag.isNone

/-- The scalar with a text. -/
def scalar (p : Properties) (text : List Char) (plain : Bool) : Tree :=
  match p.tag with
  | some (some tag) => .scalar tag text
  | some none => .scalar (.ofWord text) text
  | none => .scalar (if plain then .ofWord text else .text) text

/-- The sequence of some items. -/
def sequence (p : Properties) (items : List Tree) : Tree :=
  .sequence (p.tag.join.getD .sequence) items

/-- The mapping with some entries. -/
def mapping (p : Properties) (entries : List (Tree × Tree)) : Tree :=
  .ofEntries (p.tag.join.getD .mapping) entries

end Properties

/-- How many collections may be inside one another. -/
def deepest : Nat := 480

/-- The tokens that are not read yet, with a trouble behind the last of them, and what is known from
those in front of them. -/
structure Tokens where
  list : List Token
  trouble : Trouble
  /-- The handles of tags that are declared. -/
  handles : List (List Char)
  /-- The anchored trees, the last one first; one that is not read to its end is missing. -/
  anchored : List (List Char × Option Tree)
  /-- How many collections are around the next token. -/
  depth : Nat

namespace Tokens

/-- The tokens of a text. -/
def ofText (cs : List Char) : Tokens :=
  let (list, trouble) := tokens cs
  { list, trouble, handles := [], anchored := [], depth := 0 }

/-- The first token and the others. -/
def first (ts : Tokens) : Except Trouble (Token × Tokens) :=
  match ts.list with
  | [] => .error ts.trouble
  | t :: rest => .ok (t, { ts with list := rest })

/-- Whether the first token is among some. -/
def isAt (ts : Tokens) (among : List Token) : Except Trouble Bool :=
  ts.first.map fun (t, _) => among.contains t

/-- The tree that an alias stands for. -/
def aliased (ts : Tokens) (name : List Char) : Except Trouble Tree :=
  match ts.anchored.lookup name with
  | some (some tree) => .ok tree
  | some none => .error .tooDeep
  | none => .error .malformed

/-- Adds a tree with an anchor, if it has one. -/
def anchor (ts : Tokens) (p : Properties) (tree : Option Tree) : Tokens :=
  match p.anchor with
  | some name => { ts with anchored := (name, tree) :: ts.anchored }
  | none => ts

/-- Puts a tree where it was missing among the anchored ones. -/
def fill (name : List Char) (tree : Tree) :
    List (List Char × Option Tree) → List (List Char × Option Tree)
  | [] => []
  | (other, t) :: rest =>
    if other = name ∧ t.isNone then (other, some tree) :: rest
    else (other, t) :: fill name tree rest

/-- At the first token inside a collection. -/
def enter (ts : Tokens) (p : Properties) : Except Trouble Tokens :=
  if ts.depth < deepest then .ok { ts.anchor p none with depth := ts.depth + 1 }
  else .error .tooDeep

/-- A collection, and the tokens behind it. -/
def leave (ts : Tokens) (p : Properties) (tree : Tree) : Tree × Tokens :=
  (tree,
    { ts with
      depth := ts.depth - 1
      anchored := match p.anchor with
        | some name => fill name tree ts.anchored
        | none => ts.anchored })

/-- The meaning of a tag, if it has one. -/
def meaning (ts : Tokens) (t : TagText) : Except Trouble (Option Tag) :=
  match t.handle with
  | none => .ok (if t.suffix = shortHandle then none else some .unknown)
  | some handle =>
    if ts.handles.contains handle then .ok (some .unknown)
    else if handle = commonHandle then .ok (some (.ofName (String.ofList t.suffix)))
    else if handle = shortHandle then .ok (some .unknown)
    else .error .malformed

/-- The anchor and the tag in front of a node, in any order. -/
def properties (ts : Tokens) : Except Trouble (Properties × Tokens) := do
  let (t, rest) ← ts.first
  match t with
  | .anchor name =>
    let (t, after) ← rest.first
    match t with
    | .tag tag => return (⟨some name, some (← rest.meaning tag)⟩, after)
    | _ => return (⟨some name, none⟩, rest)
  | .tag tag =>
    let (t, after) ← rest.first
    match t with
    | .anchor name => return (⟨some name, some (← rest.meaning tag)⟩, after)
    | _ => return (⟨none, some (← rest.meaning tag)⟩, rest)
  | _ => return (⟨none, none⟩, ts)

mutual

/-- The tree at the front. A block may start here or not; in the value of a block mapping, a
sequence may stand in the same column as the mapping. -/
def tree : Nat → Bool → Bool → Tokens → Except Trouble (Tree × Tokens)
  | 0, _, _, _ => .error .malformed
  | fuel + 1, block, sameColumn, ts => do
    let (t, rest) ← ts.first
    match t with
    | .alias name => return (← rest.aliased name, rest)
    | _ =>
      let (p, ts) ← ts.properties
      let (t, rest) ← ts.first
      match t, block, sameColumn with
      | .scalar text plain, _, _ =>
        let tree := p.scalar text plain
        return (tree, rest.anchor p tree)
      | .flowSequence, _, _ =>
        let (items, ts) ← flowItems fuel true (← rest.enter p)
        return ts.leave p (p.sequence items)
      | .flowMapping, _, _ =>
        let (entries, ts) ← flowEntries fuel true (← rest.enter p)
        return ts.leave p (p.mapping entries)
      | .item, _, true =>
        let (items, ts) ← sameColumnItems fuel (← ts.enter p)
        return ts.leave p (p.sequence items)
      | .blockSequence, true, _ =>
        let (items, ts) ← blockItems fuel (← rest.enter p)
        return ts.leave p (p.sequence items)
      | .blockMapping, true, _ =>
        let (entries, ts) ← blockEntries fuel (← rest.enter p)
        return ts.leave p (p.mapping entries)
      | _, _, _ =>
        if p.isNone then throw .malformed
        let tree := p.scalar [] true
        return (tree, ts.anchor p tree)

/-- The tree at the front, or the empty one before some tokens. -/
def treeOrEmpty : Nat → Bool → Bool → List Token → Tokens → Except Trouble (Tree × Tokens)
  | 0, _, _, _, _ => .error .malformed
  | fuel + 1, block, sameColumn, before, ts => do
    if ← ts.isAt before then return (.empty, ts)
    tree fuel block sameColumn ts

/-- The items of a block. -/
def blockItems : Nat → Tokens → Except Trouble (List Tree × Tokens)
  | 0, _ => .error .malformed
  | fuel + 1, ts => do
    let (t, rest) ← ts.first
    match t with
    | .item =>
      let (i, rest) ← treeOrEmpty fuel true false [.item, .blockEnd] rest
      let (is, rest) ← blockItems fuel rest
      return (i :: is, rest)
    | .blockEnd => return ([], rest)
    | _ => throw .malformed

/-- The items of a sequence in the same column as the mapping around it. -/
def sameColumnItems : Nat → Tokens → Except Trouble (List Tree × Tokens)
  | 0, _ => .error .malformed
  | fuel + 1, ts => do
    let (t, rest) ← ts.first
    match t with
    | .item =>
      let (i, rest) ← treeOrEmpty fuel true false [.item, .key, .value, .blockEnd] rest
      let (is, rest) ← sameColumnItems fuel rest
      return (i :: is, rest)
    | _ => return ([], ts)

/-- The entries of a block. -/
def blockEntries : Nat → Tokens → Except Trouble (List (Tree × Tree) × Tokens)
  | 0, _ => .error .malformed
  | fuel + 1, ts => do
    let (t, rest) ← ts.first
    match t with
    | .key =>
      let (k, rest) ← treeOrEmpty fuel true true [.key, .value, .blockEnd] rest
      blockEntriesAfter fuel k rest
    | .value => blockEntriesAfter fuel .empty ts
    | .blockEnd => return ([], rest)
    | _ => throw .malformed

/-- The value of a key, and the entries of a block behind it. -/
def blockEntriesAfter : Nat → Tree → Tokens → Except Trouble (List (Tree × Tree) × Tokens)
  | 0, _, _ => .error .malformed
  | fuel + 1, k, ts => do
    let (t, rest) ← ts.first
    let (v, rest) ←
      if t = .value then treeOrEmpty fuel true true [.key, .value, .blockEnd] rest
      else pure (.empty, ts)
    let (es, rest) ← blockEntries fuel rest
    return ((k, v) :: es, rest)

/-- The items between brackets; a comma stands in front of every one but the first. An item may be a
mapping of a single entry. -/
def flowItems : Nat → Bool → Tokens → Except Trouble (List Tree × Tokens)
  | 0, _, _ => .error .malformed
  | fuel + 1, isFirst, ts => do
    let (t, rest) ← ts.first
    if t = .flowSequenceEnd then return ([], rest)
    if !isFirst && t ≠ .comma then throw .malformed
    let ts := if isFirst then ts else rest
    let (t, rest) ← ts.first
    match t with
    | .flowSequenceEnd => return ([], rest)
    | .key =>
      let (k, rest) ← treeOrEmpty fuel false false [.value, .comma, .flowSequenceEnd] rest
      let (v, rest) ← flowValue fuel .flowSequenceEnd rest
      let (is, rest) ← flowItems fuel false rest
      return (.ofEntries .mapping [(k, v)] :: is, rest)
    | _ =>
      let (i, rest) ← tree fuel false false ts
      let (is, rest) ← flowItems fuel false rest
      return (i :: is, rest)

/-- The value of a key between brackets. -/
def flowValue : Nat → Token → Tokens → Except Trouble (Tree × Tokens)
  | 0, _, _ => .error .malformed
  | fuel + 1, close, ts => do
    let (t, rest) ← ts.first
    if t = .value then treeOrEmpty fuel false false [.comma, close] rest
    else return (.empty, ts)

/-- The entries between braces; a comma stands in front of every one but the first. -/
def flowEntries : Nat → Bool → Tokens → Except Trouble (List (Tree × Tree) × Tokens)
  | 0, _, _ => .error .malformed
  | fuel + 1, isFirst, ts => do
    let (t, rest) ← ts.first
    if t = .flowMappingEnd then return ([], rest)
    if !isFirst && t ≠ .comma then throw .malformed
    let ts := if isFirst then ts else rest
    let (t, rest) ← ts.first
    if t = .flowMappingEnd then return ([], rest)
    let (k, v, rest) ←
      if t = .key then do
        let (k, rest) ← treeOrEmpty fuel false false [.value, .comma, .flowMappingEnd] rest
        let (v, rest) ← flowValue fuel .flowMappingEnd rest
        pure (k, v, rest)
      else if t = .value then do
        let (v, rest) ← flowValue fuel .flowMappingEnd ts
        pure (.empty, v, rest)
      else do
        let (k, rest) ← tree fuel false false ts
        pure (k, .empty, rest)
    let (es, rest) ← flowEntries fuel false rest
    return ((k, v) :: es, rest)

end

/-- The tree of a document and what follows it. -/
def content (ts : Tokens) : Except Trouble (Tree × Tokens) :=
  tree (4 * ts.list.length + 4) true false ts

/-- The tokens behind the declarations in front of a document; the version may come once, and so may
every handle. -/
def declarations (versioned : Bool) : Nat → Tokens → Except Trouble Tokens
  | 0, _ => .error .malformed
  | fuel + 1, ts => do
    let (t, rest) ← ts.first
    match t with
    | .declaration (.version major) =>
      if versioned || major ≠ 1 then throw .malformed
      declarations true fuel rest
    | .declaration (.handle name) =>
      if ts.handles.contains name then throw .malformed
      declarations versioned fuel { rest with handles := name :: ts.handles }
    | .declaration .other => declarations versioned fuel rest
    | _ => return ts

/-- The tree of a document that starts with a mark, and what follows it. -/
def marked (ts : Tokens) : Except Trouble (Tree × Tokens) := do
  let (t, rest) ← (← ts.declarations false (ts.list.length + 1)).first
  if t ≠ .documentStart then throw .malformed
  if ← rest.isAt [.documentStart, .documentEnd, .textEnd] then return (.empty, rest)
  rest.content

/-- The tree of the only document of a text, if there is one. -/
def document (ts : Tokens) : Except Trouble (Option Tree) := do
  let (t, _) ← ts.first
  if t = .textEnd then return none
  let (tree, rest) ← match t with
    | .documentStart | .declaration _ => ts.marked
    | _ => ts.content
  let (t, after) ← rest.first
  let (t, _) ← if t = .documentEnd then after.first else pure (t, after)
  if t = .textEnd then return some tree
  throw .malformed

end Tokens

end Folio.Yaml
