import Folio.Render.Session

/-!
# Writing in place

The same writing with a single session that every step changes. What is written is added at the
end; the surroundings are changed before the inside of a node is written and set back behind it,
also when the inside ends with a fault. A fragment is written into a session that holds nothing,
and what it held is put back behind it.
-/

namespace Folio

open Draft Text

/-- A step of writing; a step that ends with a fault has changed the session as well. -/
abbrev Writing := EStateM Fault Session

/-- A mark of the surroundings that is set inside certain nodes. -/
structure Mark where
  read : Context → Bool
  set : Bool → Context → Context
  set_read : ∀ c value, set (read c) (set value c) = c

namespace Mark

/-- Inside a block. -/
def block : Mark := ⟨Context.inBlock, fun value c => { c with inBlock := value }, fun _ _ => rfl⟩

/-- Inside a heading. -/
def heading : Mark :=
  ⟨Context.inHeading, fun value c => { c with inHeading := value }, fun _ _ => rfl⟩

/-- Inside documentation. -/
def docs : Mark := ⟨Context.inDocs, fun value c => { c with inDocs := value }, fun _ _ => rfl⟩

end Mark

namespace Writing

/-- Adds a draft that needs no session. -/
def emit (d : Draft) : Writing Unit := fun s =>
  match d.fault with
  | none => .ok () (s.add d)
  | some f => .error f (s.add d)

/-- The surroundings at the moment. -/
def surroundings : Writing Context := return (← get).context

/-- A result, or its fault. -/
def given {α : Type} (e : Except Fault α) : Writing α := fun s =>
  match e with
  | .ok a => .ok a s
  | .error f => .error f s

/-- Writes with a mark set, which is set back to what it was before. -/
def under (mark : Mark) (inside : Writing Unit) : Writing Unit := do
  let before := mark.read (← surroundings)
  modify fun s => { s with context := mark.set true s.context }
  try
    inside
  finally
    modify fun s => { s with context := mark.set before s.context }

/-- Writes into a session that holds nothing, and puts back what it held. -/
def apart {α : Type} (inside : Writing α) : Writing α := do
  let before := (← get).written
  modify fun s => { s with written := [] }
  try
    inside
  finally
    modify fun s => { s with written := before }

/-- A list around its items. -/
def around (depth : Nat) (items : Writing Unit) : Writing Unit := do
  emit (when (depth = 0) (markup "\n"))
  items
  emit (markup "\n")

section Nodes

variable (r : Renderer) (expand : List Node → Writing Unit)

mutual

/-- Writes a node. -/
def node : Node → Writing Unit
  | .document cs => top cs
  | .heading level cs anchor => do
    let c ← surroundings
    emit (markup ("#heading(level: " ++ toString (headingLevel c level) ++ ", ["))
    under .heading (all cs)
    let c ← surroundings
    if c.inDocs then emit (markup "])\n")
    else
      let label := Heading.label ⟨level, cs, anchor⟩
      emit (markup "]) " >> ofPiece (.anchor (r.labels.id c.page label)) >> markup "\n\n")
  | .paragraph cs => do
    all cs
    let c ← surroundings
    emit (markup (if c.inBlock then "\n" else "\n\n"))
  | .list ordered items => around 0 (listItems 0 (listMarker 0 ordered) items)
  | .listItem cs => under .block (all cs)
  | .quote cs => do
    emit (markup "#quote[\n")
    under .block (all cs)
    emit (markup "]\n")
  | .admonition category title cs => do
    let kind := if admonitionKinds.contains category then category else "default"
    emit (markup ("#admonition(type: \"" ++ kind ++ "\", title: "))
    emit (literal title)
    emit (markup ")[\n")
    under .block (all cs)
    emit (markup "]\n")
  | .codeBlock code info => emit (codeBlock r.lexers code info)
  | .displayMath source => emit (markup "\n#mitex(" >> literal source >> markup ")\n\n")
  | .table columns rows => do
    emit (markup ("#align(center)[\n#table(\ncolumns: (" ++ repeated columns.length "1fr," ++
      "),\nalign: (x, y) => (" ++ alignments columns ++ ",).at(x),\n"))
    under .block (all rows)
    emit (markup ")]\n")
  | .tableRow cells => do
    all cells
    emit (markup "\n")
  | .tableCell cs => do
    emit (markup " [")
    all cs
    emit (markup "],")
  | .rule => emit (markup "#line(length: 100%)\n")
  | .raw target text =>
    emit (when (rawTargets.contains target) (markup "\n" >> markup text >> markup "\n\n"))
  | .footnote .. => pure ()
  | .binding name category cs page => do
    let c ← surroundings
    let id := r.labels.id (if page = "" then c.page else page) name
    emit (inlineCode id.name)
    emit (markup " ")
    emit (ofPiece (.anchor id))
    emit (markup ((if category = "" then "" else " -- " ++ category ++ ".") ++
      "\n\n#grid(columns: (2em, 1fr), [], [\n"))
    under .docs (bodies cs)
    emit (markup "])" >> markup "\n")
  | .index entries =>
    if entries.isEmpty then emit (markup "\n")
    else do
      emit (markup "\n\n")
      indexEntries entries
      emit (markup "\n\n")
  | .contents entries minLevel =>
    if entries.isEmpty then emit (markup "\n") else contentsEntries minLevel 1 entries
  | .text s => emit (prose s)
  | .strong cs => do
    emit (markup "#strong([")
    all cs
    emit (markup "])")
  | .emph cs => do
    emit (markup "#emph([")
    all cs
    emit (markup "])")
  | .code code => emit (markup " " >> inlineCode code >> markup " ")
  | .math source => emit (markup "#mi(" >> literal source >> markup ")")
  | .lineBreak => emit (markup "#linebreak()\n")
  | .softBreak => emit (markup "#linebreak(weak: true)")
  | .link destination cs => do
    let c ← surroundings
    if c.inHeading then all cs
    else
      let target ← given (linkTarget r.labels c.page destination)
      emit (ofPiece (.link target))
      emit (markup "[")
      all cs
      emit (markup "]")
  | .pageLink page fragment cs => do
    let id ← given (r.labels.resolve page fragment)
    emit (ofPiece (.link (.label id)))
    emit (markup "[")
    all cs
    emit (markup "]")
  | .image destination cs isLocal => do
    emit (markup "#align(center)[\n#figure(\nimage(\n")
    let c ← surroundings
    emit (imageCheck r c.page destination isLocal)
    emit (literal (imagePath c.page destination isLocal))
    emit (markup ", width: 100%, fit: \"contain\"),\ncaption: [\n")
    under .block (all cs)
    emit (markup "])]\n")
  | .footnoteMark id => do
    let c ← surroundings
    match c.notes.get? id with
    | none =>
      emit (notice (.missingFootnote id c.page) >> markup "#footnote[Missing footnote: " >>
        prose id >> markup "]")
    | some cs =>
      emit (markup "#footnote[")
      under .block (expand (footnoteText cs))
      emit (markup "]")
  | node => throw (.unsupported node)

/-- Writes nodes one after the other. -/
def all : List Node → Writing Unit
  | [] => pure ()
  | n :: rest => do
    node n
    all rest

/-- Writes nodes at page level. -/
def top : List Node → Writing Unit
  | [] => pure ()
  | n :: rest => do
    if n.isStructural then node n
    else
      emit (markup "\n")
      node n
      emit (markup "\n")
    top rest

/-- Writes the items of a list, each after the marker. -/
def listItems (depth : Nat) (marker : String) : List Node → Writing Unit
  | [] => pure ()
  | item :: rest => do
    emit (markup marker)
    listItem depth item
    listItems depth marker rest

/-- Writes the contents of an item. -/
def listItem (depth : Nat) : Node → Writing Unit
  | .document cs | .heading _ cs _ | .paragraph cs | .listItem cs | .quote cs
  | .admonition _ _ cs | .tableCell cs | .footnote _ cs | .contentsEntry _ _ _ cs | .strong cs
  | .emph cs | .link _ cs | .pageLink _ _ cs | .image _ cs _ => do
    under .block (parts depth false cs)
    emit (when cs.isEmpty (markup "\n"))
  | _ => under .block (throw .misplaced)

/-- Writes the parts of an item, a list inside it one step deeper. -/
def parts (depth : Nat) (further : Bool) : List Node → Writing Unit
  | [] => pure ()
  | .list ordered items :: rest => do
    emit (markup "\n")
    around (depth + 1) (listItems (depth + 1) (listMarker (depth + 1) ordered) items)
    parts depth true rest
  | n :: rest => do
    emit (when further (markup (repeated (depth + 1) "  ")))
    node n
    parts depth true rest

/-- Writes documentation bodies. -/
def bodies : List Node → Writing Unit
  | [] => pure ()
  | .body tree source :: rest => do
    emit (markup "\n")
    contentsOf tree
    emit (markup "\n")
    emit (match source with
      | some url => when (url ≠ "")
          (markup "\n" >> ofPiece (.link (.address url)) >> markup "[`source`]\n\n")
      | none => empty)
    bodies rest
  | _ :: _ => do
    emit (markup "\n")
    throw .misplaced

/-- Writes what stands directly in a node. -/
def contentsOf : Node → Writing Unit
  | .document cs | .heading _ cs _ | .paragraph cs | .listItem cs | .quote cs
  | .admonition _ _ cs | .tableCell cs | .footnote _ cs | .contentsEntry _ _ _ cs | .strong cs
  | .emph cs | .link _ cs | .pageLink _ _ cs | .image _ cs _ => all cs
  | _ => throw .misplaced

/-- Writes the entries of an index. -/
def indexEntries : List Node → Writing Unit
  | [] => pure ()
  | .indexEntry name page label :: rest => do
    emit (markup "- ")
    emit (ofPiece (.link (.label (r.labels.id page label))))
    emit (markup "[")
    emit (inlineCode name)
    emit (markup "]\n")
    indexEntries rest
  | _ :: _ => throw .misplaced

/-- Writes the entries of a table of contents below an entry at some depth. -/
def contentsEntries (minLevel : Int) (depth : Nat) : List Node → Writing Unit
  | [] => pure ()
  | .contentsEntry page label level cs :: rest => do
    let level := (level - minLevel + 1).toNat
    if level = 0 then contentsEntries minLevel depth rest
    else
      emit (placeholders depth level)
      emit (markup (repeated (level - 1) "  " ++ "- "))
      emit (ofPiece (.link (.label (r.labels.id page label))))
      emit (markup "[")
      all cs
      emit (markup "]\n")
      contentsEntries minLevel level rest
  | .heading level _ _ :: rest => do
    let level := (level - minLevel + 1).toNat
    if level = 0 then contentsEntries minLevel depth rest
    else
      emit (placeholders depth level)
      throw .misplaced
  | _ :: _ => throw .misplaced

end

end Nodes

/-- Writes nodes with footnotes nested at most so many times. -/
def upTo (r : Renderer) : Nat → List Node → Writing Unit
  | 0, _ => throw .circularFootnote
  | depth + 1, nodes => all r (upTo r depth) nodes

/-- Writes the texts of the footnotes of a session's page. -/
def footnotes (s : Session) : List Node → Writing Unit := upTo s.renderer s.context.notes.length

/-- Writes a node. -/
def render (n : Node) : Writing Unit := do
  let s ← get
  node s.renderer (footnotes s) n

/-- Writes nodes one after the other. -/
def renderChildren (nodes : List Node) : Writing Unit := do
  let s ← get
  all s.renderer (footnotes s) nodes

/-- Writes nodes at page level. -/
def renderTop (nodes : List Node) : Writing Unit := do
  let s ← get
  top s.renderer (footnotes s) nodes

/-- Writes the tree of a page. -/
def renderBody (tree : Node) : Writing Unit :=
  match tree.contents? with
  | some cs => renderTop cs
  | none => throw .misplaced

/-- The text of nodes, written apart. -/
def renderFragment (nodes : List Node) : Writing String :=
  apart do
    renderChildren nodes
    let s ← get
    pure s.text

end Writing

end Folio
