import Folio.Render.Image

/-!
# Writing nodes

Every kind of node has its markup. A footnote is written where it is referred to, so that writing a
node needs the way to write footnotes; the ways are built up from one that gives up, and since a
page with `n` footnotes nests at most `n` of them, giving up means that footnotes refer to each
other in a circle.
-/

namespace Folio

open Draft Text

/-- The deepest level of a heading. -/
def deepestHeading : Int := 7

/-- The kinds of admonition with a look of their own. -/
def admonitionKinds : List String := ["danger", "warning", "note", "info", "tip", "compat"]

/-- The names under which raw markup is meant for this program's output. -/
def rawTargets : List String := ["typst", "typ"]

/-- The children of a footnote as they are written: a single paragraph gives its own children. -/
def footnoteText : List Node → List Node
  | [.paragraph cs] => cs
  | cs => cs

/-- Code set inline. -/
def inlineCode (code : String) : Draft := markup "#raw(" >> literal code >> markup ", block: false)"

/-- Where the destination of a link leads. -/
def linkTarget (labels : Labels) (page destination : String) : Except Fault Target :=
  if isAbsoluteUrl destination then .ok (.address destination)
  else match cut? ".md#".toList destination.toList with
    | some (before, fragment) =>
      (labels.resolve (String.ofList before ++ ".md") (String.ofList fragment)).map .label
    | none =>
      match destination.toList with
      | '#' :: rest => (labels.resolve page (String.ofList (rest.dropWhile (· = '#')))).map .label
      | _ => .ok (.address destination)

/-- The level at which a heading is written. -/
def headingLevel (c : Context) (level : Int) : Int :=
  max (min (c.headingDepth + level - 1) deepestHeading) 1

/-- The alignments of a table's columns. -/
def alignments (columns : List (Option Alignment)) : String :=
  joinWith "," (columns.map fun
    | some .center => "center"
    | some .right => "right"
    | _ => "left")

/-- The bullets that keep the place of levels between two entries of a table of contents. -/
def placeholders (depth level : Nat) : Draft :=
  ((List.range' (depth + 1) (level - (depth + 1))).map fun missing =>
    markup (repeated (missing - 1) "  " ++ "-\n")).foldr (fun d rest => d >> rest) empty

/-- What stands before each item of a list. -/
def listMarker (depth : Nat) (ordered : Bool) : String :=
  repeated depth "  " ++ (if ordered then "+ " else "- ")

/-- A list around its items, at a depth below the outermost list that holds it. -/
def listAround (depth : Nat) (items : Draft) : Draft :=
  when (depth = 0) (markup "\n") >> items >> markup "\n"

/-- The documentation of a binding around its bodies; no line end follows it. -/
def bindingAround (id : LabelId) (category : String) (bodies : Draft) : Draft :=
  inlineCode id.name >> markup " " >> ofPiece (.anchor id) >>
    markup ((if category = "" then "" else " -- " ++ category ++ ".") ++
      "\n\n#grid(columns: (2em, 1fr), [], [\n") >>
    bodies >> markup "])"

/-- A block of code. -/
def codeBlock (lexers : Language.Lexers) (code info : String) : Draft :=
  if trim info = "math typst" then markup "\n$\n" >> markup code >> markup "\n$\n\n"
  else
    markup "\n#raw(" >> literal code >>
      markup (", block: true, lang: \"" ++ Language.ofInfo lexers info ++ "\")\n")

section Nodes

variable (r : Renderer) (expand : Context → List Node → Draft)

mutual

/-- A node. -/
def draftNode (c : Context) : Node → Draft
  | .document cs => draftTop c cs
  | .heading level cs anchor =>
    markup ("#heading(level: " ++ toString (headingLevel c level) ++ ", [") >>
      draftAll { c with inHeading := true } cs >>
      if c.inDocs then markup "])\n"
      else
        let label := Heading.label ⟨level, cs, anchor⟩
        markup "]) " >> ofPiece (.anchor (r.labels.id c.page label)) >> markup "\n\n"
  | .paragraph cs => draftAll c cs >> markup (if c.inBlock then "\n" else "\n\n")
  | .list ordered items => listAround 0 (draftItems c 0 (listMarker 0 ordered) items)
  | .listItem cs => draftAll c.block cs
  | .quote cs => markup "#quote[\n" >> draftAll c.block cs >> markup "]\n"
  | .admonition category title cs =>
    let kind := if admonitionKinds.contains category then category else "default"
    markup ("#admonition(type: \"" ++ kind ++ "\", title: ") >> literal title >> markup ")[\n" >>
      draftAll c.block cs >> markup "]\n"
  | .codeBlock code info => codeBlock r.lexers code info
  | .displayMath source => markup "\n#mitex(" >> literal source >> markup ")\n\n"
  | .table columns rows =>
    markup ("#align(center)[\n#table(\ncolumns: (" ++ repeated columns.length "1fr," ++
        "),\nalign: (x, y) => (" ++ alignments columns ++ ",).at(x),\n") >>
      draftAll c.block rows >> markup ")]\n"
  | .tableRow cells => draftAll c cells >> markup "\n"
  | .tableCell cs => markup " [" >> draftAll c cs >> markup "],"
  | .rule => markup "#line(length: 100%)\n"
  | .raw target text =>
    when (rawTargets.contains target) (markup "\n" >> markup text >> markup "\n\n")
  | .footnote .. => empty
  | .binding name category bodies page =>
    bindingAround (r.labels.id (if page = "" then c.page else page) name) category
      (draftBodies { c with inDocs := true } bodies) >> markup "\n"
  | .index entries =>
    if entries.isEmpty then markup "\n"
    else markup "\n\n" >> draftIndex entries >> markup "\n\n"
  | .contents entries minLevel =>
    if entries.isEmpty then markup "\n" else draftContents c minLevel 1 entries
  | .text s => prose s
  | .strong cs => markup "#strong([" >> draftAll c cs >> markup "])"
  | .emph cs => markup "#emph([" >> draftAll c cs >> markup "])"
  | .code code => markup " " >> inlineCode code >> markup " "
  | .math source => markup "#mi(" >> literal source >> markup ")"
  | .lineBreak => markup "#linebreak()\n"
  | .softBreak => markup "#linebreak(weak: true)"
  | .link destination cs =>
    if c.inHeading then draftAll c cs
    else ofExcept (linkTarget r.labels c.page destination) fun target =>
      ofPiece (.link target) >> markup "[" >> draftAll c cs >> markup "]"
  | .pageLink page fragment cs =>
    ofExcept (r.labels.resolve page fragment) fun id =>
      ofPiece (.link (.label id)) >> markup "[" >> draftAll c cs >> markup "]"
  | .image destination cs isLocal =>
    markup "#align(center)[\n#figure(\nimage(\n" >> imageCheck r c.page destination isLocal >>
      literal (imagePath c.page destination isLocal) >>
      markup ", width: 100%, fit: \"contain\"),\ncaption: [\n" >> draftAll c.block cs >>
      markup "])]\n"
  | .footnoteMark id =>
    match c.notes.get? id with
    | none =>
      notice (.missingFootnote id c.page) >> markup "#footnote[Missing footnote: " >> prose id >>
        markup "]"
    | some cs => markup "#footnote[" >> expand c.block (footnoteText cs) >> markup "]"
  | node => stop (.unsupported node)

/-- Nodes one after the other. -/
def draftAll (c : Context) : List Node → Draft
  | [] => empty
  | node :: rest => draftNode c node >> draftAll c rest

/-- Nodes at page level: all but the structural ones stand between line ends. -/
def draftTop (c : Context) : List Node → Draft
  | [] => empty
  | node :: rest =>
    (if node.isStructural then draftNode c node
      else markup "\n" >> draftNode c node >> markup "\n") >> draftTop c rest

/-- The items of a list, each after the marker. -/
def draftItems (c : Context) (depth : Nat) (marker : String) : List Node → Draft
  | [] => empty
  | item :: rest => markup marker >> draftItem c depth item >> draftItems c depth marker rest

/-- The contents of an item. -/
def draftItem (c : Context) (depth : Nat) : Node → Draft
  | .document cs | .heading _ cs _ | .paragraph cs | .listItem cs | .quote cs
  | .admonition _ _ cs | .tableCell cs | .footnote _ cs | .contentsEntry _ _ _ cs | .strong cs
  | .emph cs | .link _ cs | .pageLink _ _ cs | .image _ cs _ =>
    draftParts c.block depth false cs >> when cs.isEmpty (markup "\n")
  | _ => stop .misplaced

/-- The parts of an item: a list inside it goes one step deeper, and any other part but the first
is indented. -/
def draftParts (c : Context) (depth : Nat) (further : Bool) : List Node → Draft
  | [] => empty
  | .list ordered items :: rest =>
    markup "\n" >>
      listAround (depth + 1) (draftItems c (depth + 1) (listMarker (depth + 1) ordered) items) >>
      draftParts c depth true rest
  | node :: rest =>
    when further (markup (repeated (depth + 1) "  ")) >> draftNode c node >>
      draftParts c depth true rest

/-- Documentation bodies, each with a link to its source if it has one. -/
def draftBodies (c : Context) : List Node → Draft
  | [] => empty
  | .body tree source :: rest =>
    markup "\n" >> draftContentsOf c tree >> markup "\n" >>
      (match source with
        | some url => when (url ≠ "")
            (markup "\n" >> ofPiece (.link (.address url)) >> markup "[`source`]\n\n")
        | none => empty) >>
      draftBodies c rest
  | _ :: _ => markup "\n" >> stop .misplaced

/-- What stands directly in a node. -/
def draftContentsOf (c : Context) : Node → Draft
  | .document cs | .heading _ cs _ | .paragraph cs | .listItem cs | .quote cs
  | .admonition _ _ cs | .tableCell cs | .footnote _ cs | .contentsEntry _ _ _ cs | .strong cs
  | .emph cs | .link _ cs | .pageLink _ _ cs | .image _ cs _ => draftAll c cs
  | _ => stop .misplaced

/-- The entries of an index. -/
def draftIndex : List Node → Draft
  | [] => empty
  | .indexEntry name page label :: rest =>
    markup "- " >> ofPiece (.link (.label (r.labels.id page label))) >> markup "[" >>
      inlineCode name >> markup "]\n" >> draftIndex rest
  | _ :: _ => stop .misplaced

/-- The entries of a table of contents below an entry at some depth; entries and headings above the
smallest level are left out. -/
def draftContents (c : Context) (minLevel : Int) (depth : Nat) : List Node → Draft
  | [] => empty
  | .contentsEntry page label level cs :: rest =>
    let level := (level - minLevel + 1).toNat
    if level = 0 then draftContents c minLevel depth rest
    else
      placeholders depth level >>
        markup (repeated (level - 1) "  " ++ "- ") >>
        ofPiece (.link (.label (r.labels.id page label))) >> markup "[" >> draftAll c cs >>
        markup "]\n" >> draftContents c minLevel level rest
  | .heading level _ _ :: rest =>
    let level := (level - minLevel + 1).toNat
    if level = 0 then draftContents c minLevel depth rest
    else placeholders depth level >> stop .misplaced
  | _ :: _ => stop .misplaced

end

end Nodes

namespace Renderer

/-- Writes nodes with footnotes nested at most so many times. -/
def draftUpTo (r : Renderer) : Nat → Context → List Node → Draft
  | 0, _, _ => stop .circularFootnote
  | depth + 1, c, nodes => draftAll r (r.draftUpTo depth) c nodes

/-- Nodes one after the other. -/
def nodes (r : Renderer) (c : Context) (nodes : List Node) : Draft :=
  draftAll r (r.draftUpTo c.notes.length) c nodes

/-- A single node. -/
def node (r : Renderer) (c : Context) (node : Node) : Draft :=
  draftNode r (r.draftUpTo c.notes.length) c node

/-- The documentation of a binding, without a line end after it. -/
def binding (r : Renderer) (c : Context) (b : Binding) : Draft :=
  bindingAround (r.labels.id (if b.page = "" then c.page else b.page) b.name) b.category
    (draftBodies r (r.draftUpTo c.notes.length) { c with inDocs := true } b.bodies)

/-- Nodes at page level. -/
def body (r : Renderer) (c : Context) (nodes : List Node) : Draft :=
  draftTop r (r.draftUpTo c.notes.length) c nodes

/-- The tree of a page. -/
def tree (r : Renderer) (c : Context) (tree : Node) : Draft :=
  match tree.contents? with
  | some cs => r.body c cs
  | none => stop .misplaced

end Renderer

end Folio
