import Folio.Proofs.Draft.InOrder
import Folio.Proofs.Node.Fitting
import Folio.Proofs.Node.Unlinked
import Folio.Render

/-!
# The steps of writing a node

Each rule of writing takes steps in order: it writes pieces, asks the renderer for a label, an image
or a language, writes the text of a link or of a footnote, and hands smaller nodes on to the rules.
What every step keeps and what sequences keep is therefore kept by all that is written, by induction
on the passage that is handed on, whatever kinds of nodes there are.
-/

namespace Folio

open Text

/-- Nodes that are handed on to a rule of writing, with the surroundings that they are written
in. -/
inductive Passage
  | node (c : Context) (n : Node)
  | all (c : Context) (ns : List Node)
  | top (c : Context) (ns : List Node)
  | items (c : Context) (depth : Nat) (ordered : Bool) (ns : List Node)
  | item (c : Context) (depth : Nat) (n : Node)
  | parts (c : Context) (depth : Nat) (further : Bool) (ns : List Node)
  | bodies (c : Context) (ns : List Node)
  | contentsOf (c : Context) (n : Node)
  | index (c : Context) (ns : List Node)
  | contents (c : Context) (minLevel : Int) (depth : Nat) (ns : List Node)

/-- A step of a rule. -/
inductive Step
  | markup (text : String)
  | prose (text : String)
  | literal (payload : String)
  | stop (f : Fault)
  | code (code info : String)
  | image (page destination : String) (isLocal : Bool)
  /-- The end of a heading, with its label outside of documentation. -/
  | title (c : Context) (h : Heading)
  | anchor (page name : String)
  /-- The link that an entry of a listing or the source of a body is written as. -/
  | refer (c : Context) (n : Node)
  /-- A link of the text around its own text. -/
  | link (c : Context) (n : Node) (text : Passage)
  /-- A mark of a footnote. -/
  | mark (c : Context) (id : String)
  | passage (t : Passage)

/-- Where the link that a node is written as leads from a page. -/
def Node.destination (labels : Labels) (page : String) : Node → Except Fault Target
  | link destination _ => linkTarget labels page destination
  | pageLink page fragment _ => (labels.resolve page fragment).map .label
  | indexEntry _ page label | contentsEntry page label _ _ => .ok (.label (labels.id page label))
  | body _ (some url) => .ok (.address url)
  | n => .error (.unsupported n)

namespace Passage

/-- The surroundings of a passage. -/
def context : Passage → Context
  | node c _ | all c _ | top c _ | items c .. | item c .. | parts c .. | bodies c _ | contentsOf c _
  | index c _ | contents c .. => c

/-- The nodes of a passage. -/
def nodes : Passage → List Node
  | node _ n | item _ _ n | contentsOf _ n => [n]
  | all _ ns | top _ ns | items _ _ _ ns | parts _ _ _ ns | bodies _ ns | index _ ns
  | contents _ _ _ ns => ns

/-- What a rule makes of its passage. -/
def draft (r : Renderer) (expand : Context → List Node → Draft) : Passage → Draft
  | node c n => draftNode r expand c n
  | all c ns => draftAll r expand c ns
  | top c ns => draftTop r expand c ns
  | items c depth ordered ns => draftItems r expand c depth (listMarker depth ordered) ns
  | item c depth n => draftItem r expand c depth n
  | parts c depth further ns => draftParts r expand c depth further ns
  | bodies c ns => draftBodies r expand c ns
  | contentsOf c n => draftContentsOf r expand c n
  | index _ ns => draftIndex r expand ns
  | contents c minLevel depth ns => draftContents r expand c minLevel depth ns

end Passage

namespace Step

/-- Code set inline. -/
def codeInline (code : String) : List Step :=
  [markup "#raw(", literal code, markup ", block: false)"]

/-- The bullets that keep the place of levels. -/
def bullets (depth level : Nat) : List Step :=
  (List.range' (depth + 1) (level - (depth + 1))).map fun missing =>
    markup (repeated (missing - 1) "  " ++ "-\n")

/-- The link of a body to its source. -/
def source (c : Context) (tree : Node) : Option String → List Step
  | some url =>
    if url ≠ "" then [markup "\n", refer c (.body tree (some url)), markup "[`source`]\n\n"] else []
  | none => []

/-- What a step writes. -/
def draft (r : Renderer) (expand : Context → List Node → Draft) : Step → Draft
  | markup s => Draft.markup s
  | prose s => Draft.prose s
  | literal s => Draft.literal s
  | stop f => Draft.stop f
  | code s info => codeBlock r.lexers s info
  | image page destination isLocal => imageCheck r page destination isLocal
  | title c h =>
    if c.inDocs then Draft.markup "])\n"
    else Draft.markup "]) " >> .ofPiece (.anchor (r.labels.id c.page h.label)) >>
      Draft.markup "\n\n"
  | anchor page name => .ofPiece (.anchor (r.labels.id page name))
  | refer c n => .ofExcept (n.destination r.labels c.page) fun target => .ofPiece (.link target)
  | link c n text => .ofExcept (n.destination r.labels c.page) fun target =>
      .ofPiece (.link target) >> Draft.markup "[" >> text.draft r expand >> Draft.markup "]"
  | mark c id =>
    match c.notes.get? id with
    | none =>
      .notice (.missingFootnote id c.page) >> Draft.markup "#footnote[Missing footnote: " >>
        Draft.prose id >> Draft.markup "]"
    | some cs => Draft.markup "#footnote[" >> expand c.block (footnoteText cs) >> Draft.markup "]"
  | passage t => t.draft r expand

/-- The passages that a step hands on. -/
def passages : Step → List Passage
  | link _ _ t | passage t => [t]
  | _ => []

end Step

section Steps

open Step (markup prose literal stop title anchor refer mark passage codeInline bullets source)

/-- The steps of a node. -/
def Node.steps (c : Context) : Node → List Step
  | document cs => [passage (.top c cs)]
  | heading level cs given =>
    [markup ("#heading(level: " ++ toString (headingLevel c level) ++ ", ["),
      passage (.all { c with inHeading := true } cs), title c ⟨level, cs, given⟩]
  | paragraph cs => [passage (.all c cs), markup (if c.inBlock then "\n" else "\n\n")]
  | list ordered ns => [markup "\n", passage (.items c 0 ordered ns), markup "\n"]
  | listItem cs => [passage (.all c.block cs)]
  | quote cs => [markup "#quote[\n", passage (.all c.block cs), markup "]\n"]
  | admonition category caption cs =>
    [markup ("#admonition(type: \"" ++
        (if admonitionKinds.contains category then category else "default") ++ "\", title: "),
      literal caption, markup ")[\n", passage (.all c.block cs), markup "]\n"]
  | codeBlock s info => [.code s info]
  | displayMath s => [markup "\n#mitex(", literal s, markup ")\n\n"]
  | table columns rows =>
    [markup ("#align(center)[\n#table(\ncolumns: (" ++ repeated columns.length "1fr," ++
        "),\nalign: (x, y) => (" ++ alignments columns ++ ",).at(x),\n"),
      passage (.all c.block rows), markup ")]\n"]
  | tableRow cells => [passage (.all c cells), markup "\n"]
  | tableCell cs => [markup " [", passage (.all c cs), markup "],"]
  | rule => [markup "#line(length: 100%)\n"]
  | raw target s =>
    if rawTargets.contains target then [markup "\n", markup s, markup "\n\n"] else []
  | footnote .. => []
  | binding name category bodies page =>
    codeInline name ++ [markup " ", anchor (if page = "" then c.page else page) name,
      markup ((if category = "" then "" else " -- " ++ category ++ ".") ++
        "\n\n#grid(columns: (2em, 1fr), [], [\n"),
      passage (.bodies { c with inDocs := true } bodies), markup "])", markup "\n"]
  | index entries =>
    if entries.isEmpty then [markup "\n"]
    else [markup "\n\n", passage (.index c entries), markup "\n\n"]
  | contents entries minLevel =>
    if entries.isEmpty then [markup "\n"] else [passage (.contents c minLevel 1 entries)]
  | text s => [prose s]
  | strong cs => [markup "#strong([", passage (.all c cs), markup "])"]
  | emph cs => [markup "#emph([", passage (.all c cs), markup "])"]
  | code s => markup " " :: codeInline s ++ [markup " "]
  | math s => [markup "#mi(", literal s, markup ")"]
  | lineBreak => [markup "#linebreak()\n"]
  | softBreak => [markup "#linebreak(weak: true)"]
  | link destination cs =>
    if c.inHeading then [passage (.all c cs)] else [.link c (link destination cs) (.all c cs)]
  | pageLink page fragment cs => [.link c (pageLink page fragment cs) (.all c cs)]
  | image destination cs isLocal =>
    [markup "#align(center)[\n#figure(\nimage(\n", .image c.page destination isLocal,
      literal (imagePath c.page destination isLocal),
      markup ", width: 100%, fit: \"contain\"),\ncaption: [\n", passage (.all c.block cs),
      markup "])]\n"]
  | footnoteMark id => [mark c id]
  | node => [stop (.unsupported node)]

/-- The steps of a passage. -/
def Passage.steps : Passage → List Step
  | node c n => n.steps c
  | all _ [] | top _ [] | items _ _ _ [] | parts _ _ _ [] | bodies _ [] | index _ []
  | contents _ _ _ [] => []
  | all c (n :: rest) => [passage (node c n), passage (all c rest)]
  | top c (n :: rest) =>
    (if n.isStructural then [passage (node c n)]
      else [markup "\n", passage (node c n), markup "\n"]) ++ [passage (top c rest)]
  | items c depth ordered (n :: rest) =>
    [markup (listMarker depth ordered), passage (item c depth n),
      passage (items c depth ordered rest)]
  | item c depth n =>
    match n.contents? with
    | some cs => passage (parts c.block depth false cs) :: if cs.isEmpty then [markup "\n"] else []
    | none => [stop .misplaced]
  | parts c depth _ (.list ordered ns :: rest) =>
    [markup "\n", passage (items c (depth + 1) ordered ns), markup "\n",
      passage (parts c depth true rest)]
  | parts c depth further (n :: rest) =>
    (if further then [markup (repeated (depth + 1) "  ")] else []) ++
      [passage (node c n), passage (parts c depth true rest)]
  | bodies c (.body tree url :: rest) =>
    [markup "\n", passage (contentsOf c tree), markup "\n"] ++ source c tree url ++
      [passage (bodies c rest)]
  | bodies _ (_ :: _) => [markup "\n", stop .misplaced]
  | contentsOf c n =>
    match n.contents? with
    | some cs => [passage (all c cs)]
    | none => [stop .misplaced]
  | index c (.indexEntry name page label :: rest) =>
    [markup "- ", refer c (.indexEntry name page label), markup "["] ++ codeInline name ++
      [markup "]\n", passage (index c rest)]
  | index _ (_ :: _) => [stop .misplaced]
  | contents c minLevel depth (.contentsEntry page label level cs :: rest) =>
    let drawn := (level - minLevel + 1).toNat
    if drawn = 0 then [passage (contents c minLevel depth rest)]
    else
      bullets depth drawn ++ [markup (repeated (drawn - 1) "  " ++ "- "),
        refer c (.contentsEntry page label level cs), markup "[", passage (all c cs), markup "]\n",
        passage (contents c minLevel drawn rest)]
  | contents c minLevel depth (.heading level _ _ :: rest) =>
    let drawn := (level - minLevel + 1).toNat
    if drawn = 0 then [passage (contents c minLevel depth rest)]
    else bullets depth drawn ++ [stop .misplaced]
  | contents _ _ _ (_ :: _) => [stop .misplaced]

end Steps

open Draft

namespace Draft

variable (r : Renderer) (expand : Context → List Node → Draft)

/-- What steps write one after the other. -/
def ofSteps : List Step → Draft
  | [] => empty
  | s :: rest => s.draft r expand >> ofSteps rest

/-- Steps in two parts write the one part and then the other. -/
theorem ofSteps_append (ss ts : List Step) :
    ofSteps r expand (ss ++ ts) = ofSteps r expand ss >> ofSteps r expand ts := by
  induction ss with
  | nil => exact (empty_seq _).symm
  | cons s rest ih => rw [List.cons_append, ofSteps, ofSteps, ih, seq_assoc]

/-- The bullets of the missing levels are written as the rule of the table of contents writes
them. -/
theorem ofSteps_bullets (depth level : Nat) :
    ofSteps r expand (Step.bullets depth level) = placeholders depth level := by
  rw [Step.bullets, placeholders]
  induction List.range' (depth + 1) (level - (depth + 1)) with
  | nil => rfl
  | cons missing rest ih => exact congrArg (markup _ >> ·) ih

/-- Steps that are taken under a condition write nothing without it. -/
theorem ofSteps_if (condition : Prop) [Decidable condition] (ss : List Step) :
    ofSteps r expand (if condition then ss else []) = when condition (ofSteps r expand ss) := by
  by_cases h : condition
  · rw [if_pos h, when, if_pos (decide_eq_true h)]
  · rw [if_neg h, when, if_neg (by simpa using h)]
    rfl

end Draft

namespace Passage

variable (r : Renderer) (expand : Context → List Node → Draft)

/-- Writing a node takes its steps in order. -/
theorem draftNode_eq_ofSteps (c : Context) (n : Node) :
    draftNode r expand c n = ofSteps r expand (n.steps c) := by
  cases n with
  | raw target s =>
    rw [draftNode, Node.steps, ofSteps_if, Bool.decide_eq_true]
    simp only [ofSteps, Step.draft, seq_empty]
  | index entries =>
    rw [draftNode, Node.steps]
    split <;> simp only [ofSteps, Step.draft, Passage.draft, seq_empty]
  | contents entries minLevel =>
    rw [draftNode, Node.steps]
    split <;> simp only [ofSteps, Step.draft, Passage.draft, seq_empty]
  | link destination cs =>
    rw [draftNode, Node.steps]
    split <;> simp only [ofSteps, Step.draft, Passage.draft, seq_empty, Node.destination]
  | pageLink page fragment cs =>
    rw [draftNode, Node.steps]
    simp only [ofSteps, Step.draft, Passage.draft, seq_empty, Node.destination, ofExcept_map]
  | binding name category bodies page =>
    have hname (place : String) : (r.labels.id place name).name = name := rfl
    rw [draftNode, Node.steps, bindingAround, inlineCode, hname, Step.codeInline]
    simp only [List.cons_append, List.nil_append, ofSteps, Step.draft, Passage.draft, seq_empty,
      Draft.seq_assoc]
  | code s =>
    rw [draftNode, Node.steps, inlineCode, Step.codeInline]
    simp only [List.cons_append, List.nil_append, ofSteps, Step.draft, seq_empty, Draft.seq_assoc]
  | footnoteMark id =>
    cases hnote : c.notes.get? id <;>
      simp only [draftNode, Node.steps, ofSteps, Step.draft, hnote, seq_empty]
  | list ordered ns =>
    exact congrArg (Draft.markup "\n" >> draftItems r expand c 0 (listMarker 0 ordered) ns >> ·)
      (seq_empty _).symm
  | body tree source => rfl
  | indexEntry name page label => rfl
  | contentsEntry page label level cs => rfl
  | footnote id cs => rfl
  | _ =>
    rw [draftNode, Node.steps]
    simp only [ofSteps, Step.draft, Passage.draft, seq_empty]

/-- Every rule takes its steps in order. -/
theorem draft_eq (t : Passage) : t.draft r expand = ofSteps r expand t.steps := by
  cases t with
  | node c n => exact draftNode_eq_ofSteps r expand c n
  | all c ns =>
    cases ns with
    | nil => rfl
    | cons n rest =>
      rw [draft, draftAll, steps]
      simp only [ofSteps, Step.draft, draft, seq_empty]
  | top c ns =>
    cases ns with
    | nil => rfl
    | cons n rest =>
      rw [draft, draftTop, steps, ofSteps_append]
      split <;> simp only [ofSteps, Step.draft, draft, seq_empty]
  | items c depth ordered ns =>
    cases ns with
    | nil => rfl
    | cons n rest =>
      rw [draft, draftItems, steps]
      simp only [ofSteps, Step.draft, draft, seq_empty]
  | item c depth n =>
    have hcontents : draftItem r expand c depth n = match n.contents? with
        | some cs => draftParts r expand c.block depth false cs >> when cs.isEmpty (markup "\n")
        | none => Draft.stop .misplaced := by
      cases n <;> rfl
    rw [draft, hcontents, steps]
    cases n.contents? with
    | none => rfl
    | some cs =>
      change _ = draftParts r expand c.block depth false cs >> ofSteps r expand _
      rw [ofSteps_if, Bool.decide_eq_true]
      simp only [ofSteps, Step.draft, seq_empty]
  | parts c depth further ns =>
    cases ns with
    | nil => rfl
    | cons n rest =>
      cases n with
      | list ordered ns =>
        rw [draft, draftParts, steps, listAround, when, if_neg (by simp), empty_seq]
        simp only [ofSteps, Step.draft, draft, seq_empty, Draft.seq_assoc]
      | _ =>
        simp only [draft, draftParts, steps, ofSteps_append, ofSteps_if, Bool.decide_eq_true,
          ofSteps, Step.draft, seq_empty]
  | bodies c ns =>
    cases ns with
    | nil => rfl
    | cons n rest =>
      cases n with
      | body tree url =>
        cases url with
        | none =>
          simp only [draft, draftBodies, steps, Step.source, ofSteps_append, ofSteps, Step.draft,
            seq_empty, empty_seq, Draft.seq_assoc]
        | some url =>
          simp only [draft, draftBodies, steps, Step.source, ofSteps_append, ofSteps_if, ofSteps,
            Step.draft, Node.destination, Draft.ofExcept, seq_empty, Draft.seq_assoc]
      | _ => rfl
  | contentsOf c n =>
    have hcontents : draftContentsOf r expand c n = match n.contents? with
        | some cs => draftAll r expand c cs
        | none => Draft.stop .misplaced := by
      cases n <;> rfl
    rw [draft, hcontents, steps]
    cases n.contents? with
    | none => rfl
    | some cs => exact (seq_empty _).symm
  | index c ns =>
    cases ns with
    | nil => rfl
    | cons n rest =>
      cases n with
      | indexEntry name page label =>
        rw [draft, draftIndex, steps, inlineCode, Step.codeInline]
        simp only [List.cons_append, List.nil_append, ofSteps, Step.draft, Node.destination,
          Draft.ofExcept, draft, seq_empty, Draft.seq_assoc]
      | _ => rfl
  | contents c minLevel depth ns =>
    cases ns with
    | nil => rfl
    | cons n rest =>
      cases n with
      | contentsEntry page label level cs =>
        rw [draft, draftContents, steps]
        split
        · simp only [ofSteps, Step.draft, draft, seq_empty]
        · rw [ofSteps_append, ofSteps_bullets]
          simp only [ofSteps, Step.draft, Node.destination, Draft.ofExcept, draft, seq_empty]
      | heading level cs given =>
        rw [draft, draftContents, steps]
        split
        · simp only [ofSteps, Step.draft, draft, seq_empty]
        · rw [ofSteps_append, ofSteps_bullets]
          simp only [ofSteps, Step.draft, seq_empty]
      | _ => rfl

end Passage

/-- Surroundings on the same page that are inside a heading if the first ones are. -/
structure Context.Within (c c' : Context) : Prop where
  page : c'.page = c.page
  notes : c'.notes = c.notes
  inHeading : c.inHeading = true → c'.inHeading = true

namespace Context.Within

variable {c c' c'' : Context}

theorem refl (c : Context) : c.Within c := ⟨rfl, rfl, id⟩

/-- Surroundings that are changed twice are still on the page. -/
theorem trans (h : c.Within c') (h' : c'.Within c'') : c.Within c'' where
  page := h'.page.trans h.page
  notes := h'.notes.trans h.notes
  inHeading := fun hin => h'.inHeading (h.inHeading hin)

/-- Both surroundings may enter a block. -/
theorem block (h : c.Within c') : c.block.Within c'.block := ⟨h.page, h.notes, h.inHeading⟩

theorem heading (h : c.Within c') :
    Within { c with inHeading := true } { c' with inHeading := true } :=
  ⟨h.page, h.notes, fun _ => rfl⟩

/-- Both surroundings may enter documentation. -/
theorem docs (h : c.Within c') : Within { c with inDocs := true } { c' with inDocs := true } :=
  ⟨h.page, h.notes, h.inHeading⟩

end Context.Within

namespace Passage

/-- Whether a passage is a single node. -/
def isSingle : Passage → Bool
  | node .. | item .. | contentsOf .. => true
  | _ => false

/-- Whether a rule may hand on a passage: what stands in its first node, its further nodes, or the
first of several nodes alone. -/
structure Hands (t t' : Passage) : Prop where
  context : t.context.Within t'.context
  nodes : ∃ n rest, t.nodes = n :: rest ∧ (t'.nodes = n.inside ∨ t'.nodes = rest ∨
    t'.nodes = [n] ∧ t'.isSingle = true ∧ t.isSingle = false)

end Passage

namespace Passage.Hands

variable {t t' : Passage} {n : Node} {rest : List Node} (hc : t.context.Within t'.context)
  (hn : t.nodes = n :: rest)

include hc hn

/-- What stands in the first node may be handed on. -/
theorem inside (h : t'.nodes = n.inside) : t.Hands t' := ⟨hc, n, rest, hn, .inl h⟩

/-- The nodes behind the first one may be handed on. -/
theorem later (h : t'.nodes = rest) : t.Hands t' := ⟨hc, n, rest, hn, .inr (.inl h)⟩

/-- The first of several nodes may be handed on alone. -/
theorem first (h : t'.nodes = [n]) (ht' : t'.isSingle = true) (ht : t.isSingle = false) :
    t.Hands t' :=
  ⟨hc, n, rest, hn, .inr (.inr ⟨h, ht', ht⟩)⟩

end Passage.Hands

namespace Step

/-- Whether all steps have a property. -/
def All (P : Step → Prop) (ss : List Step) : Prop := ∀ s ∈ ss, P s

variable {P : Step → Prop} {s : Step} {ss ss' : List Step}

theorem all_nil : All P [] := fun _ hs => absurd hs List.not_mem_nil

theorem all_singleton : All P [s] ↔ P s := List.forall_mem_singleton

theorem all_cons : All P (s :: ss) ↔ P s ∧ All P ss := List.forall_mem_cons

theorem all_append : All P (ss ++ ss') ↔ All P ss ∧ All P ss' := List.forall_mem_append

/-- The bullets are markup, whatever levels are missing. -/
theorem all_bullets {depth level : Nat} (h : ∀ text, P (.markup text)) :
    All P (bullets depth level) := by
  rw [All, bullets, List.forall_mem_map]
  exact fun _ _ => h _

/-- Inline code is the markup around its argument. -/
theorem all_codeInline {code : String} (h : ∀ text, P (.markup text)) (hcode : P (.literal code)) :
    All P (codeInline code) :=
  all_cons.mpr ⟨h _, all_cons.mpr ⟨hcode, all_singleton.mpr (h _)⟩⟩

/-- The link to a source stands between markup. -/
theorem all_source {c : Context} {tree : Node} {url : Option String} (h : ∀ text, P (.markup text))
    (hurl : ∀ s, url = some s → P (.refer c (.body tree url))) : All P (source c tree url) := by
  cases url with
  | none => exact all_nil
  | some url =>
    rw [source]
    split
    · exact all_cons.mpr ⟨h _, all_cons.mpr ⟨hurl url rfl, all_singleton.mpr (h _)⟩⟩
    · exact all_nil

end Step

/-- Whether a step may be taken for a passage: what it is about comes from the nodes of the passage
and from the surroundings. -/
def Step.IsOf (t : Passage) : Step → Prop
  | code s info => .codeBlock s info ∈ t.nodes
  | image page destination isLocal =>
    page = t.context.page ∧ ∃ cs, .image destination cs isLocal ∈ t.nodes
  | title c h => c = t.context ∧ .heading h.level h.children h.anchor ∈ t.nodes
  | refer c n => c = t.context ∧ n ∈ t.nodes ∧ n.isLink = false
  | link c n t' => c = t.context ∧ n ∈ t.nodes ∧ (n.isLink = true → c.inHeading = false) ∧
      t.Hands t'
  | mark c id => c = t.context ∧ .footnoteMark id ∈ t.nodes
  | passage t' => t.Hands t'
  | _ => True

namespace Passage

open Step (all_nil all_singleton all_cons all_append)

/-- The steps of a node are about the node and hand on what stands in it. -/
theorem isOf_node_steps (c : Context) (n : Node) :
    Step.All (Step.IsOf (node c n)) (n.steps c) := by
  have hinside {t' : Passage} (hc : c.Within t'.context) (h : t'.nodes = n.inside) :
      (node c n).Hands t' := ⟨hc, n, [], rfl, .inl h⟩
  have hself : n ∈ (node c n).nodes := List.mem_cons_self
  cases n with
  | heading level cs given =>
    simp only [Node.steps, all_cons, all_nil, Step.IsOf, true_and, and_true]
    exact ⟨hinside ⟨rfl, rfl, fun _ => rfl⟩ rfl, rfl, hself⟩
  | raw target s =>
    rw [Node.steps]
    split <;> simp only [all_cons, all_nil, Step.IsOf, and_true]
  | index entries =>
    rw [Node.steps]
    split <;> simp only [all_cons, all_nil, Step.IsOf, true_and, and_true]
    exact hinside ⟨rfl, rfl, id⟩ rfl
  | contents entries minLevel =>
    rw [Node.steps]
    split <;> simp only [all_cons, all_nil, Step.IsOf, and_true]
    exact hinside ⟨rfl, rfl, id⟩ rfl
  | link destination cs =>
    have hcs : (node c (.link destination cs)).Hands (all c cs) := hinside ⟨rfl, rfl, id⟩ rfl
    rw [Node.steps]
    split <;> simp only [all_cons, all_nil, Step.IsOf, and_true]
    · exact hcs
    · next hin => exact ⟨rfl, hself, fun _ => Bool.eq_false_iff.mpr hin, hcs⟩
  | pageLink page fragment cs =>
    simp only [Node.steps, all_cons, all_nil, Step.IsOf, and_true]
    exact ⟨rfl, hself, nofun, hinside ⟨rfl, rfl, id⟩ rfl⟩
  | image destination cs isLocal =>
    simp only [Node.steps, all_cons, all_nil, Step.IsOf, true_and, and_true]
    exact ⟨⟨rfl, cs, hself⟩, hinside ⟨rfl, rfl, id⟩ rfl⟩
  | codeBlock code info => exact all_singleton.mpr hself
  | footnoteMark id => exact all_singleton.mpr ⟨rfl, hself⟩
  | binding name category bodies page =>
    rw [Node.steps, all_append]
    simp only [all_cons, all_nil, Step.IsOf, true_and, and_true]
    exact ⟨Step.all_codeInline (fun _ => trivial) trivial, hinside ⟨rfl, rfl, id⟩ rfl⟩
  | code s =>
    rw [Node.steps, all_append, all_cons]
    simp only [all_cons, all_nil, Step.IsOf, true_and, and_true]
    exact Step.all_codeInline (fun _ => trivial) trivial
  | displayMath | rule | footnote | text | math | lineBreak | softBreak | body | indexEntry
  | contentsEntry =>
    simp only [Node.steps, all_cons, all_nil, Step.IsOf, and_true]
  | _ =>
    simp only [Node.steps, all_cons, all_nil, Step.IsOf, true_and, and_true]
    exact hinside ⟨rfl, rfl, id⟩ rfl

/-- The steps of a passage are about its nodes and hand on smaller passages. -/
theorem isOf_steps (t : Passage) : Step.All (Step.IsOf t) t.steps := by
  cases t with
  | node c n => exact isOf_node_steps c n
  | item c depth n =>
    rw [steps]
    cases hcs : n.contents? with
    | none => exact all_singleton.mpr trivial
    | some cs =>
      have hparts : (item c depth n).Hands (parts c.block depth false cs) :=
        ⟨⟨rfl, rfl, id⟩, n, [], rfl, .inl (Node.inside_of_contents? hcs).symm⟩
      refine all_cons.mpr ⟨hparts, ?_⟩
      split <;> simp only [all_cons, all_nil, Step.IsOf, and_true]
  | contentsOf c n =>
    rw [steps]
    cases hcs : n.contents? with
    | none => exact all_singleton.mpr trivial
    | some cs =>
      exact all_singleton.mpr
        ⟨⟨rfl, rfl, id⟩, n, [], rfl, .inl (Node.inside_of_contents? hcs).symm⟩
  | all c ns =>
    cases ns with
    | nil => exact all_nil
    | cons n rest =>
      exact all_cons.mpr ⟨.first (.refl c) rfl rfl rfl rfl,
        all_singleton.mpr (.later (.refl c) rfl rfl)⟩
  | top c ns =>
    cases ns with
    | nil => exact all_nil
    | cons n rest =>
      have hn : (top c (n :: rest)).Hands (node c n) := .first (.refl c) rfl rfl rfl rfl
      rw [steps, all_append]
      refine ⟨?_, all_singleton.mpr (.later (.refl c) rfl rfl)⟩
      split <;> simp only [all_cons, all_nil, Step.IsOf, true_and, and_true] <;> exact hn
  | items c depth ordered ns =>
    cases ns with
    | nil => exact all_nil
    | cons n rest =>
      exact all_cons.mpr ⟨trivial, all_cons.mpr
        ⟨.first (.refl c) rfl rfl rfl rfl,
          all_singleton.mpr (.later (.refl c) rfl rfl)⟩⟩
  | parts c depth further ns =>
    cases ns with
    | nil => exact all_nil
    | cons n rest =>
      have hrest : (parts c depth further (n :: rest)).Hands (parts c depth true rest) :=
        .later (.refl c) rfl rfl
      cases n with
      | list ordered ns =>
        simp only [steps, all_cons, all_nil, Step.IsOf, true_and, and_true]
        exact ⟨.inside (.refl c) rfl rfl, hrest⟩
      | _ =>
        refine all_append.mpr ⟨?_, all_cons.mpr
          ⟨.first (.refl c) rfl rfl rfl rfl, all_singleton.mpr hrest⟩⟩
        split <;> simp only [all_cons, all_nil, Step.IsOf, and_true]
  | bodies c ns =>
    cases ns with
    | nil => exact all_nil
    | cons n rest =>
      cases n with
      | body tree url =>
        have htree : (bodies c (.body tree url :: rest)).Hands (contentsOf c tree) :=
          .inside (.refl c) rfl rfl
        rw [steps, all_append, all_append]
        simp only [all_cons, all_nil, Step.IsOf, true_and, and_true]
        have hsource : Step.All (Step.IsOf (bodies c (.body tree url :: rest)))
            (Step.source c tree url) :=
          Step.all_source (fun _ => trivial) fun _ _ => ⟨rfl, List.mem_cons_self, rfl⟩
        exact ⟨⟨htree, hsource⟩, .later (.refl c) rfl rfl⟩
      | _ =>
        simp only [steps, all_cons, all_nil, Step.IsOf, and_true]
  | index c ns =>
    cases ns with
    | nil => exact all_nil
    | cons n rest =>
      cases n with
      | indexEntry name page label =>
        rw [steps, all_append, all_append]
        simp only [all_cons, all_nil, Step.IsOf, true_and, and_true]
        exact ⟨⟨⟨rfl, List.mem_cons_self, rfl⟩, Step.all_codeInline (fun _ => trivial) trivial⟩,
          .later (.refl c) rfl rfl⟩
      | _ => exact all_singleton.mpr trivial
  | contents c minLevel depth ns =>
    cases ns with
    | nil => exact all_nil
    | cons n rest =>
      have hrest (drawn : Nat) :
          (contents c minLevel depth (n :: rest)).Hands (contents c minLevel drawn rest) :=
        .later (.refl c) rfl rfl
      cases n with
      | contentsEntry page label level cs =>
        rw [steps]
        split
        · exact all_singleton.mpr (hrest depth)
        · simp only [all_append, all_cons, all_nil, Step.IsOf, true_and, and_true]
          exact ⟨Step.all_bullets fun _ => trivial, ⟨rfl, List.mem_cons_self, rfl⟩,
            .inside (.refl c) rfl rfl, hrest _⟩
      | heading level cs given =>
        rw [steps]
        split
        · exact all_singleton.mpr (hrest depth)
        · exact all_append.mpr ⟨Step.all_bullets fun _ => trivial,
            all_singleton.mpr trivial⟩
      | _ => exact all_singleton.mpr trivial

/-- The passages that a rule hands on. -/
def within (t : Passage) : List Passage := t.steps.flatMap Step.passages

/-- Whatever a step passes to a rule is handed on. -/
theorem hands_of_mem_within {t t' : Passage} (h : t' ∈ t.within) : t.Hands t' := by
  obtain ⟨s, hs, ht'⟩ := List.mem_flatMap.mp h
  have hof := isOf_steps t s hs
  cases s with
  | link c n text =>
    obtain rfl := List.mem_singleton.mp ht'
    exact hof.2.2.2
  | passage text =>
    obtain rfl := List.mem_singleton.mp ht'
    exact hof
  | _ => cases ht'

/-- What a passage weighs: the nodes that it is about, and a passage of several nodes more than one
of a single node. -/
def weight (t : Passage) : Nat := 2 * (Node.partsAll t.nodes).length + if t.isSingle then 0 else 1

/-- Passages that are handed on weigh less, so that writing comes to an end. -/
theorem Hands.weight_lt {t t' : Passage} (h : t.Hands t') : t'.weight < t.weight := by
  obtain ⟨-, n, rest, hn, h⟩ := h
  have hparts : (Node.partsAll t.nodes).length =
      1 + (Node.partsAll n.inside).length + (Node.partsAll rest).length := by
    rw [hn, Node.partsAll, List.length_append, Node.parts_eq, List.length_cons]
    omega
  rw [weight, weight, hparts]
  rcases h with h | h | ⟨h, ht', ht⟩
  · rw [h]
    split <;> omega
  · rw [h]
    split <;> omega
  · have hfirst : (Node.partsAll [n]).length = 1 + (Node.partsAll n.inside).length := by
      rw [Node.partsAll, Node.partsAll, List.append_nil, Node.parts_eq, List.length_cons]
      omega
    rw [h, hfirst, ht', ht]
    simp only [if_true, Bool.false_eq_true, if_false]
    omega

/-- What a passage is about holds all that the passages handed on are about. -/
theorem Hands.partsAll_subset {t t' : Passage} (h : t.Hands t') :
    Node.partsAll t'.nodes ⊆ Node.partsAll t.nodes := by
  obtain ⟨-, n, rest, hn, h⟩ := h
  rw [hn, Node.partsAll, Node.parts_eq]
  rcases h with h | h | ⟨h, -, -⟩
  · rw [h]
    exact List.Subset.trans (List.subset_cons_self ..) (List.subset_append_left ..)
  · rw [h]
    exact List.subset_append_right ..
  · rw [h, Node.partsAll, Node.partsAll, List.append_nil, Node.parts_eq]
    exact List.subset_append_left ..

/-- What holds of a passage if it holds of the passages that its rule hands on holds of all
passages. -/
@[elab_as_elim, induction_eliminator]
theorem induction {motive : Passage → Prop} (rule : ∀ t, (∀ t' ∈ t.within, motive t') → motive t)
    (t : Passage) : motive t :=
  rule t fun t' _ => induction rule t'
termination_by t.weight
decreasing_by exact (hands_of_mem_within ‹_›).weight_lt

end Passage

/-- Whether a step writes a text of its own and nothing else. -/
def Step.IsPlain : Step → Prop
  | markup _ | prose _ | literal _ | code .. | title .. | anchor .. => True
  | _ => False

/-- No plain step meets a fault. -/
theorem Step.fault_draft_of_isPlain (r : Renderer) (expand : Context → List Node → Draft) {s : Step}
    (h : s.IsPlain) : (s.draft r expand).fault = none := by
  cases s with
  | markup | prose | literal | anchor => rfl
  | code s info =>
    rw [draft, codeBlock]
    split <;> rfl
  | title c h =>
    rw [draft]
    split <;> rfl
  | _ => cases h

/-- The text of a footnote has no parts but those of the footnote. -/
theorem Node.partsAll_footnoteText_subset (cs : List Node) :
    partsAll (footnoteText cs) ⊆ partsAll cs := by
  unfold footnoteText
  split
  · rw [partsAll, partsAll, List.append_nil, parts]
    exact List.subset_cons_self ..
  · exact List.Subset.refl _

/-! ### What is gathered -/

/-- Whether the lists of passages and those of steps are put together as the rules are. The rule for
a single node is left open. -/
structure Passage.Gathers {α : Type} (f : Passage → List α) (g : Step → List α) : Prop where
  handed : ∀ t, g (.passage t) = f t
  markup : ∀ text, g (.markup text) = []
  literal : ∀ payload, g (.literal payload) = []
  stop : ∀ fault, g (.stop fault) = []
  nil : ∀ t, t.nodes = [] → f t = []
  consAll : ∀ c n rest, f (all c (n :: rest)) = f (node c n) ++ f (all c rest)
  consTop : ∀ c n rest, f (top c (n :: rest)) = f (node c n) ++ f (top c rest)
  consItems : ∀ c depth ordered n rest, f (items c depth ordered (n :: rest)) =
    f (item c depth n) ++ f (items c depth ordered rest)
  ofItem : ∀ c depth n cs, n.contents? = some cs →
    f (item c depth n) = f (parts c.block depth false cs)
  consList : ∀ c depth further ordered ns rest,
    f (parts c depth further (.list ordered ns :: rest)) =
      f (items c (depth + 1) ordered ns) ++ f (parts c depth true rest)
  consParts : ∀ c depth further n rest, f (parts c depth further (n :: rest)) =
    f (node c n) ++ f (parts c depth true rest)
  consBodies : ∀ c tree url rest, f (bodies c (.body tree url :: rest)) =
    f (contentsOf c tree) ++ ((Step.source c tree url).flatMap g ++ f (bodies c rest))
  ofContents : ∀ c n cs, n.contents? = some cs → f (contentsOf c n) = f (all c cs)
  consIndex : ∀ c name page label rest, f (index c (.indexEntry name page label :: rest)) =
    g (.refer c (.indexEntry name page label)) ++ f (index c rest)
  consEntry : ∀ c minLevel depth page label level cs rest,
    f (contents c minLevel depth (.contentsEntry page label level cs :: rest)) =
      if (level - minLevel + 1).toNat = 0 then f (contents c minLevel depth rest)
      else g (.refer c (.contentsEntry page label level cs)) ++
        (f (all c cs) ++ f (contents c minLevel (level - minLevel + 1).toNat rest))
  consHeading : ∀ c minLevel depth level cs given rest,
    f (contents c minLevel depth (.heading level cs given :: rest)) =
      f (contents c minLevel depth rest)

/-- The list of a passage is that of the steps, or there are none and the steps stop. -/
theorem Passage.Gathers.eq_or_stops {α : Type} {f : Passage → List α} {g : Step → List α}
    (h : Gathers f g) {t : Passage}
    (hnode : ∀ c n, t = .node c n → f t = (n.steps c).flatMap g) :
    f t = t.steps.flatMap g ∨ t.steps.flatMap g = [] ∧ ∃ fault, .stop fault ∈ t.steps := by
  have hbullets (depth level : Nat) : (Step.bullets depth level).flatMap g = [] :=
    List.flatMap_eq_nil_iff.mpr (Step.all_bullets h.markup)
  -- A rule stops only at a node of another kind than it is for, and hands on nothing then.
  cases t with
  | node c n => exact .inl (hnode c n rfl)
  | all c ns =>
    left
    cases ns with
    | nil => exact h.nil _ rfl
    | cons n rest => simp [steps, h.consAll, h.handed]
  | top c ns =>
    left
    cases ns with
    | nil => exact h.nil _ rfl
    | cons n rest =>
      rw [steps, h.consTop]
      split <;> simp [h.handed, h.markup]
  | items c depth ordered ns =>
    left
    cases ns with
    | nil => exact h.nil _ rfl
    | cons n rest => simp [steps, h.consItems, h.handed, h.markup]
  | item c depth n =>
    rw [steps]
    cases hcs : n.contents? with
    | none => exact .inr ⟨by simp [h.stop], _, List.mem_singleton_self _⟩
    | some cs =>
      left
      rw [h.ofItem c depth n cs hcs]
      cases cs <;> simp [h.handed, h.markup]
  | parts c depth further ns =>
    left
    cases ns with
    | nil => exact h.nil _ rfl
    | cons n rest =>
      cases n with
      | list ordered ns => simp [steps, h.consList, h.handed, h.markup]
      | _ => cases further <;> simp [steps, h.consParts, h.handed, h.markup]
  | bodies c ns =>
    cases ns with
    | nil => exact .inl (h.nil _ rfl)
    | cons n rest =>
      cases n with
      | body tree url => exact .inl (by simp [steps, h.consBodies, h.handed, h.markup])
      | _ => exact .inr ⟨by simp [steps, h.markup, h.stop], _, List.mem_cons_of_mem _ (.head _)⟩
  | contentsOf c n =>
    rw [steps]
    cases hcs : n.contents? with
    | none => exact .inr ⟨by simp [h.stop], _, List.mem_singleton_self _⟩
    | some cs => exact .inl (by simp [h.ofContents c n cs hcs, h.handed])
  | index c ns =>
    cases ns with
    | nil => exact .inl (h.nil _ rfl)
    | cons n rest =>
      cases n with
      | indexEntry name page label =>
        exact .inl (by simp [steps, Step.codeInline, h.consIndex, h.handed, h.markup, h.literal])
      | _ => exact .inr ⟨by simp [steps, h.stop], _, List.mem_singleton_self _⟩
  | contents c minLevel depth ns =>
    cases ns with
    | nil => exact .inl (h.nil _ rfl)
    | cons n rest =>
      cases n with
      | contentsEntry page label level cs =>
        left
        rw [steps, h.consEntry]
        split <;> simp [hbullets, h.handed, h.markup]
      | heading level cs given =>
        rw [steps]
        split
        · exact .inl (by simp [h.consHeading, h.handed])
        · exact .inr ⟨by simp [hbullets, h.stop], _, List.mem_append_right _ (.head _)⟩
      | _ => exact .inr ⟨by simp [steps, h.stop], _, List.mem_singleton_self _⟩

/-! ### What is kept -/

/-- Whether a property of drafts is kept in sequence. -/
structure Draft.Closed (P : Draft → Prop) : Prop where
  empty : P .empty
  seq : ∀ {a b}, P a → P b → P (a >> b)

/-- Whether a relation of drafts to lists adds up in sequence, and a draft that ends with a fault is
related to any list if it is to the empty one. -/
structure Draft.Additive {α : Type} (R : List α → Draft → Prop) : Prop where
  nil : R [] .empty
  append : ∀ {xs ys a b}, R xs a → R ys b → R (xs ++ ys) (a >> b)
  stop : ∀ {xs d}, d.fault ≠ none → R [] d → R xs d

section Kept

variable {r : Renderer} {expand : Context → List Node → Draft}

/-- What steps keep is kept by all of them together. -/
theorem Draft.Closed.ofSteps {P : Draft → Prop} (hP : Closed P) {ss : List Step}
    (h : ∀ s ∈ ss, P (s.draft r expand)) : P (ofSteps r expand ss) := by
  induction ss with
  | nil => exact hP.empty
  | cons s rest ih =>
    obtain ⟨hs, hrest⟩ := List.forall_mem_cons.mp h
    exact hP.seq hs (ih hrest)

/-- The lists of the steps, one behind the other, are that of what they write. -/
theorem Draft.Additive.ofSteps {α : Type} {R : List α → Draft → Prop} (hR : Additive R)
    {ofStep : Step → List α} {ss : List Step} (h : ∀ s ∈ ss, R (ofStep s) (s.draft r expand)) :
    R (ss.flatMap ofStep) (ofSteps r expand ss) := by
  induction ss with
  | nil => exact hR.nil
  | cons s rest ih =>
    obtain ⟨hs, hrest⟩ := List.forall_mem_cons.mp h
    rw [List.flatMap_cons]
    exact hR.append hs (ih hrest)

/-- Behind a step that stops, writing does not come to an end. -/
theorem Draft.fault_ofSteps_ne_none {f : Fault} {ss : List Step} (h : .stop f ∈ ss) :
    (ofSteps r expand ss).fault ≠ none := by
  induction ss with
  | nil => cases h
  | cons s rest ih =>
    rw [Draft.ofSteps, Ne, fault_seq_eq_none]
    rcases List.mem_cons.mp h with rfl | h
    · exact fun hnone => nomatch hnone.1
    · exact fun hnone => ih h hnone.2

/-- A list is that of the steps, or there are none and the steps do not come to an end. -/
theorem Draft.Additive.of_steps {α : Type} {R : List α → Draft → Prop} (hR : Additive R)
    {ofStep : Step → List α} {ss : List Step} {xs : List α}
    (hxs : xs = ss.flatMap ofStep ∨ ss.flatMap ofStep = [] ∧ ∃ f, .stop f ∈ ss)
    (h : R (ss.flatMap ofStep) (Draft.ofSteps r expand ss)) : R xs (Draft.ofSteps r expand ss) := by
  rcases hxs with rfl | ⟨hnone, f, hf⟩
  · exact h
  · rw [hnone] at h
    exact hR.stop (fault_ofSteps_ne_none hf) h

/-- Steps that are replaced by steps that write the same write the same. -/
theorem Draft.ofSteps_map {expand' : Context → List Node → Draft} {f : Step → Step} {ss : List Step}
    (h : ∀ s ∈ ss, (f s).draft r expand' = s.draft r expand) :
    ofSteps r expand' (ss.map f) = ofSteps r expand ss := by
  induction ss with
  | nil => rfl
  | cons s rest ih =>
    obtain ⟨hs, hrest⟩ := List.forall_mem_cons.mp h
    rw [List.map_cons, ofSteps, ofSteps, hs, ih hrest]

namespace Passage

/-- What holds of the drafts of all steps if it holds of the passages that they hand on holds of the
drafts of all passages. -/
theorem keeps {P : Draft → Prop} (hP : Closed P) (good : Passage → Prop)
    (hgood : ∀ t t', good t → t' ∈ t.within → good t')
    (hstep : ∀ t, good t → ∀ s ∈ t.steps, (∀ t' ∈ s.passages, P (t'.draft r expand)) →
      P (s.draft r expand)) (t : Passage) (ht : good t) : P (t.draft r expand) := by
  induction t with
  | rule t ih =>
    rw [draft_eq]
    refine hP.ofSteps fun s hs => hstep t ht s hs fun t' ht' => ?_
    have hmem : t' ∈ t.within := List.mem_flatMap.mpr ⟨s, hs, ht'⟩
    exact ih t' hmem (hgood t t' ht hmem)

/-- What the drafts of all steps are related to those of all passages are, if it adds up by the
rules. -/
theorem collects {α : Type} {R : List α → Draft → Prop} (hR : Additive R)
    (ofPassage : Passage → List α) (ofStep : Step → List α) (good : Passage → Prop)
    (hgood : ∀ t t', good t → t' ∈ t.within → good t')
    (hrule : ∀ t, good t → R (t.steps.flatMap ofStep) (ofSteps r expand t.steps) →
      R (ofPassage t) (ofSteps r expand t.steps))
    (hstep : ∀ t, good t → ∀ s ∈ t.steps,
      (∀ t' ∈ s.passages, R (ofPassage t') (t'.draft r expand)) →
      R (ofStep s) (s.draft r expand)) (t : Passage) (ht : good t) :
        R (ofPassage t) (t.draft r expand) := by
  induction t with
  | rule t ih =>
    have hsteps : R (t.steps.flatMap ofStep) (ofSteps r expand t.steps) := by
      refine hR.ofSteps fun s hs => hstep t ht s hs fun t' ht' => ?_
      have hmem : t' ∈ t.within := List.mem_flatMap.mpr ⟨s, hs, ht'⟩
      exact ih t' hmem (hgood t t' ht hmem)
    rw [draft_eq]
    exact hrule t ht hsteps

end Passage

end Kept

end Folio
