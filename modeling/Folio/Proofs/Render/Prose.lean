import Folio.Proofs.Draft.Sequence
import Folio.Proofs.Markup.Prose
import Folio.Render
import Mathlib.Tactic.IntervalCases

/-!
# Running text in its place

A paragraph of running text stands on a page or in a block that a call opens: bold or slanted text,
a heading, a cell, a quote or a footnote. Its escapes are read back to the text, but it is read
literally only in part. The block around it is closed by its own bracket exactly if the square
brackets of the text match each other, and where the text starts a line, as on a page and in a
quote, the line begins with the marker of a block exactly if the text does.
-/

namespace Folio

open Draft Markup

/-- Where a paragraph may stand. -/
inductive Place
  | page
  | strong
  | emph
  | heading (level : Int) (anchor : Option String)
  | cell
  | quote
  | footnote (id : String)

/-- A paragraph that holds a text. -/
def proseParagraph (t : String) : Node := .paragraph [.text t]

/-- What ends a paragraph. -/
def paragraphEnd (c : Context) : String := if c.inBlock then "\n" else "\n\n"

namespace Place

variable (r : Renderer) (c : Context) (t : String)

/-- A text as a paragraph in a place. -/
def draft : Place → Draft
  | page => r.body c [proseParagraph t]
  | strong => r.node c (.strong [proseParagraph t])
  | emph => r.node c (.emph [proseParagraph t])
  | heading level anchor => r.node c (.heading level [proseParagraph t] anchor)
  | cell => r.node c (.tableCell [proseParagraph t])
  | quote => r.node c (.quote [proseParagraph t])
  | footnote id => r.node { c with notes := c.notes.put id [proseParagraph t] } (.footnoteMark id)

/-- Whether the text stands in a block of its place. -/
def isBlock : Place → Bool
  | page => false
  | _ => true

/-- Whether the text starts a line. -/
def startsLine : Place → Bool
  | page | quote => true
  | _ => false

/-- What stands in front of the opening bracket of a heading. -/
def headingCall (level : Int) : String :=
  "#heading(level: " ++ toString (headingLevel c level) ++ ", "

/-- What stands in front of the opening bracket of the block. -/
def call : Place → String
  | page => ""
  | strong => "#strong("
  | emph => "#emph("
  | heading level _ => headingCall c level
  | cell => " "
  | quote => "#quote"
  | footnote _ => "#footnote"

/-- What stands behind the closing bracket of the block. -/
def rest : Place → String
  | page => ""
  | strong | emph => ")"
  | heading level anchor =>
    if c.inDocs then ")\n"
    else
      let label := Heading.label ⟨level, [proseParagraph t], anchor⟩
      ") " ++ (Piece.anchor (r.labels.id c.page label)).written ++ "\n\n"
  | cell => ","
  | quote => "\n"
  | footnote _ => ""

/-- What stands in front of the text in the block, or on the page. -/
def lead (p : Place) : String := if p.startsLine then "\n" else ""

/-- What stands behind the text in the block, or on the page. -/
def trail : Place → String
  | page => paragraphEnd c ++ "\n"
  | quote => "\n"
  | footnote _ => ""
  | _ => paragraphEnd c

/-- The contents of the block, or what is written on the page. -/
def contents (p : Place) : String := p.lead ++ escapeContent t ++ p.trail c

/-- All that is written. -/
def written (p : Place) : String :=
  if p.isBlock then p.call c ++ "[" ++ p.contents c t ++ "]" ++ p.rest r c t else p.contents c t

/-- What is written in front of the text. -/
def front (p : Place) : String := (if p.isBlock then p.call c ++ "[" else "") ++ p.lead

/-- What stands behind the last line feed. -/
def lastLine (cs : List Char) : List Char := (cs.reverse.takeWhile (· ≠ '\n')).reverse

/-- The line with the start of the text, and what follows. -/
def line (p : Place) : List Char :=
  lastLine (p.front c).toList ++ (escapeContent t ++ p.trail c).toList

end Place

/-! ### What is written -/

theorem text_prose (s : String) : (prose s).text = escapeContent s := text_ofPiece (.prose s)

/-- The text of a draft in a block. -/
theorem text_block {d : Draft} (h : d.fault = none) (call rest : String) :
    (markup (call ++ "[") >> d >> markup ("]" ++ rest)).text =
      call ++ "[" ++ d.text ++ "]" ++ rest := by
  rw [text_seq rfl, text_seq h, text_markup, text_markup]
  simp only [String.append_assoc]

/-- Behind the last of some drafts nothing is written. -/
theorem text_seq_empty {d : Draft} (h : d.fault = none) : (d >> empty).text = d.text := by
  rw [text_seq h]
  exact String.append_empty

/-- A paragraph is its escaped text and its end. -/
theorem text_proseParagraph (r : Renderer) (expand : Context → List Node → Draft) (c : Context)
    (t : String) :
    (draftNode r expand c (proseParagraph t)).text = escapeContent t ++ paragraphEnd c := by
  change ((prose t >> empty) >> markup (paragraphEnd c)).text = _
  rw [text_seq rfl, text_seq_empty rfl, text_prose, text_markup]

/-- The children of a block that holds a paragraph only. -/
theorem text_proseParagraph_only (r : Renderer) (expand : Context → List Node → Draft)
    (c : Context) (t : String) :
    (draftAll r expand c [proseParagraph t]).text = escapeContent t ++ paragraphEnd c := by
  rw [← text_proseParagraph r expand c t]
  exact text_seq_empty rfl

/-- A block that holds a paragraph only. -/
theorem text_proseParagraph_block (r : Renderer) (expand : Context → List Node → Draft)
    (c : Context) (t call rest : String) :
    (markup (call ++ "[") >> draftAll r expand c [proseParagraph t] >> markup ("]" ++ rest)).text =
      call ++ "[" ++ ("" ++ escapeContent t ++ paragraphEnd c) ++ "]" ++ rest := by
  rw [text_block rfl, text_proseParagraph_only, String.empty_append]

namespace Place

variable (r : Renderer) (c : Context) (t : String) (p : Place)

/-- The mark of the footnote writes the text in a block. -/
theorem draft_footnote (id : String) :
    ((footnote id).draft r c t).fault = none ∧
      ((footnote id).draft r c t).text = (footnote id).written r c t := by
  have hnote : (c.notes.put id [proseParagraph t]).get? id = some [proseParagraph t] := by
    rw [Table.get?_put, if_pos rfl]
  obtain ⟨depth, hdepth⟩ : ∃ depth, (c.notes.put id [proseParagraph t]).length = depth + 1 := by
    cases hput : c.notes.put id [proseParagraph t] with
    | nil =>
      rw [hput] at hnote
      cases hnote
    | cons entry rest => exact ⟨rest.length, rfl⟩
  rw [draft, Renderer.node, draftNode]
  simp only [hnote, hdepth]
  refine ⟨rfl, ?_⟩
  change (markup ("#footnote" ++ "[") >> (prose t >> empty) >> markup ("]" ++ "")).text =
    "#footnote" ++ "[" ++ ("" ++ escapeContent t ++ "") ++ "]" ++ ""
  rw [text_block rfl, text_seq_empty rfl, text_prose]
  simp only [String.empty_append, String.append_empty]

-- Stated by hand: the equation that Lean makes of the definition takes seconds.
theorem headingCall_eq (level : Int) :
    headingCall c level = "#heading(level: " ++ toString (headingLevel c level) ++ ", " := rfl

/-- The call of a heading holds the text in a block. -/
theorem draft_heading (level : Int) (anchor : Option String) :
    ((heading level anchor).draft r c t).fault = none ∧
      ((heading level anchor).draft r c t).text = (heading level anchor).written r c t := by
  have hparagraph := text_proseParagraph_only r (r.draftUpTo c.notes.length)
    { c with inHeading := true } t
  have hend : Draft.fault (if c.inDocs then markup "])\n" else
        markup "]) " >> ofPiece (.anchor (r.labels.id c.page
          (Heading.label ⟨level, [proseParagraph t], anchor⟩))) >> markup "\n\n") = none ∧
      Draft.text (if c.inDocs then markup "])\n" else
        markup "]) " >> ofPiece (.anchor (r.labels.id c.page
          (Heading.label ⟨level, [proseParagraph t], anchor⟩))) >> markup "\n\n") =
        "]" ++ (heading level anchor).rest r c t := by
    rw [rest]
    cases c.inDocs with
    | true => exact ⟨rfl, text_markup _⟩
    | false =>
      refine ⟨rfl, ?_⟩
      rw [if_neg Bool.false_ne_true, if_neg Bool.false_ne_true, text_seq rfl, text_seq rfl,
        text_ofPiece, text_markup, text_markup, String.append_assoc]
      rfl
  obtain ⟨hfault, htext⟩ := hend
  have hopen : ", [" = ", " ++ "[" := rfl
  rw [draft, Renderer.node, draftNode]
  refine ⟨fault_seq_eq_none.mpr ⟨rfl, fault_seq_eq_none.mpr ⟨rfl, hfault⟩⟩, ?_⟩
  change _ = headingCall c level ++ "[" ++ ("" ++ escapeContent t ++ paragraphEnd c) ++ "]" ++
    (heading level anchor).rest r c t
  rw [text_seq rfl, text_seq rfl, hparagraph, htext, text_markup, hopen, String.empty_append,
    headingCall_eq]
  simp only [String.append_assoc]
  rfl

/-- A text is written without a fault, and what is written is what the place puts around it. -/
theorem draft_eq : (p.draft r c t).fault = none ∧ (p.draft r c t).text = p.written r c t := by
  cases p with
  | page =>
    refine ⟨rfl, ?_⟩
    change ((markup "\n" >> draftNode r _ c (proseParagraph t) >> markup "\n") >> empty).text =
      "\n" ++ escapeContent t ++ (paragraphEnd c ++ "\n")
    rw [text_seq_empty rfl, text_seq rfl, text_seq rfl, text_proseParagraph, text_markup]
    simp only [String.append_assoc]
  | strong => exact ⟨rfl, text_proseParagraph_block r _ c t "#strong(" ")"⟩
  | emph => exact ⟨rfl, text_proseParagraph_block r _ c t "#emph(" ")"⟩
  | heading level anchor => exact draft_heading r c t level anchor
  | cell => exact ⟨rfl, text_proseParagraph_block r _ c t " " ","⟩
  | quote =>
    refine ⟨rfl, ?_⟩
    change (markup ("#quote" ++ "[" ++ "\n") >> draftAll r _ c.block [_] >>
        markup ("]" ++ "\n")).text =
      "#quote" ++ "[" ++ ("\n" ++ escapeContent t ++ "\n") ++ "]" ++ "\n"
    rw [text_seq rfl, text_seq rfl, text_proseParagraph_only, text_markup, text_markup]
    simp only [String.append_assoc]
    rfl
  | footnote id => exact draft_footnote r c t id

/-! ### How it is read -/

/-- Line feeds change nothing. -/
theorem behind_lineFeeds {cs : List Char} (h : ∀ c ∈ cs, c = '\n') (depth : Nat) :
    Reading.behind ⟨false, depth⟩ cs = some ⟨false, depth⟩ := by
  induction cs with
  | nil => rfl
  | cons c cs ih =>
    obtain ⟨rfl, hcs⟩ := List.forall_mem_cons.mp h
    rw [Reading.behind_cons]
    exact ih hcs

/-- In front of the text and behind it, a place writes nothing but line feeds in the block. -/
theorem lineFeeds_around :
    (∀ d ∈ p.lead.toList, d = '\n') ∧ ∀ d ∈ (p.trail c).toList, d = '\n' := by
  have hone : ∀ d ∈ "\n".toList, d = '\n' := List.forall_mem_singleton.mpr rfl
  have htwo : ∀ d ∈ "\n\n".toList, d = '\n' := List.forall_mem_cons.mpr ⟨rfl, hone⟩
  have hend : ∀ d ∈ (paragraphEnd c).toList, d = '\n' := by
    rw [paragraphEnd]
    split
    · exact hone
    · exact htwo
  constructor
  · rw [lead]
    split
    · exact hone
    · exact nofun
  · cases p with
    | page =>
      rw [trail, String.toList_append]
      exact List.forall_mem_append.mpr ⟨hend, hone⟩
    | quote => exact hone
    | footnote id => exact nofun
    | _ => exact hend

/-- The contents of a block are read as the escaped text in it. -/
theorem behind_contents (depth : Nat) :
    Reading.behind ⟨false, depth⟩ (p.contents c t).toList =
      Reading.behind ⟨false, depth⟩ (t.toList.flatMap contentChar) := by
  obtain ⟨hlead, htrail⟩ := p.lineFeeds_around c
  rw [contents, String.toList_append, String.toList_append, escapeContent, String.toList_ofList,
    Reading.behind_append, Reading.behind_append, behind_lineFeeds hlead, Option.bind_some,
    behind_content]
  cases awaited (List.replicate depth ']') (t.toList.filter isSquare) with
  | none => rfl
  | some stack => exact behind_lineFeeds htrail stack.length

/-- Headings are written at a few levels only. -/
theorem headingLevel_bounds (level : Int) :
    1 ≤ headingLevel c level ∧ headingLevel c level ≤ 7 := by
  rw [headingLevel, deepestHeading]
  constructor <;> omega

/-- What stands in front of a bracket has no brackets itself. -/
theorem behind_call : Reading.start.behind (p.call c).toList = some .start := by
  cases p with
  | heading level anchor =>
    obtain ⟨hlow, hhigh⟩ := headingLevel_bounds c level
    rw [call, headingCall_eq]
    generalize headingLevel c level = n at hlow hhigh
    interval_cases n <;> rfl
  | _ =>
    rw [call]
    rfl

/-- The block around a text is closed by its own bracket only, exactly if the brackets of the text
match. -/
theorem encloses_contents_iff : Encloses (p.contents c t).toList ↔ Matched t.toList := by
  rw [encloses_iff, ← behind_content_iff]
  exact iff_of_eq (congrArg (· = some Reading.start) (p.behind_contents c t 0))

/-- A text with matching brackets leaves alone the blocks around its own block too. -/
theorem encloses_block (h : Matched t.toList) :
    Encloses (p.call c ++ "[" ++ p.contents c t ++ "]").toList := by
  rw [encloses_iff]
  simp only [String.toList_append, Reading.behind_append, behind_call, Option.bind_some]
  change ((Reading.behind ⟨false, 1⟩ (p.contents c t).toList).bind (Reading.behind · [']'])) = _
  rw [behind_contents, h.behind_content]
  rfl

/-- A text that starts no line stands behind a call or a blank. -/
theorem lastLine_front (h : p.startsLine = false) :
    (lastLine (p.front c).toList).head? = some '#' ∨
      (lastLine (p.front c).toList).head? = some ' ' := by
  have hblock : p.isBlock = true := by
    cases p with
    | page => cases h
    | _ => rfl
  rw [front, if_pos hblock, lead, h, if_neg Bool.false_ne_true]
  cases p with
  | page | quote => cases h
  | heading level anchor =>
    obtain ⟨hlow, hhigh⟩ := headingLevel_bounds c level
    refine .inl ?_
    rw [call, headingCall_eq]
    generalize headingLevel c level = n at hlow hhigh
    interval_cases n <;> rfl
  | cell =>
    rw [call]
    exact .inr rfl
  | _ =>
    rw [call]
    exact .inl rfl

/-- A text that starts a line stands behind a line feed. -/
theorem lastLine_front_of_startsLine (h : p.startsLine = true) :
    lastLine (p.front c).toList = [] := by
  rw [front, lead, h, if_pos rfl, String.toList_append, lastLine, List.reverse_append]
  rfl

/-- The line of a text begins with the marker of a block exactly if the text starts the line and
begins with one. -/
theorem beginsBlock_line_iff :
    BeginsBlock (p.line c t) ↔ p.startsLine = true ∧ BeginsBlock t.toList := by
  rw [line]
  cases hstarts : p.startsLine with
  | false =>
    have hnot : ¬BeginsBlock
        (lastLine (p.front c).toList ++ (escapeContent t ++ p.trail c).toList) := by
      rcases p.lastLine_front c hstarts with hcall | hblank
      · obtain ⟨rest, hrest⟩ := List.head?_eq_some_iff.mp hcall
        rw [hrest]
        exact not_beginsBlock (.inl rfl) _
      · obtain ⟨rest, hrest⟩ := List.head?_eq_some_iff.mp hblank
        rw [hrest]
        exact not_beginsBlock (.inr rfl) _
    exact iff_of_false hnot nofun
  | true =>
    have hafter : ∀ d ∈ (p.trail c).toList.head?, isMarkerChar d = false := by
      intro d hd
      rw [(p.lineFeeds_around c).2 d (List.mem_of_mem_head? hd)]
      rfl
    rw [p.lastLine_front_of_startsLine c hstarts, List.nil_append, String.toList_append,
      escapeContent, String.toList_ofList, beginsBlock_content_iff hafter, and_iff_right rfl]

/-- Running text is written without a fault, and without its escapes it is the text. The block
around it is closed by the bracket that is written for it exactly if the square brackets of the text
match each other, and then the blocks further outside are left alone too. The line on which the text
begins starts with the marker of a block exactly if the text starts the line and begins with one. -/
theorem prose_is_literal_iff (r : Renderer) (c : Context) (p : Place) (t : String) :
    (p.draft r c t).fault = none ∧ (p.draft r c t).text = p.written r c t ∧
      unescape false (escapeContent t).toList = t.toList ∧
      (Encloses (p.contents c t).toList ↔ Matched t.toList) ∧
      (Matched t.toList → Encloses (p.call c ++ "[" ++ p.contents c t ++ "]").toList) ∧
      (BeginsBlock (p.line c t) ↔ p.startsLine = true ∧ BeginsBlock t.toList) := by
  obtain ⟨hfault, htext⟩ := draft_eq r c t p
  refine ⟨hfault, htext, ?_, p.encloses_contents_iff c t, p.encloses_block c t,
    p.beginsBlock_line_iff c t⟩
  rw [escapeContent, String.toList_ofList, unescape_content]

/-- A closing bracket in bold text closes the block of the call, and a text on a page that begins
like a heading is one. -/
theorem prose_is_not_literal :
    let r : Renderer := ⟨⟨"", true, [], []⟩, fun _ => none, none⟩
    let c := Context.atPage "notes.md" 1 []
    (strong.draft r c "a]b").text = "#strong([a]b\n\n])" ∧
      block? .start "a]b\n\n])".toList = some ("a".toList, "b\n\n])".toList) ∧
      (page.draft r c "= x").text = "\n= x\n\n\n" ∧ BeginsBlock "= x".toList := by
  refine ⟨rfl, rfl, rfl, ['='], .heading (n := 0), ?_⟩
  decide

end Place

end Folio
