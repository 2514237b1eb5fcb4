import Folio.Book.InPlace
import Folio.Proofs.Book.Pages
import Folio.Proofs.Render.InPlace

/-!
# Pages are written independently

Whatever a session was left with by the pages before, a page adds the same draft to it: the start of
a page sets every part of the surroundings that a node may look at, except for the mark of
documentation, which no page leaves set. So a book that is written in one session is its preamble
and the texts that its pages have in sessions of their own.
-/

namespace Folio

open Draft

/-- The text of a draft, if no fault ended it. -/
def Draft.text? (d : Draft) : Option String :=
  match d.fault with
  | none => some d.text
  | some _ => none

theorem Draft.text?_of_fault_eq_none {d : Draft} (h : d.fault = none) : d.text? = some d.text := by
  rw [Draft.text?, h]

/-- Drafts one after the other have a text when both have one. -/
theorem Draft.text?_seq (d e : Draft) :
    (d >> e).text? = d.text?.bind fun a => e.text?.map fun b => a ++ b := by
  cases hd : d.fault with
  | some f =>
    have hseq : d >> e = d := andThen_of_fault hd _
    rw [hseq, Draft.text?, hd]
    rfl
  | none =>
    rw [text?_of_fault_eq_none hd, Option.bind_some]
    cases he : e.fault with
    | some f =>
      have hseq : (d >> e).fault = some f := (fault_seq hd e).trans he
      rw [Draft.text?, Draft.text?, hseq, he]
      rfl
    | none =>
      have hseq : (d >> e).fault = none := fault_seq_eq_none.mpr ⟨hd, he⟩
      rw [text?_of_fault_eq_none hseq, text?_of_fault_eq_none he, text_seq hd]
      rfl

namespace Book

/-- Pages have a text when each of them has one. -/
theorem text?_pages (b : Book) (ps : List Page) :
    (b.pages ps).text? = (ps.mapM fun p => (b.page p).text?).map String.join := by
  induction ps with
  | nil => rfl
  | cons p rest ih =>
    rw [pages, text?_seq, ih, List.mapM_cons]
    cases (b.page p).text? with
    | none => rfl
    | some text =>
      cases rest.mapM fun p => (b.page p).text? with
      | none => rfl
      | some texts => exact congrArg some (String.join_cons ..).symm

/-- A book has a text when its pages have one. -/
theorem text?_draft (b : Book) (preamble : String) (ps : List Page) :
    (b.draft preamble ps).text? =
      (ps.mapM fun p => (b.page p).text?).map fun texts =>
        (if preamble = "" then "" else preamble ++ "\n") ++ String.join texts := by
  have hhead : (when (preamble ≠ "") (markup (preamble ++ "\n"))).text? =
      some (if preamble = "" then "" else preamble ++ "\n") := by
    rw [when]
    by_cases hnone : preamble = ""
    · simp [hnone, Draft.text?, text, empty]
    · simp [hnone, Draft.text?, text, markup, ofPiece, Piece.written]
  rw [draft, text?_seq, hhead, text?_pages, Option.bind_some, Option.map_map]
  rfl

end Book

namespace Writing

/-- Outside documentation, a step of writing adds a draft to a session of a certain renderer. It may
change the surroundings, but does not leave them inside documentation. -/
def Writes (r : Renderer) (w : Writing Unit) (d : Draft) : Prop :=
  ∀ s : Session, s.renderer = r → s.context.inDocs = false →
    ∃ c : Context, c.inDocs = false ∧ w s = emit d { s with context := c }

variable {r : Renderer} {v w : Writing Unit} {d e : Draft} {s : Session}

namespace Writes

theorem emit (d : Draft) : Writes r (emit d) d := fun s _ hdocs => ⟨s.context, hdocs, rfl⟩

theorem nothing : Writes r (pure ()) empty := fun s _ hdocs =>
  ⟨s.context, hdocs, Adds.nothing s rfl⟩

/-- What stands behind a draft is added to what the draft leaves, if the draft has no fault. -/
theorem seq (hv : Writes r v d) (hw : Writes r w e) : Writes r (do v; w) (d >> e) := by
  intro s hr hdocs
  obtain ⟨c, hc, hd⟩ := hv s hr hdocs
  change ∃ c', c'.inDocs = false ∧ EStateM.bind v (fun _ => w) s =
    Writing.emit (d.andThen fun _ => e) { s with context := c' }
  cases hfault : d.fault with
  | some f =>
    refine ⟨c, hc, ?_⟩
    simp only [EStateM.bind, hd, Writing.emit, hfault, andThen_of_fault hfault]
  | none =>
    obtain ⟨c', hc', he⟩ := hw (Session.add { s with context := c } d) hr hc
    refine ⟨c', hc', ?_⟩
    simp only [EStateM.bind, hd, Writing.emit, hfault]
    exact he.trans (emit_add hfault e { s with context := c' })

/-- The text behind a step of writing is the text before it and the draft that it adds. -/
theorem text? (h : Writes r w d) (hr : s.renderer = r) (hdocs : s.context.inDocs = false) :
    text? w s = d.text?.map (s.text ++ ·) := by
  obtain ⟨c, -, hw⟩ := h s hr hdocs
  rw [Writing.text?, hw, Writing.emit, Draft.text?]
  cases hfault : d.fault with
  | some f => rfl
  | none => exact congrArg some (text_add { s with context := c } d)

end Writes

theorem emit_seq (h : w (s.add d) = Writing.emit e (s.add d)) :
    (do emit d; w) s = Writing.emit (d >> e) s := by
  change EStateM.bind (emit d) (fun _ => w) s = emit (d.andThen fun _ => e) s
  cases hfault : d.fault with
  | some f => simp only [EStateM.bind, emit, hfault, andThen_of_fault hfault]
  | none =>
    simp only [EStateM.bind, emit, hfault]
    exact h.trans (emit_add hfault e s)

/-- In a session in which a page is started, the tree of the page is written as it is drafted. -/
theorem pageTree_eq_emit {p : Page} (source : Option Folder) (tree : Node)
    (hs : s.context = Context.atPage p.path p.depth []) :
    ∃ c : Context, c.inDocs = false ∧
      pageTree ⟨s.renderer, source⟩ p tree s =
        emit (searched tree >> Book.heading p >> Book.ownAnchor ⟨s.renderer, source⟩ p >>
          s.renderer.tree (Book.start p tree) tree) { s with context := c } := by
  cases hsearch : tree.isSearchable with
  | false =>
    -- The search is stopped before the level of headings is set.
    refine ⟨(s.collectFootnotes tree).context, ?_, ?_⟩
    · simp only [Session.collectFootnotes, hs]
      rfl
    · have hstop : searched tree = stop .misplaced := by rw [searched, hsearch]; rfl
      rw [hstop]
      change EStateM.bind (emit (searched tree)) _ (s.collectFootnotes tree) = _
      rw [hstop]
      rfl
  | true =>
    have hempty : searched tree = empty := by rw [searched, hsearch]; rfl
    have hstart : pageTree ⟨s.renderer, source⟩ p tree s =
        (do
          emit (Book.heading p)
          emit (Book.ownAnchor ⟨s.renderer, source⟩ p)
          renderBody tree) { s with context := Book.start p tree } := by
      have hnothing := (Adds.nothing (s.collectFootnotes tree) rfl).symm
      change EStateM.bind (emit (searched tree)) _ (s.collectFootnotes tree) = _
      rw [hempty, EStateM.bind, hnothing, Session.collectFootnotes, hs]
      rfl
    refine ⟨Book.start p tree, rfl, ?_⟩
    rw [hstart, hempty]
    exact emit_seq (emit_seq (renderBody_eq_emit _ tree))

/-- A page is written as it is drafted, whatever the pages before it have left. -/
theorem page_writes (source : Option Folder) (r : Renderer) (p : Page) :
    Writes r (page source p) (Book.page ⟨r, source⟩ p) := by
  rintro s rfl hdocs
  have hstarted : (s.startPage p.path p.depth).context = Context.atPage p.path p.depth [] := by
    simp only [Session.startPage, hdocs]
    rfl
  have hmark : (s.startPage p.path p.depth).context.inDocs = false := by rw [hstarted]; rfl
  unfold page Book.page
  change ∃ c : Context, c.inDocs = false ∧ (ite _ _ _ : Writing Unit) s = _
  split
  · exact ⟨s.context, hdocs, rfl⟩
  change ∃ c : Context, c.inDocs = false ∧
    (ite _ _ _ : Writing Unit) (s.startPage p.path p.depth) = _
  split
  · exact ⟨_, hmark, rfl⟩
  split
  · exact ⟨_, hmark, rfl⟩
  cases htree : p.tree with
  | none => exact ⟨_, hmark, rfl⟩
  | some tree =>
    exact pageTree_eq_emit source tree hstarted

/-- Pages are written one after the other as they are drafted. -/
theorem pages_writes (source : Option Folder) (r : Renderer) (ps : List Page) :
    Writes r (pages source ps) (Book.pages ⟨r, source⟩ ps) := by
  induction ps with
  | nil => exact .nothing
  | cons p rest ih => exact (page_writes source r p).seq ih

/-- A book that is written in one session is written as it is drafted, and its text is what the
session held, the preamble on lines of its own, and the texts that its pages have in sessions of
their own; a page that cannot be written is the only reason for the book not to be. -/
theorem book_eq_pages {s : Session} (hdocs : s.context.inDocs = false) (source : Option Folder)
    (preamble : String) (ps : List Page) :
    text? (book source preamble ps) s =
        (Book.draft ⟨s.renderer, source⟩ preamble ps).text?.map (s.text ++ ·) ∧
      text? (book source preamble ps) s =
        (ps.mapM fun p => text? (page source p) (.fresh s.renderer)).map fun texts =>
          s.text ++ (if preamble = "" then "" else preamble ++ "\n") ++ String.join texts := by
  have hbook : Writes s.renderer (book source preamble ps)
      (Book.draft ⟨s.renderer, source⟩ preamble ps) :=
    (Writes.emit _).seq (pages_writes source s.renderer ps)
  have htext := hbook.text? rfl hdocs
  have halone (p : Page) : text? (page source p) (.fresh s.renderer) =
      (Book.page ⟨s.renderer, source⟩ p).text? := by
    have hfresh := (page_writes source s.renderer p).text? (s := .fresh s.renderer) rfl rfl
    have hempty : (Session.fresh s.renderer).text = "" := rfl
    simpa only [hempty, String.empty_append, Option.map_id_fun', id_eq] using hfresh
  refine ⟨htext, ?_⟩
  simp only [htext, halone, Book.text?_draft, Option.map_map]
  congr 1
  funext texts
  exact (String.append_assoc ..).symm

/-- A session that was left inside a block, with a footnote and a level of headings of its own. -/
def leftSession : Session where
  renderer := ⟨Labels.ofPages "" false [], fun _ => none, none⟩
  context := { Context.atPage "old.md" 5 [("n", [.text "old"])] with inBlock := true }
  written := [.markup "#outline()\n"]

/-- Pages that go every way out: a section, a hand-written page, a page without a tree, a page that
is too deep, and two pages with a tree, of which only the first has a footnote. -/
def variousPages : List Page := [
  ⟨"", none, "Part", 1⟩,
  ⟨"cover.typ", none, "Cover", 2⟩,
  ⟨"empty.md", none, "Empty", 1⟩,
  ⟨"deep.md", some (.document []), "Deep", 9⟩,
  ⟨"first.md", some (.document [
    .heading 1 [.text "Aims"] none,
    .quote [.paragraph [.footnoteMark "n"]],
    .footnote "n" [.paragraph [.text "a note"]]]), "First", 2⟩,
  ⟨"second.md", some (.document [
    .heading 1 [.text "Use"] none,
    .paragraph [.footnoteMark "n"]]), "", 1⟩]

theorem book_eq_pages_variousPages :
    leftSession.context.inDocs = false ∧
      (text? (book none "#show" variousPages) leftSession).isSome ∧
      text? (book none "#show" variousPages) leftSession =
        (variousPages.mapM fun p => text? (page none p) (.fresh leftSession.renderer)).map
          fun texts => leftSession.text ++ "#show\n" ++ String.join texts := by
  have hdocs : leftSession.context.inDocs = false := by rfl
  obtain ⟨hdraft, hpages⟩ := book_eq_pages hdocs none "#show" variousPages
  have hok : (Book.draft ⟨leftSession.renderer, none⟩ "#show" variousPages).fault = none := by rfl
  refine ⟨hdocs, ?_, hpages⟩
  rw [hdraft, Draft.text?_of_fault_eq_none hok]
  rfl

end Writing

end Folio
