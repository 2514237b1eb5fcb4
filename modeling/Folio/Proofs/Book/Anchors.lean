import Folio.Proofs.Book.Pages
import Folio.Proofs.Label.Index
import Folio.Proofs.Render.Placed

/-!
# The labels that a book writes

The index of labels is built from the headings of all pages, while a heading gets its label when its
node is written. In a book of orderly pages both see the same headings: a page without a fault
defines the labels of its headings in their order, or its own label if no heading stands on its
path. So the label that a link to a page as a whole leads to is always written.
-/

namespace Folio

open Draft

/-- A page with a tree is orderly if it is shown and its tree is orderly, and a hand-written page if
there is a heading for its depth. -/
def Page.Orderly (p : Page) : Prop :=
  match p.tree with
  | some tree => p.isShown ∧ tree.Orderly
  | none => p.isRaw → p.hasLevel

instance (p : Page) : Decidable p.Orderly :=
  match h : p.tree with
  | some tree => decidable_of_iff (p.isShown ∧ tree.Orderly) (by rw [Page.Orderly, h])
  | none => decidable_of_iff (p.isRaw → p.hasLevel) (by rw [Page.Orderly, h])

namespace Page

variable {p : Page}

theorem Orderly.isShown (h : p.Orderly) {tree : Node} (htree : p.tree = some tree) :
    p.isShown = true := by
  rw [Orderly, htree] at h
  exact h.1

theorem Orderly.tree (h : p.Orderly) {tree : Node} (htree : p.tree = some tree) :
    tree.Orderly := by
  rw [Orderly, htree] at h
  exact h.2

/-- The path of a hand-written page is not empty. -/
theorem isSection_of_isRaw (h : p.isRaw = true) : p.isSection = false := by
  by_contra hsection
  rw [Bool.not_eq_false, isSection, decide_eq_true_eq] at hsection
  rw [isRaw, hsection] at h
  exact absurd h (by decide)

/-- An orderly hand-written page is written. -/
theorem Orderly.isWritten_of_isRaw (h : p.Orderly) (hraw : p.isRaw = true) :
    p.isWritten = true := by
  cases htree : p.tree with
  | some tree => exact (isShown_iff.mp (h.isShown htree)).1
  | none =>
    rw [Orderly, htree] at h
    simp [isWritten, h hraw, isSection_of_isRaw hraw, hraw]

/-- What stands at the top of an orderly tree is orderly. -/
theorem Orderly.contents (h : p.Orderly) : ∀ n ∈ p.contents, n.Orderly := by
  intro n hn
  cases htree : p.tree with
  | none => simp [Page.contents, htree] at hn
  | some tree =>
    refine (h.tree htree).below ?_
    rw [Page.contents, htree, Option.bind_some] at hn
    cases hcs : tree.contents? with
    | none => simp [hcs] at hn
    | some cs => rwa [hcs, Option.getD_some, ← Node.children_of_contents? hcs] at hn

end Page

/-- The footnotes of a page. -/
def Page.notes (p : Page) : Footnotes := (p.tree.map fun tree => tree.collectFootnotes []).getD []

namespace Labels

/-- The labels that are placed on a page. -/
def placedOn (labels : Labels) (p : Page) : List LabelId :=
  labels.placedUpTo p.path p.notes (p.notes.length + 1) p.contents

/-- A link to a page as a whole leads to its first heading, or to the label of the page itself. -/
theorem resolve_empty (labels : Labels) (path : String) :
    labels.resolve path "" =
      .ok (labels.id path ((labels.first.get? (Path.normal labels.base path)).getD pageLabel)) :=
  rfl

/-- A heading on a path is one of a page with that path. -/
theorem mem_headingsOn {base path : String} {pages : List Page} {h : Heading} :
    h ∈ headingsOn base pages path ↔
      ∃ p ∈ pages, Path.normal base p.path = path ∧ h ∈ Node.headingsAll p.contents := by
  simp [headingsOn, and_assoc]

end Labels

namespace Book

variable {b : Book} {p : Page}

/-- A page that shows its tree defines the labels placed on it. -/
theorem page_shows_placed (hshown : p.isShown = true) :
    Shows (b.renderer.labels.placedOn p) (b.page p) := by
  obtain ⟨tree, htree⟩ := Page.exists_tree hshown
  rw [page_eq_of_isShown hshown htree]
  refine Shows.second (Shows.second (Shows.second ?_))
  cases hcs : tree.contents? with
  | none =>
    rw [Renderer.tree, hcs]
    exact Shows.stop _
  | some cs =>
    have hnotes : p.notes = tree.collectFootnotes [] := by rw [Page.notes, htree]; rfl
    have hcontents : p.contents = cs := by simp [Page.contents, htree, hcs]
    have hstart : (start p tree).Outside p.path p.notes := ⟨rfl, rfl, hnotes.symm⟩
    rw [Renderer.tree, hcs, Labels.placedOn, hcontents, hnotes]
    rw [hnotes] at hstart
    exact Passage.draft_shows b.renderer (b.renderer.draftUpTo_shows _) (.top (start p tree) cs)
      hstart.page hstart.notes

/-- A page that shows its tree defines the labels of its headings in order. -/
theorem page_shows_headings (hshown : p.isShown = true) (hp : p.Orderly) :
    Shows (b.renderer.labels.ofHeadings p.path (Node.headingsAll p.contents)) (b.page p) := by
  intro hok
  have hplaced : (b.renderer.labels.ofHeadings p.path (Node.headingsAll p.contents)).Sublist
      (b.renderer.labels.placedOn p) :=
    b.renderer.labels.headingsAll_sublist p.path p.notes _ p.contents hp.contents
  exact hplaced.trans (page_shows_placed hshown hok)

/-- The line with the label of a page as a whole. -/
def pageLine (b : Book) (p : Page) : String :=
  "#metadata(\"" ++ pageLabel ++ "\") " ++ (b.renderer.labels.id p.path pageLabel).definition ++
    "\n"

/-- The line that includes a hand-written page. -/
def inclusionLine (p : Page) : Draft :=
  markup "#extended_include(" >> literal (String.ofList (Path.withSlashes p.path.toList)) >>
    markup (", offset: " ++ toString (p.depth + (if p.title = "" then 0 else 1) - 1) ++ ")\n")

theorem text_pageAnchor : (b.pageAnchor p).text = b.pageLine p := by
  rw [pageAnchor, text_seq rfl, text_seq rfl, markup, markup, text_ofPiece, text_ofPiece,
    text_ofPiece, Piece.written_anchor, ← String.append_assoc]
  rfl

/-- A page on whose path no heading stands is its title, the line with its label, and its tree. -/
theorem text_page_of_not_hasHeadings (hshown : p.isShown = true) {tree : Node}
    (htree : p.tree = some tree) (hnone : b.renderer.labels.hasHeadings p.path = false)
    (hok : (b.page p).fault = none) :
    (b.page p).text =
      (heading p).text ++ b.pageLine p ++ (b.renderer.tree (start p tree) tree).text := by
  rw [page_eq_of_isShown hshown htree] at hok ⊢
  obtain ⟨hsearched, hok⟩ := fault_seq_eq_none.mp hok
  have hempty : searched tree = .empty := by
    rw [searched] at hsearched ⊢
    cases hsearch : tree.isSearchable with
    | true => rfl
    | false =>
      rw [hsearch] at hsearched
      cases hsearched
  have hown : b.ownAnchor p = b.pageAnchor p := by rw [ownAnchor, hnone]; rfl
  rw [hempty, text_seq rfl, text_seq (fault_heading p), hown, text_seq rfl, text_pageAnchor,
    String.append_assoc]
  exact String.empty_append ..

/-- A hand-written page is its title, the line with its label, and the line that includes it. -/
theorem text_page_of_isRaw (hwritten : p.isWritten = true) (hraw : p.isRaw = true)
    (hok : (b.page p).fault = none) :
    (b.page p).text = (heading p).text ++ b.pageLine p ++ (inclusionLine p).text := by
  rw [page_eq_inclusion hwritten hraw hok]
  change (heading p >> b.pageAnchor p >> inclusionLine p).text = _
  rw [text_seq (fault_heading p), text_seq rfl, text_pageAnchor, String.append_assoc]

/-- A hand-written page, and a page on whose path no heading stands, defines its own label. -/
theorem page_shows_own (hwritten : p.isWritten = true)
    (hown : p.isRaw = true ∨ b.renderer.labels.hasHeadings p.path = false) :
    Shows [b.renderer.labels.id p.path pageLabel] (b.page p) := by
  have hanchor : Shows [b.renderer.labels.id p.path pageLabel] (b.pageAnchor p) :=
    (Shows.anchor _).first.second
  by_cases hraw : p.isRaw = true
  · intro hok
    have heq := page_eq_inclusion hwritten hraw hok
    have hshows : Shows [b.renderer.labels.id p.path pageLabel] (b.inclusion p) :=
      hanchor.first.second
    rw [heq] at hok ⊢
    exact hshows hok
  · have hshown : p.isShown = true :=
      Page.isShown_iff.mpr ⟨hwritten, Bool.not_eq_true _ ▸ hraw⟩
    obtain ⟨tree, htree⟩ := Page.exists_tree hshown
    rw [page_eq_of_isShown hshown htree, ownAnchor, hown.resolve_left hraw]
    exact hanchor.first.second.second

section Orderly

variable {ps : List Page} (lexers : Language.Lexers) (base : String) (strict : Bool)
  (source : Option Folder) (text : String)

/-- A book whose orderly pages are written without a fault defines what a link to one of its pages
as a whole leads to. -/
private theorem resolve_empty_mem_anchors (hps : ∀ p ∈ ps, p.Orderly)
    (hok : ((ofPages lexers base strict source ps).draft text ps).fault = none) (hp : p ∈ ps)
    (hwritten : p.isWritten = true) :
    ∃ id, (Labels.ofPages base strict ps).resolve p.path "" = .ok id ∧
      id ∈ ((ofPages lexers base strict source ps).draft text ps).anchors := by
  refine ⟨_, Labels.resolve_empty _ _, ?_⟩
  have hpages := fault_draft_eq_none.mp hok
  have hfirst := Labels.get?_first base strict ps (Path.normal base p.path)
  rw [anchors_draft hok, List.mem_flatMap]
  change (Labels.ofPages base strict ps).first.get? (Path.normal base p.path) = _ at hfirst
  cases hhead : (Labels.headingsOn base ps (Path.normal base p.path)).head? with
  | none =>
    rw [hhead] at hfirst
    have hnone : (Labels.ofPages base strict ps).hasHeadings p.path = false := by
      rw [Labels.hasHeadings, Table.has]
      exact congrArg Option.isSome hfirst
    have hown : Shows _ ((ofPages lexers base strict source ps).page p) :=
      page_shows_own hwritten (.inr hnone)
    refine ⟨p, hp, (hown (hpages p hp)).subset ?_⟩
    rw [show (Labels.ofPages base strict ps).base = base from rfl, hfirst]
    exact List.mem_singleton_self _
  | some h =>
    -- The first heading may stand on another page of the same path.
    rw [hhead] at hfirst
    obtain ⟨q, hq, hpath, hh⟩ := Labels.mem_headingsOn.mp (List.mem_of_mem_head? hhead)
    obtain ⟨tree, htree⟩ : ∃ tree, q.tree = some tree := by
      cases htree : q.tree with
      | none => simp [Page.contents, htree, Node.headingsAll] at hh
      | some tree => exact ⟨tree, rfl⟩
    have hshows : Shows _ ((ofPages lexers base strict source ps).page q) :=
      page_shows_headings ((hps q hq).isShown htree) (hps q hq)
    refine ⟨q, hq, (hshows (hpages q hq)).subset (List.mem_map.mpr ⟨h, hh, ?_⟩)⟩
    change (⟨Path.normal base q.path, h.label⟩ : LabelId) = ⟨Path.normal base p.path, _⟩
    rw [show (Labels.ofPages base strict ps).base = base from rfl, hfirst, hpath]
    rfl

/-- Every label that the index of an orderly book knows is written. The text of the book is that of
its pages in order; a page with headings on its path defines the labels of its own headings in their
order, and any other page the label of the page itself, between its title and its body; and a link
to a page as a whole leads to a label that the book defines. -/
theorem anchors_written (hps : ∀ p ∈ ps, p.Orderly)
    (hok : ((ofPages lexers base strict source ps).draft text ps).fault = none) :
    let b := ofPages lexers base strict source ps
    let labels := Labels.ofPages base strict ps
    (b.draft text ps).text =
        (preamble text).text ++ String.join (ps.map fun p => (b.page p).text) ∧
      (∀ p ∈ ps, ∀ tree, p.tree = some tree →
        if labels.hasHeadings p.path then
          StandInOrder ((Node.headingsAll p.contents).map fun h =>
            (labels.id p.path h.label).definition) (b.page p).text
        else
          (b.page p).text =
            (heading p).text ++ b.pageLine p ++ (b.renderer.tree (start p tree) tree).text) ∧
      (∀ p ∈ ps, p.isRaw →
        (b.page p).text = (heading p).text ++ b.pageLine p ++ (inclusionLine p).text) ∧
      ∀ p ∈ ps, p.tree.isSome ∨ p.isRaw →
        ∃ id, labels.resolve p.path "" = .ok id ∧ id ∈ (b.draft text ps).anchors ∧
          StandInOrder [id.definition] (b.draft text ps).text := by
  intro b labels
  have hpages : ∀ p ∈ ps, (b.page p).fault = none := fault_draft_eq_none.mp hok
  refine ⟨text_draft hok, fun p hp tree htree => ?_, fun p hp hraw => ?_, fun p hp hkind => ?_⟩
  · have hshown := (hps p hp).isShown htree
    split
    · have horder := standInOrder_of_sublist
        (page_shows_headings hshown (hps p hp) (hpages p hp))
      rw [Labels.ofHeadings, List.map_map] at horder
      exact horder
    · next hnone =>
      exact text_page_of_not_hasHeadings hshown htree (Bool.not_eq_true _ ▸ hnone) (hpages p hp)
  · exact text_page_of_isRaw ((hps p hp).isWritten_of_isRaw hraw) hraw (hpages p hp)
  · have hwritten : p.isWritten = true := by
      rcases hkind with htree | hraw
      · obtain ⟨tree, htree⟩ := Option.isSome_iff_exists.mp htree
        exact (Page.isShown_iff.mp ((hps p hp).isShown htree)).1
      · exact (hps p hp).isWritten_of_isRaw hraw
    obtain ⟨id, hid, hmem⟩ :=
      resolve_empty_mem_anchors lexers base strict source text hps hok hp hwritten
    exact ⟨id, hid, hmem, standInOrder_of_sublist (List.singleton_sublist.mpr hmem)⟩

/-- Two pages of one path, of which only the first has headings, a page without any, and a page
written by hand. -/
def mixedPages : List Page := [
  ⟨"build/guide.md", some (.document [
    .list true [.listItem [.quote [.heading 2 [.text "Aims"] none]]],
    .heading 1 [.text "Use"] (some "usage")]), "Guide", 2⟩,
  ⟨"guide.md", some (.document [
    .paragraph [.pageLink "guide.md" "aims" [.text "aims"]]]), "", 1⟩,
  ⟨"notes.md", some (.document [
    .paragraph [.pageLink "cover.typ" "" [.text "cover"]]]), "Notes", 1⟩,
  ⟨"cover.typ", none, "", 1⟩]

theorem anchors_written_mixedPages :
    (∀ p ∈ mixedPages, p.Orderly) ∧
      ((ofPages (fun _ => none) "build/" true none mixedPages).draft "" mixedPages).fault = none ∧
      ∃ id, (Labels.ofPages "build/" true mixedPages).resolve "cover.typ" "" = .ok id ∧
        StandInOrder [id.definition]
          ((ofPages (fun _ => none) "build/" true none mixedPages).draft "" mixedPages).text := by
  have hpages : ∀ p ∈ mixedPages, p.Orderly := by decide
  have hok :
      ((ofPages (fun _ => none) "build/" true none mixedPages).draft ""
        mixedPages).fault = none := by
    rfl
  refine ⟨hpages, hok, ?_⟩
  obtain ⟨-, -, -, hresolve⟩ := anchors_written (fun _ => none) "build/" true none "" hpages hok
  obtain ⟨id, hid, -, htext⟩ :=
    hresolve ⟨"cover.typ", none, "", 1⟩ (by simp [mixedPages]) (.inr (by decide))
  exact ⟨id, hid, htext⟩

end Orderly

end Book

end Folio
