import Folio.Proofs.Book.Anchors
import Folio.Proofs.Render.Links

/-!
# Links of a strict book

A strict book looks up every fragment, and nothing else. So a link of a book that is written without
a fault leads to a label that the book defines, unless no page defines the label and the link came
to it past the look-up: to a page without a fragment, as a listing's entry, to a heading or binding
that the index knows although it is not placed on a page, or by a key that is that of another path
too.
-/

namespace Folio

open Draft

namespace Labels

variable {base : String} {ps : List Page}

/-- A label that no page of a strict book defines: it is placed on no page that is shown, and it is
not the label of a page as a whole that is written and has no heading on its path. -/
structure Undefined (base : String) (ps : List Page) (id : LabelId) : Prop where
  placed : ∀ p ∈ ps, p.isShown → id ∉ (ofPages base true ps).placedOn p
  own : id.name = pageLabel → headingsOn base ps id.page = [] →
    ∀ p ∈ ps, p.isWritten → Path.normal base p.path ≠ id.page

/-- How a link of a strict book comes to a label without a look-up that tells whether the label is
defined. -/
inductive Passes (base : String) (ps : List Page) (id : LabelId) : Prop
  /-- Without a fragment, to the label of a page as a whole, on a path on which no heading
  stands. -/
  | page (hname : id.name = pageLabel) (hheadings : headingsOn base ps id.page = [])
  /-- As an entry of an index or a table of contents on a page that is shown. -/
  | entry (p : Page) (tree : Node) (hp : p ∈ ps) (hshown : p.isShown) (htree : p.tree = some tree)
      (hlisted : id ∈ (ofPages base true ps).listed tree)
  /-- To a label of the index, which knows headings and bindings wherever they stand. -/
  | index (hindex : id ∈ headingIds base ps ++ bindingIds base ps)
  /-- With a fragment whose key on the path is also the key of a label on another path: the label of
  this name is taken to be on the path that was asked for. -/
  | mixed (other : LabelId) (fragment : String)
      (hindex : other ∈ headingIds base ps ++ bindingIds base ps)
      (hkey : key other.page other.name = key id.page fragment)
      (hname : other.name = id.name) (hpage : other.page ≠ id.page)
      (hpath : '#' ∈ other.page.toList ∨ '#' ∈ id.page.toList)

/-- A label that a link of a strict book may lead to although the book does not define it. -/
structure Loose (base : String) (ps : List Page) (id : LabelId) : Prop where
  undefined : Undefined base ps id
  passes : Passes base ps id

/-- Keys are mixed up only where a path holds the character that separates it from the name. -/
theorem mem_path_of_key_eq {page page' name name' : String} (hkey : key page name = key page' name')
    (hpage : page ≠ page') : '#' ∈ page.toList ∨ '#' ∈ page'.toList := by
  by_contra hnone
  obtain ⟨hfree, hfree'⟩ := not_or.mp hnone
  exact hpage ((key_inj hfree hfree').mp hkey).1

/-- An answer of the index is the name of a label with the key asked for. -/
theorem exists_of_get?_index {strict : Bool} {k name : String}
    (h : (ofPages base strict ps).index.get? k = some name) :
    ∃ id ∈ headingIds base ps ++ bindingIds base ps, key id.page id.name = k ∧ id.name = name := by
  simp only [ofPages] at h
  rw [Table.get?_foldl_putNew (fun id => key id.page id.name) LabelId.name,
    Table.get?_foldl_put (fun id => key id.page id.name) LabelId.name, Option.or_eq_some_iff,
    Option.or_eq_some_iff] at h
  rcases h with (h | ⟨_, h⟩) | ⟨_, h⟩
  · obtain ⟨id, hid, rfl⟩ := Option.map_eq_some_iff.mp h
    obtain ⟨hmem, hkey⟩ := List.mem_filter.mp (List.mem_of_getLast? hid)
    exact ⟨id, List.mem_append_left _ hmem, of_decide_eq_true hkey, rfl⟩
  · cases h
  · obtain ⟨id, hid, rfl⟩ := Option.map_eq_some_iff.mp h
    have hkey := List.find?_some hid
    exact ⟨id, List.mem_append_right _ (List.mem_of_find?_eq_some hid), of_decide_eq_true hkey, rfl⟩

/-- The label of a page as a whole is that of a heading on its path, or its own without any. -/
theorem resolve_empty_ofPages {strict : Bool} {page : String} {id : LabelId}
    (h : (ofPages base strict ps).resolve page "" = .ok id) :
    id ∈ headingIds base ps ∨
      id.name = pageLabel ∧ headingsOn base ps id.page = [] := by
  rw [resolve_empty, Except.ok.injEq] at h
  subst h
  change _ ∨ _ ∧ headingsOn base ps (Path.normal base page) = []
  have hfirst := get?_first base strict ps (Path.normal base page)
  rw [show (ofPages base strict ps).base = base from rfl, hfirst]
  cases hheadings : headingsOn base ps (Path.normal base page) with
  | nil => exact .inr ⟨rfl, rfl⟩
  | cons heading rest =>
    have hmem : heading ∈ headingsOn base ps (Path.normal base page) := by
      rw [hheadings]
      exact List.mem_cons_self
    obtain ⟨p, hp, hpath, hheading⟩ := mem_headingsOn.mp hmem
    refine .inl (List.mem_flatMap.mpr ⟨p, hp, List.mem_map.mpr ⟨heading, hheading, ?_⟩⟩)
    rw [hpath]
    rfl

/-- A fragment of a strict book resolves to a label of the index, or to one whose key is that of
another path. -/
theorem resolve_fragment_ofPages {page fragment : String} {id : LabelId} (hfragment : fragment ≠ "")
    (h : (ofPages base true ps).resolve page fragment = .ok id) : Passes base ps id := by
  have hstrict : (ofPages base true ps).strict = true := rfl
  rw [resolve, resolveName, if_neg hfragment, hstrict] at h
  split at h
  · next name hname =>
    obtain ⟨other, hother, hkey, rfl⟩ := exists_of_get?_index hname
    obtain rfl : id = ⟨Path.normal base page, other.name⟩ := (Except.ok.inj h).symm
    by_cases hpage : other.page = Path.normal base page
    · exact .index (hpage ▸ hother)
    · exact .mixed other fragment hother hkey rfl hpage (mem_path_of_key_eq hkey hpage)
  · cases h

end Labels

namespace Book

variable {b : Book} {p : Page} {ps : List Page}

/-- The links of a book are those of its pages. -/
theorem exists_page_of_mem_targets {text : String} {id : LabelId}
    (h : id ∈ (b.draft text ps).targets) : ∃ p ∈ ps, id ∈ (b.page p).targets := by
  have hpages : id ∈ (b.pages ps).targets := by
    have hpreamble : (preamble text).targets = [] := targets_when rfl _
    refine (mem_targets_seq h).resolve_left fun hmem => ?_
    exact List.not_mem_nil (hpreamble ▸ (hmem : id ∈ (preamble text).targets))
  clear h
  induction ps with
  | nil => cases hpages
  | cons p rest ih =>
    rcases mem_targets_seq hpages with hmem | hmem
    · exact ⟨p, List.mem_cons_self, hmem⟩
    · obtain ⟨q, hq, hmem⟩ := ih hmem
      exact ⟨q, List.mem_cons_of_mem _ hq, hmem⟩

theorem targets_inclusion : (b.inclusion p).targets = [] := by
  rw [inclusion, when]
  split <;> rfl

/-- Only a page that shows its tree has links. -/
theorem targets_page_of_not_isShown (h : p.isShown = false) : (b.page p).targets = [] := by
  rcases page_of_not_isShown h with h | h | h | h | ⟨f, h⟩ <;> rw [h]
  · rfl
  · rfl
  · rfl
  · exact targets_inclusion
  · rfl

/-- A page that shows its tree links to labels that resolving gives and to its entries only. -/
theorem page_leads (hshown : p.isShown = true) {tree : Node} (htree : p.tree = some tree) :
    Leads b.renderer.labels (b.renderer.labels.listed tree) (b.page p) := by
  have hheading : (heading p).targets = [] := targets_when rfl _
  have hown : (b.ownAnchor p).targets = [] := targets_when rfl _
  rw [page_eq_of_isShown hshown htree, searched]
  split
  · next hsearchable =>
    refine ((Leads.behind ?_ _ hown).behind _ hheading).behind _
    cases hcs : tree.contents? with
    | none =>
      rw [Renderer.tree, hcs]
      exact .plain rfl
    | some cs =>
      have hnotes : ∀ id note, (tree.collectFootnotes []).get? id = some note →
          b.renderer.labels.listedAll note ⊆ b.renderer.labels.listed tree := fun id note hnote =>
        List.filterMap_subset _ (Node.partsAll_subset_of_collectFootnotes hsearchable hnote)
      have hinside : b.renderer.labels.listedAll cs ⊆ b.renderer.labels.listed tree :=
        List.filterMap_subset _ (Node.partsAll_subset_of_contents? hcs)
      rw [Renderer.tree, hcs]
      exact Passage.draft_leads b.renderer hnotes (b.renderer.draftUpTo_leads hnotes _)
        (.top (start p tree) cs) rfl hinside
  · exact .plain rfl

/-- A written page on which no heading stands, or a hand-written one, is where its label leads. -/
private theorem mem_anchors_of_isWritten {lexers : Language.Lexers} {base : String}
    {source : Option Folder} {text : String}
    (hok : ((ofPages lexers base true source ps).draft text ps).fault = none) (hp : p ∈ ps)
    (hwritten : p.isWritten = true)
    (hheadings : Labels.headingsOn base ps (Path.normal base p.path) = []) :
    (⟨Path.normal base p.path, pageLabel⟩ : LabelId) ∈
      ((ofPages lexers base true source ps).draft text ps).anchors := by
  have hnone : (Labels.ofPages base true ps).hasHeadings p.path = false := by
    rw [← Bool.not_eq_true, Labels.hasHeadings_ofPages, hheadings]
    exact not_not_intro rfl
  have hown : Shows _ ((ofPages lexers base true source ps).page p) :=
    page_shows_own hwritten (.inr hnone)
  rw [anchors_draft hok]
  exact List.mem_flatMap.mpr
    ⟨p, hp, (hown (fault_draft_eq_none.mp hok p hp)).subset (List.mem_singleton_self _)⟩

/-- A label that a page defines is written. -/
private theorem mem_anchors_of_not_undefined {lexers : Language.Lexers} {base : String}
    {source : Option Folder} {text : String} {id : LabelId}
    (hok : ((ofPages lexers base true source ps).draft text ps).fault = none)
    (h : ¬Labels.Undefined base ps id) :
    id ∈ ((ofPages lexers base true source ps).draft text ps).anchors := by
  by_contra hnot
  refine h ⟨fun q hq hshown hmem => hnot ?_, fun hname hheadings q hq hwritten hpath => hnot ?_⟩
  · have hshows : Shows _ ((ofPages lexers base true source ps).page q) := page_shows_placed hshown
    rw [anchors_draft hok]
    exact List.mem_flatMap.mpr
      ⟨q, hq, (hshows (fault_draft_eq_none.mp hok q hq)).subset hmem⟩
  · obtain ⟨path, name⟩ := id
    obtain rfl : name = pageLabel := hname
    obtain rfl : Path.normal base q.path = path := hpath
    exact mem_anchors_of_isWritten hok hq hwritten hheadings

/-- A page with a link of each kind that a look-up lets pass: to a page that is not in the book, an
entry of an index, a heading in a footnote that is never referred to, and a path with the character
of the keys. -/
def loosePages : List Page := [
  ⟨"home.md", some (.document [.heading 1 [.text "Home"] none,
    .paragraph [.pageLink "lost.md" "" [.text "lost"]],
    .index [.indexEntry "f" "home.md" "f"],
    .paragraph [.link "#Aside" [.text "aside"]],
    .footnote "n" [.heading 2 [.text "Aside"] none],
    .paragraph [.pageLink "x" "y#z" [.text "mixed"]]]), "", 1⟩,
  ⟨"x#y", some (.document [.heading 1 [.text "z"] none]), "", 1⟩]

end Book

end Folio
