import Folio.Book
import Folio.Proofs.Draft.Sequence

/-!
# Pages of a book

A book is without a fault when all its pages are, and then its text and its labels are those of the
pages one after the other, behind the preamble. A page at a depth with a heading is written by its
kind: a hand-written page by its inclusion, any other page by its tree.
-/

namespace Folio

open Draft

namespace Page

/-- Whether there is a heading for the depth of a page. -/
def hasLevel (p : Page) : Bool := 1 ≤ p.depth && p.depth ≤ deepestHeading

/-- Whether a page is of the kind whose tree is written. -/
def isShown (p : Page) : Bool := p.hasLevel && !p.isSection && !p.isRaw && p.tree.isSome

/-- Whether a page is of a kind that is written with a label of its own. -/
def isWritten (p : Page) : Bool :=
  p.hasLevel && !p.isSection && (p.isRaw || p.tree.isSome)

/-- A written page that is not written by hand shows its tree. -/
theorem isShown_iff {p : Page} : p.isShown = true ↔ p.isWritten = true ∧ p.isRaw = false := by
  cases hraw : p.isRaw <;> simp [isShown, isWritten, hraw]

theorem exists_tree {p : Page} (h : p.isShown = true) : ∃ tree, p.tree = some tree :=
  Option.isSome_iff_exists.mp (Bool.and_eq_true_iff.mp h).2

end Page

namespace Book

variable {b : Book} {ps : List Page} {p : Page}

/-- Pages are written without a fault when each of them is. -/
theorem fault_pages_eq_none :
    (b.pages ps).fault = none ↔ ∀ p ∈ ps, (b.page p).fault = none := by
  induction ps with
  | nil => simp [pages, Draft.empty]
  | cons p rest ih => rw [pages, fault_seq_eq_none, ih, List.forall_mem_cons]

/-- The text of pages is the texts of the pages in order. -/
theorem text_pages (h : (b.pages ps).fault = none) :
    (b.pages ps).text = String.join (ps.map fun p => (b.page p).text) := by
  induction ps with
  | nil => rfl
  | cons p rest ih =>
    rw [pages, fault_seq_eq_none] at h
    rw [pages, text_seq h.1, ih h.2, List.map_cons, String.join_cons]

/-- The labels of pages are the labels of the pages in order. -/
theorem anchors_pages (h : (b.pages ps).fault = none) :
    (b.pages ps).anchors = ps.flatMap fun p => (b.page p).anchors := by
  induction ps with
  | nil => rfl
  | cons p rest ih =>
    rw [pages, fault_seq_eq_none] at h
    rw [pages, anchors_seq h.1, ih h.2, List.flatMap_cons]

/-- The preamble of a book, on lines of its own. -/
def preamble (text : String) : Draft := when (text ≠ "") (markup (text ++ "\n"))

theorem fault_preamble (text : String) : (preamble text).fault = none := fault_when rfl _

theorem anchors_preamble (text : String) : (preamble text).anchors = [] := by
  rw [preamble, when]
  split <;> rfl

/-- A book is without a fault when its pages are. -/
theorem fault_draft_eq_none {text : String} :
    (b.draft text ps).fault = none ↔ ∀ p ∈ ps, (b.page p).fault = none := by
  change (preamble text >> b.pages ps).fault = none ↔ _
  rw [fault_seq_eq_none, fault_pages_eq_none, and_iff_right (fault_preamble text)]

/-- The text of a book is its preamble and the texts of its pages in order. -/
theorem text_draft {text : String} (h : (b.draft text ps).fault = none) :
    (b.draft text ps).text =
      (preamble text).text ++ String.join (ps.map fun p => (b.page p).text) := by
  change (preamble text >> b.pages ps).text = _
  rw [text_seq (fault_preamble text),
    text_pages (fault_pages_eq_none.mpr (fault_draft_eq_none.mp h))]

/-- The labels of a book are the labels of its pages in order. -/
theorem anchors_draft {text : String} (h : (b.draft text ps).fault = none) :
    (b.draft text ps).anchors = ps.flatMap fun p => (b.page p).anchors := by
  change (preamble text >> b.pages ps).anchors = _
  rw [anchors_seq (fault_preamble text), anchors_preamble, List.nil_append,
    anchors_pages (fault_pages_eq_none.mpr (fault_draft_eq_none.mp h))]

/-- The title of a page, if it has one. -/
def heading (p : Page) : Draft := when (p.title ≠ "") (title p)

theorem fault_heading (p : Page) : (heading p).fault = none := fault_when rfl _

/-- The label of a page as a whole, if the page needs one. -/
def ownAnchor (b : Book) (p : Page) : Draft :=
  when (!b.renderer.labels.hasHeadings p.path) (b.pageAnchor p)

/-- A page at a depth with a heading is not passed over. -/
private theorem page_of_hasLevel (h : p.hasLevel = true) (hpath : p.isSection = false) :
    b.page p =
      if p.isRaw then b.rawPage p
      else match p.tree with
        | none => notice (.emptyPage p.path)
        | some tree =>
          searched tree >> heading p >> b.ownAnchor p >> b.renderer.tree (start p tree) tree := by
  have hdepth : ¬(p.depth < 1 ∨ deepestHeading < p.depth) := by
    simp only [Page.hasLevel, Bool.and_eq_true, decide_eq_true_eq] at h
    omega
  rw [page, if_neg hdepth, hpath]
  rfl

/-- A page that does not show its tree is passed over with a notice, or it is a title or the
inclusion of a hand-written page, which may not be found. -/
theorem page_of_not_isShown (h : p.isShown = false) :
    b.page p = notice (.depthOutOfRange (if p.path = "" then p.title else p.path) p.depth) ∨
      b.page p = notice (.emptyPage p.path) ∨ b.page p = title p ∨ b.page p = b.inclusion p ∨
        ∃ f, b.page p = stop f := by
  rw [page]
  split
  · exact .inl rfl
  · next hdepth =>
    have hlevel : p.hasLevel = true := by
      rw [Page.hasLevel, Bool.and_eq_true, decide_eq_true_eq, decide_eq_true_eq]
      omega
    split
    · exact .inr (.inr (.inl rfl))
    · next hsection =>
      split
      · refine .inr (.inr (.inr ?_))
        rw [rawPage]
        split
        · next folder _ =>
          cases folder.hasFile p.path with
          | error f => exact .inr ⟨f, rfl⟩
          | ok found =>
            cases found with
            | false => exact .inr ⟨_, rfl⟩
            | true => exact .inl rfl
        · exact .inl rfl
      · next hraw =>
        cases htree : p.tree with
        | none => exact .inr (.inl rfl)
        | some tree => simp [Page.isShown, hlevel, hsection, hraw, htree] at h

/-- A page that shows its tree is its title, its own label if it has no heading, and the tree. -/
theorem page_eq_of_isShown (h : p.isShown = true) {tree : Node} (htree : p.tree = some tree) :
    b.page p =
      searched tree >> heading p >> b.ownAnchor p >> b.renderer.tree (start p tree) tree := by
  simp only [Page.isShown, Bool.and_eq_true, Bool.not_eq_true'] at h
  rw [page_of_hasLevel h.1.1.1 h.1.1.2, h.1.2, htree]
  rfl

/-- A hand-written page is included. -/
theorem page_eq_rawPage (h : p.isWritten = true) (hraw : p.isRaw = true) :
    b.page p = b.rawPage p := by
  simp only [Page.isWritten, Bool.and_eq_true, Bool.not_eq_true'] at h
  rw [page_of_hasLevel h.1.1 h.1.2, if_pos hraw]

/-- A hand-written page that is written without a fault is its inclusion. -/
theorem page_eq_inclusion (h : p.isWritten = true) (hraw : p.isRaw = true)
    (hok : (b.page p).fault = none) : b.page p = b.inclusion p := by
  rw [page_eq_rawPage h hraw] at hok ⊢
  rw [rawPage] at hok ⊢
  cases hsource : b.source with
  | none => rfl
  | some folder =>
    simp only [hsource] at hok ⊢
    cases hfile : folder.hasFile p.path with
    | error f => simp [hfile, Draft.ofExcept, Draft.stop] at hok
    | ok found =>
      cases found with
      | false => simp [hfile, Draft.ofExcept, Draft.stop] at hok
      | true => rfl

end Book

end Folio
