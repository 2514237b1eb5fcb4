import Folio.Proofs.Book.Anchors
import Folio.Proofs.Markdown.Fitting
import Folio.Proofs.Markdown.Footnotes
import Folio.Proofs.Render.Circles

/-!
# Pages whose footnotes refer to each other in a circle

A page is written with as many levels of footnotes as it has footnotes. This is no limit of its
own: a page that comes to an end at any depth comes to the same end here, and a page gives up here
only if no depth is enough. It gives up only if its text leads to a circle of footnotes, and no page
whose text leads to one is written to its end. Any other end of a page that has been converted is
a text or a fault that is reported.
-/

namespace Folio

open Draft

/-- The tree of a page with footnotes nested at most so many times. -/
def Renderer.treeUpTo (r : Renderer) (depth : Nat) (c : Context) (tree : Node) : Draft :=
  match tree.contents? with
  | some cs => draftTop r (r.draftUpTo depth) c cs
  | none => stop .misplaced

/-- Whether the tree of a page, if it has one, has contents, and each node in it holds only what it
is written with. -/
def Page.IsFitting (p : Page) : Prop :=
  ∀ tree, p.tree = some tree → tree.contents?.isSome = true ∧ Node.Fitting [tree]

/-- The tree that a page is converted to is fitting. -/
theorem Page.isFitting_of_documentTree {p : Page} {elements : List Markdown.Element}
    {cs : List Node} (h : Markdown.documentTree p.path elements = .ok cs)
    (htree : p.tree = some (.document cs)) : p.IsFitting := by
  intro tree htree'
  obtain rfl := Option.some.inj (htree.symm.trans htree')
  exact ⟨rfl, Markdown.fitting_documentTree h⟩

/-- Whether the text of a page leads to footnotes that refer to each other in a circle. -/
def Page.Circles (p : Page) : Prop :=
  p.isShown = true ∧ ∃ id ∈ Node.marksAll p.contents, p.notes.Circles id

namespace Book

variable {b : Book} {p : Page}

/-- One page with footnotes nested at most so many times; only a tree has footnotes. -/
def pageUpTo (b : Book) (depth : Nat) (p : Page) : Draft :=
  match p.isShown, p.tree with
  | true, some tree =>
    searched tree >> heading p >> b.ownAnchor p >>
      b.renderer.treeUpTo depth (start p tree) tree
  | _, _ => b.page p

theorem pageUpTo_of_isShown (h : p.isShown = true) {tree : Node} (htree : p.tree = some tree)
    (depth : Nat) :
    b.pageUpTo depth p =
      searched tree >> heading p >> b.ownAnchor p >>
        b.renderer.treeUpTo depth (start p tree) tree := by
  rw [pageUpTo, h, htree]

theorem pageUpTo_of_not_isShown (h : p.isShown = false) (depth : Nat) :
    b.pageUpTo depth p = b.page p := by
  rw [pageUpTo, h]

/-- A page is written with as many levels of footnotes as it has footnotes. -/
theorem page_eq_pageUpTo (b : Book) (p : Page) : b.page p = b.pageUpTo p.notes.length p := by
  cases hshown : p.isShown with
  | false => rw [pageUpTo_of_not_isShown hshown]
  | true =>
    obtain ⟨tree, htree⟩ := Page.exists_tree hshown
    rw [page_eq_of_isShown hshown htree, pageUpTo_of_isShown hshown htree, Page.notes, htree]
    rfl

/-- A hand-written page that cannot be included is reported. -/
theorem rawPage_faultsIn (b : Book) (p : Page) : (b.rawPage p).FaultsIn Fault.IsReported := by
  have hinclusion : (b.inclusion p).fault = none :=
    fault_seq_eq_none.mpr ⟨fault_heading p, rfl⟩
  rw [rawPage]
  split
  · refine .ofExcept (fun _ => Folder.isReported_of_hasFile) fun found => ?_
    split
    · exact .plain hinclusion
    · exact .stop (.inl rfl)
  · exact .plain hinclusion

/-- A page that does not show its tree has no fault but one that is reported. -/
theorem faultsIn_of_not_isShown (h : p.isShown = false) :
    (b.page p).FaultsIn Fault.IsReported := by
  rw [page]
  split
  · exact .plain
  · next hdepth =>
    split
    · exact .plain
    · next hsection =>
      split
      · exact b.rawPage_faultsIn p
      · next hraw =>
        cases htree : p.tree with
        | none => exact .plain
        | some tree =>
          have hlevel : p.hasLevel = true := by
            rw [Page.hasLevel, Bool.and_eq_true, decide_eq_true_eq, decide_eq_true_eq]
            omega
          simp [Page.isShown, hlevel, hsection, hraw, htree] at h

theorem fault_ownAnchor (b : Book) (p : Page) : (b.ownAnchor p).fault = none := fault_when rfl _

/-- A fitting page gives up or ends with a fault that is reported. -/
theorem page_faultsIn (b : Book) (hp : p.IsFitting) :
    (b.page p).FaultsIn fun f => f = .circularFootnote ∨ f.IsReported := by
  cases hshown : p.isShown with
  | false => exact fun f hf => .inr (faultsIn_of_not_isShown hshown f hf)
  | true =>
    obtain ⟨tree, htree⟩ := Page.exists_tree hshown
    obtain ⟨hcontents, hfitting⟩ := hp tree htree
    obtain ⟨cs, hcs⟩ := Option.isSome_iff_exists.mp hcontents
    have hsearched : (searched tree).fault = none := by
      rw [searched, hfitting.isSearchable]
      rfl
    have hbody : (b.renderer.tree (start p tree) tree).FaultsIn
        fun f => f = .circularFootnote ∨ f.IsReported := by
      rw [Renderer.tree, hcs]
      exact Passage.draft_faultsIn _ _ (fun _ => .inr) (b.renderer.draftUpTo_faultsIn _)
        (.top (start p tree) cs) hfitting.notes rfl (hfitting.contents hcs)
    rw [page_eq_of_isShown hshown htree]
    exact .behind (.behind (.behind hbody (b.fault_ownAnchor p)) (fault_heading p)) hsearched

/-- A page that shows its tree gives up where its tree does. -/
theorem givesUp_pageUpTo_iff (h : p.isShown = true) {tree : Node} (htree : p.tree = some tree)
    (depth : Nat) :
    (b.pageUpTo depth p).GivesUp ↔
      tree.isSearchable = true ∧ (b.renderer.treeUpTo depth (start p tree) tree).GivesUp := by
  have hheading : ¬(heading p).GivesUp := not_givesUp_of_fault (fault_heading p)
  have hanchor : ¬(b.ownAnchor p).GivesUp := not_givesUp_of_fault (b.fault_ownAnchor p)
  rw [pageUpTo_of_isShown h htree, givesUp_seq, givesUp_seq, givesUp_seq, or_iff_right hheading,
    or_iff_right hanchor, and_iff_right (fault_heading p), and_iff_right (b.fault_ownAnchor p),
    searched]
  cases hsearchable : tree.isSearchable with
  | true => simp [GivesUp, Draft.empty]
  | false => simp [GivesUp, Draft.stop]

/-- A page that does not give up is the same with more levels of footnotes. -/
theorem pageUpTo_settles {k k' : Nat} (hk : k ≤ k') (b : Book) (p : Page) :
    Settles (b.pageUpTo k p) (b.pageUpTo k' p) := by
  have hrefl := Settles.congruence.refl
  cases hshown : p.isShown with
  | false =>
    rw [pageUpTo_of_not_isShown hshown, pageUpTo_of_not_isShown hshown]
    exact hrefl _
  | true =>
    obtain ⟨tree, htree⟩ := Page.exists_tree hshown
    have hbody : Settles (b.renderer.treeUpTo k (start p tree) tree)
        (b.renderer.treeUpTo k' (start p tree) tree) := by
      rw [Renderer.treeUpTo, Renderer.treeUpTo]
      cases tree.contents? with
      | none => exact hrefl _
      | some cs => exact b.renderer.draftTop_settles hk (start p tree) cs
    rw [pageUpTo_of_isShown hshown htree, pageUpTo_of_isShown hshown htree]
    exact Settles.congruence.seq (hrefl _)
      (Settles.congruence.seq (hrefl _) (Settles.congruence.seq (hrefl _) hbody))

/-- A page that gives up shows a tree whose contents give up. -/
theorem exists_contents_of_givesUp (h : (b.page p).GivesUp) :
    p.isShown = true ∧ ∃ tree, p.tree = some tree ∧ tree.isSearchable = true ∧
      tree.contents? = some p.contents ∧
      (draftTop b.renderer (b.renderer.draftUpTo (start p tree).notes.length) (start p tree)
        p.contents).GivesUp := by
  cases hshown : p.isShown with
  | false => exact absurd h (faultsIn_of_not_isShown hshown).not_givesUp
  | true =>
    obtain ⟨tree, htree⟩ := Page.exists_tree hshown
    have hnotes : p.notes = (start p tree).notes := by
      rw [Page.notes, htree]
      rfl
    rw [page_eq_pageUpTo, givesUp_pageUpTo_iff hshown htree, hnotes] at h
    obtain ⟨hsearchable, hup⟩ := h
    rw [Renderer.treeUpTo] at hup
    cases hcontents : tree.contents? with
    | none =>
      rw [hcontents] at hup
      cases hup
    | some cs =>
      have hcs : p.contents = cs := by
        rw [Page.contents, htree, Option.bind_some, hcontents]
        rfl
      rw [hcontents] at hup
      rw [hcs]
      exact ⟨rfl, tree, htree, hsearchable, hcontents, hup⟩

/-- A page that gives up gives up at every depth. -/
theorem pageUpTo_givesUp (h : (b.page p).GivesUp) (depth : Nat) : (b.pageUpTo depth p).GivesUp := by
  obtain ⟨hshown, tree, htree, hsearchable, hcontents, hup⟩ := exists_contents_of_givesUp h
  have hdepth := b.renderer.draftTop_givesUp hup depth
  rw [givesUp_pageUpTo_iff hshown htree, Renderer.treeUpTo, hcontents]
  exact ⟨hsearchable, hdepth⟩

/-- A page that gives up leads to a circle of footnotes. -/
theorem circles_of_givesUp (h : (b.page p).GivesUp) : p.Circles := by
  obtain ⟨hshown, tree, htree, -, -, hup⟩ := exists_contents_of_givesUp h
  have hcircles := b.renderer.exists_circles hup
  refine ⟨hshown, ?_⟩
  rw [Page.notes, htree]
  exact hcircles

/-- A page that leads to a circle of footnotes is not written to its end. -/
theorem fault_ne_none_of_circles (h : p.Circles) : (b.page p).fault ≠ none := by
  obtain ⟨hshown, id, hid, hcircle⟩ := h
  obtain ⟨tree, htree⟩ := Page.exists_tree hshown
  intro hnone
  rw [page_eq_of_isShown hshown htree, fault_seq_eq_none, fault_seq_eq_none, fault_seq_eq_none]
    at hnone
  obtain ⟨-, -, -, hbody⟩ := hnone
  rw [Page.contents, htree, Option.bind_some] at hid
  rw [Page.notes, htree] at hcircle
  rw [Renderer.tree] at hbody
  cases hcontents : tree.contents? with
  | none =>
    rw [hcontents] at hbody
    cases hbody
  | some cs =>
    rw [hcontents] at hid hbody
    exact b.renderer.not_circles hbody id hid hcircle

/-- The writing of a page gives up exactly if it would not end at any depth. Then the page leads to
footnotes that refer to each other in a circle, and a page that leads to such footnotes is not
written to its end. Any other page is the same at every depth from the number of its footnotes on,
and if it has been converted it ends as a text, or with an error of the program itself or of the
disk. -/
theorem page_gives_up_iff (b : Book) (p : Page) :
    ((b.page p).GivesUp ↔ ∀ depth, (b.pageUpTo depth p).GivesUp) ∧
      ((b.page p).GivesUp → p.Circles) ∧ (p.Circles → (b.page p).fault ≠ none) ∧
      (¬(b.page p).GivesUp → ∀ depth, p.notes.length ≤ depth →
        b.pageUpTo depth p = b.page p) ∧
      (p.IsFitting → ∀ f, (b.page p).fault = some f → (b.page p).GivesUp ∨ f.IsReported) ∧
      ∀ elements cs, Markdown.documentTree p.path elements = .ok cs →
        p.tree = some (.document cs) → p.IsFitting := by
  refine ⟨⟨pageUpTo_givesUp, fun h => ?_⟩, circles_of_givesUp, fault_ne_none_of_circles,
    fun hup depth hdepth => ?_, fun hp f hf => ?_, fun _ _ => Page.isFitting_of_documentTree⟩
  · rw [page_eq_pageUpTo]
    exact h p.notes.length
  · rw [page_eq_pageUpTo] at hup ⊢
    exact pageUpTo_settles hdepth b p hup
  · rcases b.page_faultsIn hp f hf with rfl | hreported
    · exact .inl hf
    · exact .inr hreported

/-- The syntax tree of a page with a footnote that refers to itself. -/
def circlingElements : List Markdown.Element :=
  let mark : Markdown.Element := .mk .footnoteMark (Markdown.sampleNoted 0 (.text "a")) []
  [Markdown.sampleParagraph [Markdown.sampleText "one", mark],
    .mk .footnoteBlock ⟨"", "", "", [], []⟩ [
      .mk .other (Markdown.sampleNoted 0 (.text "a"))
        [Markdown.sampleParagraph [Markdown.sampleText "see ", mark]]]]

/-- The page of this syntax tree. -/
def circlingPage : Page :=
  ⟨"notes.md", some (.document [
    .paragraph [.text "one", .footnoteMark "a"],
    .footnote "a" [.paragraph [.text "see ", .footnoteMark "a"]]]), "", 1⟩

/-- A page with a footnote that refers to itself is not written at any depth. -/
theorem circling_page_never_ends :
    Markdown.documentTree "notes.md" circlingElements = .ok circlingPage.contents ∧
      ∀ depth, ((ofPages (fun _ => none) "" true none [circlingPage]).pageUpTo depth
        circlingPage).GivesUp :=
  ⟨rfl, pageUpTo_givesUp (b := ofPages (fun _ => none) "" true none [circlingPage])
    (p := circlingPage) rfl⟩

end Book

end Folio
