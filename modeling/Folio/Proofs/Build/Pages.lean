import Folio.Proofs.Book.Unique
import Folio.Proofs.Disk.Jobs

/-!
# The pages that a build writes

A build reads the Markdown of its pages, converts it, and fills in documentation and then listings.
So the pages that it writes are of the kind whose labels are known to be unique but for those of
documentation and of footnotes.
-/

namespace Folio

namespace Manuscript

variable {m : Manuscript} {copy : Location} {desk desk' : Desk}

/-- The tree of a page is what its Markdown is converted to, with documentation filled in. -/
theorem tree_ok {path : String} {nodes : List Node}
    (h : m.tree copy path desk = .ok nodes desk') :
    ∃ elements bare, Markdown.documentTree path elements = .ok bare ∧
      nodes = (documentPage m.lookup path bare).nodes := by
  simp only [tree] at h
  obtain ⟨found, mid, -, h⟩ := Job.bind_eq_ok.mp h
  split at h
  · obtain ⟨text, mid, -, h⟩ := Job.bind_eq_ok.mp h
    cases helements : m.markdown text with
    | none =>
      rw [helements] at h
      cases h
    | some elements =>
      rw [helements] at h
      cases hbare : Markdown.documentTree path elements with
      | error f =>
        simp only [hbare] at h
        cases h
      | ok bare =>
        simp only [hbare] at h
        obtain ⟨_, _, -, h⟩ := Job.bind_eq_ok.mp h
        obtain ⟨_, _, -, h⟩ := Job.bind_eq_ok.mp h
        cases h
        exact ⟨elements, bare, hbare, rfl⟩
  · obtain ⟨_, _, h, -⟩ := Job.bind_eq_ok.mp h
    cases h

/-- An entry of the page list gives a page as its Markdown makes it. -/
theorem page_ok {entry : PageEntry} {p : Page} (h : m.page copy entry desk = .ok p desk') :
    p.IsConverted m.lookup := by
  simp only [page] at h
  split at h
  · cases h
    nofun
  · obtain ⟨nodes, mid, htree, h⟩ := Job.bind_eq_ok.mp h
    cases h
    obtain ⟨elements, bare, hbare, rfl⟩ := tree_ok htree
    rintro tree ⟨⟩
    exact ⟨elements, bare, hbare, rfl⟩

/-- Each entry of the page list gives its page. -/
theorem bareEntries_loaded {entries : List PageEntry} {ps : List Page}
    (h : m.bareEntries copy entries desk = .ok ps desk') :
    List.Forall₂ (fun entry p => ∃ desk desk', m.page copy entry desk = .ok p desk')
      entries ps := by
  induction entries generalizing ps desk with
  | nil =>
    cases h
    exact .nil
  | cons entry rest ih =>
    simp only [bareEntries] at h
    obtain ⟨p, mid, hp, h⟩ := Job.bind_eq_ok.mp h
    obtain ⟨others, last, hothers, h⟩ := Job.bind_eq_ok.mp h
    cases h
    exact .cons ⟨desk, mid, hp⟩ (ih hothers)

/-- The pages that are loaded are those of the page list, with listings filled in. -/
theorem pages_loaded {ps : List Page} (h : m.pages copy desk = .ok ps desk') :
    ∃ bare mid, m.bareEntries copy m.config.pages desk = .ok bare mid ∧
      bare.mapM (listedPage bare) = .ok ps := by
  simp only [pages] at h
  obtain ⟨bare, mid, hbare, h⟩ := Job.bind_eq_ok.mp h
  cases hpages : bare.mapM (listedPage bare) with
  | error f =>
    rw [hpages] at h
    cases h
  | ok pages =>
    rw [hpages] at h
    cases h
    exact ⟨bare, _, hbare, hpages⟩

/-- The pages of a build come from Markdown, with documentation and then listings filled in. -/
theorem pages_ok {ps : List Page} (h : m.pages copy desk = .ok ps desk') :
    ∃ bare : List Page, (∀ p ∈ bare, p.IsConverted m.lookup) ∧
      bare.mapM (listedPage bare) = .ok ps := by
  obtain ⟨bare, mid, hbare, hlisted⟩ := pages_loaded h
  refine ⟨bare, fun p hp => ?_, hlisted⟩
  obtain ⟨entry, -, _, _, hpage⟩ := exists_left_of_forall₂ (bareEntries_loaded hbare) hp
  exact page_ok hpage

end Manuscript

end Folio
