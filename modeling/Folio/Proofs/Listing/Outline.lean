import Folio.Listing
import Folio.Proofs.Node.Tidy
import Folio.Proofs.Results

/-!
# Listings and the outline of a page

Filling in documentation and listings changes the fences of a page and nothing else. The outline of
the page stays the same, because neither documentation nor a listing has a heading in it, and a tidy
page stays tidy, because an entry of a table of contents takes over the text of a heading.
-/

namespace Folio

open Node

/-- Nodes with a given outline, in which every text of a heading is a phrase. -/
structure HasOutline (hs : List Heading) (nodes : List Node) : Prop where
  headings : headingsAll nodes = hs
  tidy : ∀ n ∈ nodes, n.Tidy

namespace HasOutline

variable {hs gs : List Heading} {nodes others : List Node} {node : Node}

theorem nil : HasOutline [] [] := ⟨rfl, nofun⟩

theorem append (h : HasOutline hs nodes) (hothers : HasOutline gs others) :
    HasOutline (hs ++ gs) (nodes ++ others) where
  headings := by rw [headingsAll_append, h.headings, hothers.headings]
  tidy := fun n hn => (List.mem_append.mp hn).elim (h.tidy n) (hothers.tidy n)

theorem singleton (h : node.Tidy) : HasOutline node.headings [node] where
  headings := by rw [headingsAll, headingsAll, List.append_nil]
  tidy := List.forall_mem_singleton.mpr h

/-- A node below which nothing stands. -/
theorem leaf (hphrases : node.HasPhrases) (hchildren : node.children = [])
    (h : node.headings = []) : HasOutline [] [node] := by
  rw [← h]
  exact singleton (.of_children hphrases (by rw [hchildren]; nofun))

end HasOutline

/-! ### Documentation -/

/-- Documentation has no heading of the outline in it, whether it is found or missing. -/
theorem hasOutline_documentBinding (lookup : Lookup) (page name : String) :
    HasOutline [] (documentBinding lookup page name).nodes := by
  rw [documentBinding]
  split
  · have hphrase : IsPhrase [.strong [.text "Missing documentation: "], .code name] := by
      simp [IsPhrase, walkAll, walk, isInline]
    have htidy : (missingDocumentation name).Tidy := .of_children trivial hphrase.tidy
    have hnone : (missingDocumentation name).headings = [] := hphrase.headingsAll_eq_nil
    rw [← hnone]
    exact .singleton htidy
  · exact .leaf trivial rfl rfl

/-- One after the other, documented parts have their outlines one after the other. -/
theorem hasOutline_foldr {α : Type} {f : α → Documented} {outline : α → List Heading}
    {l : List α} (h : ∀ a ∈ l, HasOutline (outline a) (f a).nodes) :
    HasOutline (l.flatMap outline)
      ((l.map f).foldr (· ++ ·) (⟨[], [], []⟩ : Documented)).nodes := by
  induction l with
  | nil => exact .nil
  | cons a rest ih =>
    obtain ⟨ha, hrest⟩ := List.forall_mem_cons.mp h
    exact ha.append (ih hrest)

theorem hasOutline_documentNode (lookup : Lookup) (page : String) {n : Node} (hn : n.Tidy) :
    HasOutline n.headings (documentNode lookup page n).nodes := by
  cases n with
  | raw target text =>
    have hnone : (raw target text).headings = [] := rfl
    rw [documentNode, hnone]
    split
    · have hnames : ((listedNames text).flatMap fun _ => []) = ([] : List Heading) :=
        List.flatMap_eq_nil_iff.mpr fun _ _ => rfl
      rw [← hnames]
      exact hasOutline_foldr fun name _ => hasOutline_documentBinding lookup page name
    · exact .leaf trivial rfl rfl
  | _ => exact .singleton hn

/-- Filling in documentation keeps the outline of a page. -/
theorem hasOutline_documentPage (lookup : Lookup) (page : String) {nodes : List Node}
    (h : ∀ n ∈ nodes, n.Tidy) :
    HasOutline (headingsAll nodes) (documentPage lookup page nodes).nodes := by
  rw [headingsAll_eq_flatMap]
  exact hasOutline_foldr fun n hn => hasOutline_documentNode lookup page (h n hn)

/-! ### Listings -/

/-- The entries of a table of contents of tidy pages are phrases. -/
theorem hasPhrases_contentsBlock (o : ListingOptions) {pages : List Page}
    (hpages : ∀ p ∈ pages, ∀ n ∈ p.contents, n.Tidy) : (contentsBlock o pages).HasPhrases := by
  refine List.forall_mem_map.mpr fun line hline => ?_
  obtain ⟨p, hp, hline⟩ := List.mem_flatMap.mp hline
  obtain ⟨h, hh, rfl⟩ := List.mem_map.mp hline
  exact Tidy.isPhrase_of_mem_headingsAll (hpages p (List.mem_of_mem_filter hp))
    (List.mem_of_mem_filter hh)

/-- The covered pages that have a tree. -/
def coveredTrees (o : ListingOptions) (pages : List Page) : List Page :=
  pages.filter fun p => p.tree.isSome && o.covers p.path

/-- What is found in the trees of the covered pages is found on those that have one. -/
theorem flatMap_coveredPages {α : Type} {f : Page → List α} (hf : ∀ p, p.tree = none → f p = [])
    (o : ListingOptions) (pages : List Page) :
    (coveredPages o pages).flatMap f = (coveredTrees o pages).flatMap f := by
  induction pages with
  | nil => rfl
  | cons p rest ih =>
    rw [coveredPages, coveredTrees] at ih ⊢
    cases hcovers : o.covers p.path with
    | false => simp [hcovers, ih]
    | true =>
      cases htree : p.tree with
      | none => simp [hcovers, htree, hf p htree, ih]
      | some tree => simp [hcovers, htree, ih]

/-- A page without a tree has nothing on it. -/
theorem Page.contents_of_tree_eq_none {p : Page} (h : p.tree = none) : p.contents = [] := by
  rw [Page.contents, h]
  rfl

/-- A listing of readable pages is made. -/
theorem listing_of_isReadable {o : ListingOptions} {content : String} {pages : List Page}
    (ho : ListingOptions.ofText? content = some o)
    (hpages : ∀ p ∈ pages, o.covers p.path → p.isReadable)
    (block : ListingOptions → List Page → Node) :
    listing block content pages = .ok (block o pages) := by
  have hall : (coveredPages o pages).all Page.isReadable = true := by
    refine List.all_eq_true.mpr fun p hp => ?_
    obtain ⟨hp, hcovers⟩ := List.mem_filter.mp hp
    exact hpages p hp hcovers
  rw [listing, ho]
  exact if_pos hall

/-- A listing that is made is a block with the options of its text. -/
theorem listing_eq_ok {block : ListingOptions → List Page → Node} {content : String}
    {pages : List Page} {n : Node} (h : listing block content pages = .ok n) :
    ∃ o, ListingOptions.ofText? content = some o ∧ n = block o pages := by
  rw [listing] at h
  split at h
  · cases h
  · next o ho =>
    split at h
    · exact ⟨o, ho, (Except.ok.inj h).symm⟩
    · cases h

/-- A table of contents or an index stands for the place of one, and every other node for itself. -/
theorem listNode_cases {pages : List Page} {n m : Node} (h : listNode pages n = .ok m) :
    (m = n ∧ ∀ content, n ≠ raw contentsFence content ∧ n ≠ raw indexFence content) ∨
      ∃ content o, ListingOptions.ofText? content = some o ∧
        (n = raw contentsFence content ∧ m = contentsBlock o pages ∨
          n = raw indexFence content ∧ m = indexBlock o pages) := by
  cases n with
  | raw target content =>
    rw [listNode] at h
    split at h
    · next hcontents =>
      obtain ⟨o, ho, rfl⟩ := listing_eq_ok h
      exact .inr ⟨content, o, ho, .inl ⟨by rw [hcontents], rfl⟩⟩
    · next hcontents =>
      split at h
      · next hindex =>
        obtain ⟨o, ho, rfl⟩ := listing_eq_ok h
        exact .inr ⟨content, o, ho, .inr ⟨by rw [hindex], rfl⟩⟩
      · next hindex =>
        exact .inl ⟨(Except.ok.inj h).symm, fun _ =>
          ⟨fun heq => hcontents (raw.inj heq).1, fun heq => hindex (raw.inj heq).1⟩⟩
  | _ => exact .inl ⟨(Except.ok.inj h).symm, fun _ => ⟨nofun, nofun⟩⟩

theorem hasOutline_listNode {pages : List Page} (hpages : ∀ p ∈ pages, ∀ n ∈ p.contents, n.Tidy)
    {n m : Node} (hn : n.Tidy) (h : listNode pages n = .ok m) : HasOutline n.headings [m] := by
  rcases listNode_cases h with ⟨rfl, -⟩ | ⟨content, o, -, ⟨rfl, rfl⟩ | ⟨rfl, rfl⟩⟩
  · exact .singleton hn
  · exact .leaf (hasPhrases_contentsBlock o hpages) rfl rfl
  · exact .leaf trivial rfl rfl

/-- Filling in listings keeps the outline of a page. -/
theorem hasOutline_listPage {pages : List Page} (hpages : ∀ p ∈ pages, ∀ n ∈ p.contents, n.Tidy)
    {nodes listed : List Node} (hnodes : ∀ n ∈ nodes, n.Tidy)
    (h : listPage pages nodes = .ok listed) : HasOutline (headingsAll nodes) listed := by
  have hall := forall₂_of_mapM_eq_ok h
  clear h
  induction hall with
  | nil => exact .nil
  | cons hm _ ih =>
    obtain ⟨hn, hrest⟩ := List.forall_mem_cons.mp hnodes
    rw [headingsAll]
    exact (hasOutline_listNode hpages hn hm).append (ih hrest)

end Folio
