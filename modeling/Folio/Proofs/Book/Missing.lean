import Folio.Proofs.Book.Unique
import Folio.Proofs.Listing.Places
import Folio.Proofs.Node.Notes
import Folio.Proofs.Render.Missing

/-!
# Footnotes that a book of complete pages misses

A page is complete if each of its marks has a footnote on it. A table of contents takes over the
headings of other pages with their marks, but not their footnotes, and a mark is looked up on the
page that it is written on. So a book of complete pages misses exactly the footnotes of marks in
headings that are listed on a page without a footnote of this name.
-/

namespace Folio

open Draft

namespace Page

/-- Whether a footnote stands on a page, in its documentation perhaps. -/
def HasFootnote (p : Page) (id : String) : Prop :=
  ∃ cs, .footnote id cs ∈ Node.deepWalkAll p.contents

/-- Whether every mark on a page, in whatever stands on it, has a footnote on the page. -/
def IsComplete (p : Page) : Prop :=
  ∀ id, .footnoteMark id ∈ Node.partsAll p.contents → p.HasFootnote id

/-- Whether a table of contents of a page lists a heading with a mark. -/
def Lists (pages : List Page) (p : Page) (id : String) : Prop :=
  ∃ content o, .raw contentsFence content ∈ p.contents ∧
    ListingOptions.ofText? content = some o ∧
      ∃ l ∈ contentsLines o pages, .footnoteMark id ∈ Node.walkAll l.heading.children

/-- Whether a text stands on a page as it is: as raw markup or as code. -/
def Quotes (p : Page) (s : String) : Prop :=
  (∃ target, .raw target s ∈ Node.partsAll p.contents) ∨
    ∃ info, .codeBlock s info ∈ Node.partsAll p.contents

end Page

/-! ### Filling in listings -/

section Listed

variable {pages : List Page} {nodes listed : List Node}

/-- A listing has no footnote in it that is searched for. -/
theorem searchFootnotes_listNode {n m : Node} (h : listNode pages n = .ok m) :
    m.searchFootnotes = n.searchFootnotes := by
  rcases listNode_cases h with ⟨rfl, -⟩ | ⟨content, o, -, ⟨rfl, rfl⟩ | ⟨rfl, rfl⟩⟩ <;> rfl

/-- Filling in listings keeps the footnotes of a page. -/
theorem searchFootnotesAll_listPage (h : listPage pages nodes = .ok listed) :
    Node.searchFootnotesAll listed = Node.searchFootnotesAll nodes := by
  have hall := forall₂_of_mapM_eq_ok h
  clear h
  induction hall with
  | nil => rfl
  | cons hfirst _ ih =>
    rw [Node.searchFootnotesAll, Node.searchFootnotesAll, searchFootnotes_listNode hfirst, ih]

/-- What holds of all parts of a page and of all headings that it lists, and of the listings
themselves, holds of all parts of the page after listings are filled in. -/
theorem forall_partsAll_listPage {P : Node → Prop} (h : listPage pages nodes = .ok listed)
    (hgenerated : ∀ n : Node, n.isGenerated → P n) (hnodes : ∀ n ∈ Node.partsAll nodes, P n)
    (hlines : ∀ content o, .raw contentsFence content ∈ nodes →
      ListingOptions.ofText? content = some o → ∀ l ∈ contentsLines o pages,
        ∀ n ∈ Node.partsAll l.heading.children, P n) :
    ∀ n ∈ Node.partsAll listed, P n := by
  intro n hn
  obtain ⟨m, hm, hn⟩ := Node.mem_partsAll.mp hn
  obtain ⟨k, hk, hkm⟩ := exists_of_mem_of_mapM_eq_ok h hm
  rcases listNode_cases hkm with ⟨rfl, -⟩ | ⟨content, o, ho, ⟨rfl, rfl⟩ | ⟨rfl, rfl⟩⟩
  · exact hnodes n (Node.mem_partsAll.mpr ⟨m, hk, hn⟩)
  · rcases List.mem_cons.mp hn with rfl | hn
    · exact hgenerated _ rfl
    · obtain ⟨entry, hentry, hn⟩ := Node.mem_partsAll.mp hn
      obtain ⟨l, hl, rfl⟩ := List.mem_map.mp hentry
      rcases List.mem_cons.mp hn with rfl | hn
      · exact hgenerated _ rfl
      · exact hlines content o hk ho l hl n hn
  · rcases List.mem_cons.mp hn with rfl | hn
    · exact hgenerated _ rfl
    · obtain ⟨entry, hentry, hn⟩ := Node.mem_partsAll.mp hn
      obtain ⟨l, hl, rfl⟩ := List.mem_map.mp hentry
      obtain rfl := List.mem_singleton.mp hn
      exact hgenerated _ rfl

/-- A footnote is not found when listings are filled in if it does not stand on the page. -/
theorem get?_collectFootnotes_listPage {p : Page} (h : listPage pages p.contents = .ok listed)
    (hsearchable : (Node.document listed).isSearchable = true) {id : String} :
    ((Node.document listed).collectFootnotes []).get? id = none ↔ ¬p.HasFootnote id := by
  have hsearch : (Node.document listed).searchFootnotes =
      (Node.document p.contents).searchFootnotes := searchFootnotesAll_listPage h
  have hfound : (Node.document listed).footnotes = (Node.document p.contents).footnotes :=
    congrArg FootnoteSearch.found hsearch
  rw [Node.isSearchable, hsearch] at hsearchable
  rw [Node.collectFootnotes_eq_none_iff, hfound, Page.HasFootnote, not_exists]
  refine forall_congr' fun cs => not_congr ((Node.mem_footnotes_iff hsearchable).trans ?_)
  rw [Node.deepWalk, List.mem_cons]
  exact or_iff_right nofun

/-- A page shows its tree after listings are filled in if it did before. -/
theorem isShown_listed {p : Page} (htree : p.tree.isSome = true) :
    { p with tree := some (.document listed) }.isShown = p.isShown := by
  rw [Page.isShown, Page.isShown, htree]
  rfl

/-- The headings that a table of contents lists are phrases. -/
theorem isPhrase_of_mem_contentsLines (hpages : ∀ p ∈ pages, p.HasAnchors) {o : ListingOptions}
    {l : ContentsLine} (hl : l ∈ contentsLines o pages) : Node.IsPhrase l.heading.children :=
  hasPhrases_contentsBlock o (fun p hp => (hpages p hp).tidy) _ (List.mem_map_of_mem hl)

end Listed

namespace Book

variable {b : Book} {p : Page} {expected : String → String → Prop} {verbatim : Prop}

/-! ### Reports of a page -/

/-- A title has no marks of footnotes. -/
theorem title_misses : Misses expected verbatim (title p) :=
  ((Misses.prose _).both .markup).behind
    (((by decide : Diverges "#extended_heading(level: ").append _).append _).ne

/-- The heading of a part has no marks of footnotes. -/
theorem heading_misses : Misses expected verbatim (heading p) := .when title_misses _

/-- The label of a page has no marks of footnotes. -/
theorem pageAnchor_misses : Misses expected verbatim (b.pageAnchor p) :=
  ((Misses.anchor _).both .markup).behind

/-- An included page is read by the compiler. -/
theorem inclusion_misses : Misses expected verbatim (b.inclusion p) :=
  heading_misses.both (pageAnchor_misses.both (Misses.behind ((Misses.literal _).both
    (.markup (((by decide : Diverges ", offset: ").append _).append _).ne))))

/-- A page that does not show its tree reports no footnote. -/
theorem page_misses_of_not_isShown (h : p.isShown = false) :
    Misses expected verbatim (b.page p) := by
  have hnotice (n : Notice) (hn : ∀ id page, .missingFootnote id page ≠ n) :
      Misses expected verbatim (notice n) :=
    .quiet (fun id page hmem => hn id page (List.mem_singleton.mp hmem)) nofun
  rcases page_of_not_isShown h with h | h | h | h | ⟨f, h⟩ <;> rw [h]
  · exact hnotice _ nofun
  · exact hnotice _ nofun
  · exact title_misses
  · exact inclusion_misses
  · exact .stop f

/-- A page reports expected footnotes only if all parts of its tree are excused. -/
theorem page_misses (hshown : p.isShown = true) {nodes : List Node}
    (htree : p.tree = some (.document nodes))
    (h : (Node.document nodes).isSearchable = true → ∀ n ∈ Node.partsAll nodes,
      n.Excused ((Node.document nodes).collectFootnotes []) (expected p.path) verbatim) :
    Misses expected verbatim (b.page p) := by
  rw [page_eq_of_isShown hshown htree, searched]
  split
  · next hsearchable =>
    have hparts := h hsearchable
    have hnotes : ∀ id cs, ((Node.document nodes).collectFootnotes []).get? id = some cs →
        ∀ n ∈ Node.partsAll cs,
          n.Excused ((Node.document nodes).collectFootnotes []) (expected p.path) verbatim := by
      intro id cs hcs n hn
      have hmem : n ∈ (Node.document nodes).parts :=
        Node.partsAll_subset_of_collectFootnotes hsearchable hcs hn
      rcases List.mem_cons.mp hmem with rfl | hmem
      · trivial
      · exact hparts n hmem
    refine Misses.empty.both (heading_misses.both ((pageAnchor_misses.when _).both ?_))
    exact Passage.draft_misses b.renderer hnotes (b.renderer.draftUpTo_misses hnotes _)
      (.top (start p (.document nodes)) nodes) ⟨rfl, rfl⟩ hparts
  · rw [seq_of_fault (f := .misplaced) rfl]
    exact .stop _

/-- A book reports expected footnotes only if its pages do. -/
theorem draft_misses {ps : List Page} (text : String)
    (h : ∀ p ∈ ps, Misses expected verbatim (b.page p)) :
    Misses expected verbatim (b.draft text ps) := by
  -- The preamble may start like the marker, but it ends with a line end.
  have hpreamble : text ++ "\n" ≠ missingMarker := by
    intro heq
    have hlast := congrArg (fun s => s.toList.getLast?) heq
    rw [String.toList_append, List.getLast?_append] at hlast
    have hlast : some '\n' = some ' ' := hlast
    exact absurd hlast (by decide)
  refine Misses.both (.when (.markup hpreamble) _) ?_
  induction ps with
  | nil => exact .empty
  | cons p rest ih =>
    obtain ⟨hp, hrest⟩ := List.forall_mem_cons.mp h
    exact hp.both (ih hrest)

/-! ### Reports that are sure to come -/

variable {page id : String}

/-- A table of contents reports every mark without a footnote in what it lists. -/
theorem contentsBlock_reports (r : Renderer) (expand : Context → List Node → Draft) {c : Context}
    {notes : Footnotes} (hid : notes.get? id = none) (hc : c.IsOn page notes) {pages : List Page}
    (hpages : ∀ p ∈ pages, p.HasAnchors) {o : ListingOptions}
    (hmark : ∃ l ∈ contentsLines o pages, .footnoteMark id ∈ Node.walkAll l.heading.children) :
    Reports page id (draftNode r expand c (contentsBlock o pages)) := by
  have hphrase : ∀ l ∈ contentsLines o pages, Node.IsPhrase l.heading.children :=
    fun l hl => isPhrase_of_mem_contentsLines hpages hl
  have hlevel : ∀ l ∈ contentsLines o pages,
      smallestLevel ((contentsLines o pages).map fun l => l.heading.level) ≤ l.heading.level :=
    fun l hl => smallestLevel_le (List.mem_map_of_mem hl)
  have hlines : contentsLines o pages ≠ [] := by
    obtain ⟨l, hl, -⟩ := hmark
    exact List.ne_nil_of_mem hl
  rw [contentsBlock, draftNode, List.isEmpty_eq_false_iff.mpr (by simpa using hlines)]
  exact draftContents_reports hid hc hlevel hphrase hmark 1

/-- A page that shows its tree reports what a node on page level does. -/
theorem page_reports (hshown : p.isShown = true) {nodes : List Node}
    (htree : p.tree = some (.document nodes)) {n : Node} (hn : n ∈ nodes)
    (h : (Node.document nodes).isSearchable = true →
      Reports page id (draftNode b.renderer
        (b.renderer.draftUpTo ((Node.document nodes).collectFootnotes []).length)
        (start p (.document nodes)) n)) :
    Reports page id (b.page p) := by
  rw [page_eq_of_isShown hshown htree, searched]
  split
  · next hsearchable =>
    have htop := draftTop_reports b.renderer _ _ hn (h hsearchable)
    exact Reports.back (Reports.back (Reports.back htop _) _) _
  · rw [seq_of_fault (f := .misplaced) rfl]
    intro hnone
    cases hnone

/-- A book reports what one of its pages does. -/
theorem draft_reports {ps : List Page} (text : String) (hp : p ∈ ps)
    (h : Reports page id (b.page p)) : Reports page id (b.draft text ps) := by
  refine Reports.back ?_ _
  induction ps with
  | nil => cases hp
  | cons first rest ih =>
    rcases List.mem_cons.mp hp with rfl | hp
    · exact h.front _
    · exact (ih hp).back _

/-- The footnotes that a book of some pages is expected to miss on a page. -/
def Expected (bare : List Page) (page id : String) : Prop :=
  ∃ p ∈ bare, p.isShown ∧ p.path = page ∧ p.Lists bare id ∧ ¬p.HasFootnote id

/-- All parts of a complete page are excused when listings are filled in. -/
theorem excused_listPage {bare : List Page} (hanchors : ∀ p ∈ bare, p.HasAnchors) (hp : p ∈ bare)
    (hshown : p.isShown = true) (hcomplete : p.IsComplete) {listed : List Node}
    (hlisted : listPage bare p.contents = .ok listed)
    (hsearchable : (Node.document listed).isSearchable = true) :
    ∀ n ∈ Node.partsAll listed, n.Excused ((Node.document listed).collectFootnotes [])
      (Expected bare p.path) (∃ p ∈ bare, p.Quotes missingMarker) := by
  have hmissing {id : String} : ((Node.document listed).collectFootnotes []).get? id = none ↔
      ¬p.HasFootnote id := get?_collectFootnotes_listPage hlisted hsearchable
  refine forall_partsAll_listPage hlisted (fun n hn => ?_) (fun n hn => ?_) ?_
  · cases n with
    | footnoteMark | raw | codeBlock => cases hn
    | _ => trivial
  · cases n with
    | footnoteMark id => exact fun hnone => absurd (hcomplete id hn) (hmissing.mp hnone)
    | raw target content =>
      rintro rfl
      exact ⟨p, hp, .inl ⟨target, hn⟩⟩
    | codeBlock code info =>
      rintro rfl
      exact ⟨p, hp, .inr ⟨info, hn⟩⟩
    | _ => trivial
  · -- A heading taken over is a phrase, so that nothing in it counts but its marks.
    intro content o hplace ho l hl n hn
    have hphrase := isPhrase_of_mem_contentsLines hanchors hl
    rw [Node.partsAll_eq_walkAll _ hphrase] at hn
    have hinline := hphrase n hn
    cases n with
    | footnoteMark id =>
      exact fun hnone =>
        ⟨p, hp, hshown, rfl, ⟨content, o, hplace, ho, l, hl, hn⟩, hmissing.mp hnone⟩
    | raw | codeBlock => cases hinline
    | _ => trivial

/-- A book of complete pages from Markdown reports a footnote missing on a page only if the page
lists a heading with a mark that has no footnote on the page, and unless a fault ends the writing,
every such mark is reported. The marker of a missing footnote is written only with a report, or
where a page quotes it. -/
theorem missing_footnotes_are_listed {lookup : Lookup} {bare ps : List Page}
    (hbare : ∀ p ∈ bare, p.IsConverted lookup) (hcomplete : ∀ p ∈ bare, p.IsComplete)
    (hlisted : bare.mapM (Manuscript.listedPage bare) = .ok ps) (b : Book) (text : String) :
    let d := b.draft text ps
    (∀ id page, .missingFootnote id page ∈ d.notices →
      ∃ p ∈ bare, p.isShown ∧ p.path = page ∧ p.Lists bare id ∧ ¬p.HasFootnote id) ∧
      (d.fault = none → ∀ p ∈ bare, p.isShown → ∀ id, p.Lists bare id → ¬p.HasFootnote id →
        .missingFootnote id p.path ∈ d.notices) ∧
      (.markup missingMarker ∈ d.pieces →
        (∃ id page, .missingFootnote id page ∈ d.notices) ∨ ∃ p ∈ bare,
          p.Quotes missingMarker) := by
  intro d
  have hanchors : ∀ p ∈ bare, p.HasAnchors := fun p hp => (hbare p hp).hasAnchors
  have hmisses : Misses (Expected bare) (∃ p ∈ bare, p.Quotes missingMarker) d := by
    refine draft_misses text fun q hq => ?_
    obtain ⟨p, hp, hpq⟩ := exists_of_mem_of_mapM_eq_ok hlisted hq
    cases hshown : q.isShown with
    | false => exact page_misses_of_not_isShown hshown
    | true =>
      rcases Page.listedPage_eq_ok hpq with ⟨htree, rfl⟩ | ⟨hsome, listed, hpage, rfl⟩
      · simp [Page.isShown, htree] at hshown
      · refine page_misses hshown rfl fun hsearchable => ?_
        rw [isShown_listed hsome] at hshown
        exact excused_listPage hanchors hp hshown (hcomplete p hp) hpage hsearchable
  refine ⟨hmisses.reported, fun hfault p hp hshown id hlists hnone => ?_, hmisses.marked⟩
  obtain ⟨q, hq, hpq⟩ := exists_result_of_mapM_eq_ok hlisted hp
  rcases Page.listedPage_eq_ok hpq with ⟨htree, -⟩ | ⟨hsome, listed, hpage, rfl⟩
  · simp [Page.isShown, htree] at hshown
  · obtain ⟨content, o, hplace, ho, hmark⟩ := hlists
    obtain ⟨n, hn, hplaced⟩ := exists_result_of_mapM_eq_ok hpage hplace
    rw [listNode, if_pos rfl] at hplaced
    obtain ⟨o', ho', rfl⟩ := listing_eq_ok hplaced
    obtain rfl := Option.some.inj (ho.symm.trans ho')
    refine draft_reports text hq (page_reports ?_ rfl hn fun hsearchable => ?_) hfault
    · exact (isShown_listed hsome).trans hshown
    · exact contentsBlock_reports _ _
        ((get?_collectFootnotes_listPage hpage hsearchable).mpr hnone) ⟨rfl, rfl⟩ hanchors hmark

/-- The syntax tree of a page with a heading that has a footnote. -/
def notedElements : List Markdown.Element :=
  let noted : Markdown.Attributes :=
    ⟨"", "", "", [], [(.text "id", .scalar (.int 0)), (.text "label", .text "n")]⟩
  let word (s : String) : Markdown.Element := .mk .text ⟨"", s, "", [], []⟩ []
  [.mk .heading ⟨"h1", "", "", [], []⟩ [word "Use", .mk .footnoteMark noted []],
    .mk .footnoteBlock ⟨"", "", "", [], []⟩
      [.mk .other noted [.mk .paragraph ⟨"", "", "", [], []⟩ [word "Note."]]]]

/-- The nodes of this page. -/
def notedNodes : List Node := [
  .heading 1 [.text "Use", .footnoteMark "n"] (some "Use"),
  .footnote "n" [.paragraph [.text "Note."]]]

/-- A page with a table of contents, and the page with the footnote. -/
def notedBare : List Page := [
  ⟨"index.md", some (.document [.raw "@contents" ""]), "", 1⟩,
  ⟨"guide.md", some (.document notedNodes), "", 1⟩]

/-- The same pages with the table of contents filled in. -/
def notedListed : List Page := [
  ⟨"index.md", some (.document [
    .contents [.contentsEntry "guide.md" "Use" 1 [.text "Use", .footnoteMark "n"]] 1]), "", 1⟩,
  ⟨"guide.md", some (.document notedNodes), "", 1⟩]

/-- The pages with the note come from Markdown. -/
theorem isConverted_notedBare : ∀ p ∈ notedBare, p.IsConverted sampleLookup := by
  refine List.forall_mem_cons.mpr ⟨?_, List.forall_mem_singleton.mpr ?_⟩
  · rintro tree ⟨⟩
    exact ⟨[sampleFence "@contents" ""], _, rfl, rfl⟩
  · rintro tree ⟨⟩
    exact ⟨notedElements, _, rfl, rfl⟩

/-- The documentation on the pages with the note is complete. -/
theorem isComplete_notedBare : ∀ p ∈ notedBare, p.IsComplete := by
  refine List.forall_mem_cons.mpr ⟨?_, List.forall_mem_singleton.mpr ?_⟩
  · intro id hid
    exact nomatch List.mem_singleton.mp hid
  · intro id hid
    change .footnoteMark id ∈ Node.partsAll notedNodes at hid
    simp only [notedNodes, Node.partsAll, Node.parts, List.mem_append, List.mem_cons,
      List.not_mem_nil, Node.footnoteMark.injEq, reduceCtorEq, or_false, false_or] at hid
    subst hid
    exact ⟨[.paragraph [.text "Note."]], List.mem_cons_of_mem _ (List.mem_cons_of_mem _
      (List.mem_cons_of_mem _ List.mem_cons_self))⟩

/-- A table of contents reports the mark in a heading of another page. -/
theorem missing_footnotes_are_listed_notedBare :
    (∀ p ∈ notedBare, p.IsConverted sampleLookup) ∧ (∀ p ∈ notedBare, p.IsComplete) ∧
      notedBare.mapM (Manuscript.listedPage notedBare) = .ok notedListed ∧
      .missingFootnote "n" "index.md" ∈
        ((ofPages (fun _ => none) "" true none notedListed).draft "" notedListed).notices := by
  have hlisted : notedBare.mapM (Manuscript.listedPage notedBare) = .ok notedListed := rfl
  have hok : ((ofPages (fun _ => none) "" true none notedListed).draft ""
    notedListed).fault = none := rfl
  have hreported := (missing_footnotes_are_listed isConverted_notedBare isComplete_notedBare
    hlisted (ofPages (fun _ => none) "" true none notedListed) "").2.1 hok
  refine ⟨isConverted_notedBare, isComplete_notedBare, hlisted,
    hreported _ List.mem_cons_self rfl "n" ?_ ?_⟩
  · exact ⟨"", ⟨[], 2⟩, List.mem_cons_self, rfl,
      ⟨"guide.md", 1, [.text "Use", .footnoteMark "n"], some "Use"⟩, List.mem_cons_self,
      List.mem_cons_of_mem _ List.mem_cons_self⟩
  · rintro ⟨cs, hcs⟩
    exact nomatch List.mem_singleton.mp hcs

/-- A heading with a mark is written on a page without its footnote, although the footnote stands on
the page of the heading. -/
theorem listed_heading_misses_footnote :
    (∀ p ∈ notedBare, p.IsConverted sampleLookup) ∧ (∀ p ∈ notedBare, p.IsComplete) ∧
      notedBare.mapM (Manuscript.listedPage notedBare) = .ok notedListed ∧
      let d := (ofPages (fun _ => none) "" true none notedListed).draft "" notedListed
      d.fault = none ∧ .missingFootnote "n" "index.md" ∈ d.notices ∧
        .markup missingMarker ∈ d.pieces := by
  refine ⟨isConverted_notedBare, isComplete_notedBare, rfl, rfl, List.mem_cons_self, ?_⟩
  decide

end Book

end Folio
