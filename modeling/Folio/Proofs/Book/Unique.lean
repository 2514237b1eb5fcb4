import Folio.Build.Sources
import Folio.Proofs.Book.Anchors
import Folio.Proofs.Label.Names
import Folio.Proofs.Listing.Outline
import Folio.Proofs.Markdown.Anchors
import Folio.Proofs.Render.Defined

/-!
# Labels that a book defines more than once

The anchors of a page differ from each other, and the labels of different pages differ by the path
in front, so that the headings and the pages of a book never share a label. Documentation is outside
of this care: a binding is labelled by its name, which may be the anchor of a heading of its page or
the name of a binding that is documented twice. So is a footnote with a heading, which is written at
each of its marks. The labels of a book are therefore unique exactly when those of documentation and
of footnotes differ from each other, and from those of headings and pages.
-/

namespace Folio

open Draft

/-! ### Pages from Markdown -/

namespace Page

/-- A page that has no tree, or the tree that its Markdown is converted to, with documentation
filled in. -/
def IsConverted (lookup : Lookup) (p : Page) : Prop :=
  ∀ tree, p.tree = some tree → ∃ elements nodes,
    Markdown.documentTree p.path elements = .ok nodes ∧
      tree = .document (documentPage lookup p.path nodes).nodes

/-- A tidy page on which the labels of the headings are anchors that differ from each other. -/
structure HasAnchors (p : Page) : Prop where
  nodup : ((Node.headingsAll p.contents).map Heading.label).Nodup
  anchors : ∀ h ∈ Node.headingsAll p.contents, Markdown.IsAnchor h.label
  tidy : ∀ n ∈ p.contents, n.Tidy

variable {p q : Page}

theorem IsConverted.hasAnchors {lookup : Lookup} (h : p.IsConverted lookup) : p.HasAnchors := by
  cases htree : p.tree with
  | none =>
    have hcontents : p.contents = [] := by rw [contents, htree]; rfl
    refine ⟨?_, ?_, ?_⟩ <;> rw [hcontents]
    · exact List.nodup_nil
    · exact fun _ hmem => absurd hmem List.not_mem_nil
    · exact fun _ hmem => absurd hmem List.not_mem_nil
  | some tree =>
    obtain ⟨elements, nodes, hnodes, rfl⟩ := h tree htree
    obtain ⟨used, htakes⟩ := Markdown.documentTree_takes hnodes
    have houtline := hasOutline_documentPage lookup p.path htakes.tidy
    have hcontents : p.contents = (documentPage lookup p.path nodes).nodes := by
      rw [contents, htree]; rfl
    refine ⟨?_, ?_, ?_⟩ <;> rw [hcontents]
    · have hfresh := htakes.fresh List.nodup_nil
      rw [htakes.taken, List.append_nil, List.nodup_reverse] at hfresh
      rwa [houtline.headings]
    · rw [houtline.headings]
      exact htakes.anchors
    · exact houtline.tidy

/-- A page with listings filled in is the page, or it has what is made of its tree for a tree. -/
theorem listedPage_eq_ok {pages : List Page} (h : Manuscript.listedPage pages p = .ok q) :
    p.tree = none ∧ q = p ∨
      p.tree.isSome = true ∧ ∃ listed, listPage pages p.contents = .ok listed ∧
      q = { p with tree := some (.document listed) } := by
  rw [Manuscript.listedPage] at h
  split at h
  · next htree => exact .inl ⟨htree, (Except.ok.inj h).symm⟩
  · next htree =>
    cases hlisted : listPage pages p.contents with
    | error f =>
      rw [hlisted] at h
      cases h
    | ok listed =>
      rw [hlisted] at h
      exact .inr ⟨by rw [htree]; rfl, listed, rfl, (Except.ok.inj h).symm⟩

/-- Filling in listings keeps the path of a page and its anchors. -/
theorem HasAnchors.listed {pages : List Page} (hp : p.HasAnchors)
    (hpages : ∀ p ∈ pages, p.HasAnchors) (h : Manuscript.listedPage pages p = .ok q) :
      q.HasAnchors := by
  rcases listedPage_eq_ok h with ⟨-, rfl⟩ | ⟨-, listed, hlisted, rfl⟩
  · exact hp
  · have houtline := hasOutline_listPage (fun p hp => (hpages p hp).tidy) hp.tidy hlisted
    refine ⟨?_, ?_, houtline.tidy⟩
    · have hnodup := hp.nodup
      rwa [← houtline.headings] at hnodup
    · have hanchors := hp.anchors
      rwa [← houtline.headings] at hanchors

/-- All pages have anchors that differ from each other after listings are filled in. -/
theorem HasAnchors.of_mapM {bare ps : List Page} (hbare : ∀ p ∈ bare, p.HasAnchors)
    (h : bare.mapM (Manuscript.listedPage bare) = .ok ps) : ∀ p ∈ ps, p.HasAnchors := by
  intro q hq
  obtain ⟨p, hp, hlisted⟩ := exists_of_mem_of_mapM_eq_ok h hq
  exact (hbare p hp).listed hbare hlisted

end Page

namespace Book

variable {b : Book} {p : Page} {ps : List Page}

/-! ### The definitions on a page -/

/-- The definitions on a page: its own label, if it is written by hand or has no heading, and those
in its tree. -/
def definedOn (b : Book) (p : Page) : List Definition :=
  let labels := b.renderer.labels
  if p.isWritten then
    if p.isRaw then [⟨labels.id p.path pageLabel, true⟩]
    else
      (if labels.hasHeadings p.path then [] else [⟨labels.id p.path pageLabel, true⟩]) ++
        labels.definedUpTo p.path p.notes (p.notes.length + 1) false p.contents
  else []

/-- The definitions of a book in order. -/
def defined (b : Book) (ps : List Page) : List Definition := ps.flatMap b.definedOn

/-- The labels of the headings and pages of a book. -/
def ownLabels (b : Book) (ps : List Page) : List LabelId := Labels.own (b.defined ps)

/-- The labels of documentation and of the text of footnotes, as often as they are written. -/
def furtherLabels (b : Book) (ps : List Page) : List LabelId :=
  ((b.defined ps).filter fun d => !d.own).map Definition.id

theorem defines_pageAnchor :
    Defines [⟨b.renderer.labels.id p.path pageLabel, true⟩] (b.pageAnchor p) :=
  ((Defines.anchor ⟨_, true⟩).before _).behind _

theorem anchors_heading : (heading p).anchors = [] := by
  rw [heading, when]
  split <;> rfl

/-- A page that is not written has no label. -/
theorem anchors_page_of_not_isWritten (h : p.isWritten = false) : (b.page p).anchors = [] := by
  rw [page]
  split
  · rfl
  · next hdepth =>
    have hlevel : p.hasLevel = true := by
      rw [Page.hasLevel, Bool.and_eq_true, decide_eq_true_eq, decide_eq_true_eq]
      omega
    split
    · rfl
    · next hsection =>
      split
      · next hraw => simp [Page.isWritten, hlevel, hsection, hraw] at h
      · next hraw =>
        cases htree : p.tree with
        | none => rfl
        | some tree => simp [Page.isWritten, hlevel, hsection, hraw, htree] at h

/-- A page defines the labels listed for it. -/
theorem page_defines : Defines (b.definedOn p) (b.page p) := by
  rw [definedOn]
  split
  · next hwritten =>
    split
    · next hraw =>
      intro hok
      have heq := page_eq_inclusion hwritten hraw hok
      have hinclusion : Defines [⟨b.renderer.labels.id p.path pageLabel, true⟩] (b.inclusion p) :=
        (defines_pageAnchor.before (inclusionLine p)).behind (heading p) anchors_heading
      rw [heq] at hok ⊢
      exact hinclusion hok
    · next hraw =>
      have hshown := Page.isShown_iff.mpr ⟨hwritten, Bool.not_eq_true _ ▸ hraw⟩
      obtain ⟨tree, htree⟩ := Page.exists_tree hshown
      have hsearched : (searched tree).anchors = [] := by
        rw [searched]
        split <;> rfl
      have hown : Defines (if b.renderer.labels.hasHeadings p.path then []
          else [⟨b.renderer.labels.id p.path pageLabel, true⟩]) (b.ownAnchor p) := by
        rw [ownAnchor]
        split
        · next h => rw [h]; exact .plain rfl
        · next h => rw [Bool.eq_false_iff.mpr h]; exact defines_pageAnchor
      have hbody : Defines
          (b.renderer.labels.definedUpTo p.path p.notes (p.notes.length + 1) false p.contents)
          (b.renderer.tree (start p tree) tree) := by
        rw [Renderer.tree]
        cases hcs : tree.contents? with
        | none => exact .stop _
        | some cs =>
          have hnotes : p.notes = tree.collectFootnotes [] := by rw [Page.notes, htree]; rfl
          have hcontents : p.contents = cs := by simp [Page.contents, htree, hcs]
          rw [hcontents, hnotes]
          exact Passage.draft_defines b.renderer (b.renderer.draftUpTo_defines _)
            (.top (start p tree) cs) ⟨rfl, rfl⟩
      rw [page_eq_of_isShown hshown htree]
      exact ((hown.both hbody).behind _ anchors_heading).behind _ hsearched
  · next hwritten => exact .plain (anchors_page_of_not_isWritten (Bool.not_eq_true _ ▸ hwritten))

/-- A book without a fault defines the labels listed for its pages. -/
theorem anchors_eq_defined {text : String} (hok : (b.draft text ps).fault = none) :
    (b.draft text ps).anchors = (b.defined ps).map Definition.id := by
  rw [anchors_draft hok, defined, List.map_flatMap]
  refine List.flatMap_congr fun p hp => ?_
  exact page_defines (fault_draft_eq_none.mp hok p hp)

/-! ### The labels of headings and pages -/

theorem own_flatMap {α : Type} (f : α → List Definition) (l : List α) :
    Labels.own (l.flatMap f) = l.flatMap fun a => Labels.own (f a) := by
  induction l with
  | nil => rfl
  | cons a rest ih => rw [List.flatMap_cons, Labels.own_append, ih, List.flatMap_cons]

/-- A tidy page whose headings are known defines its own label, or those of its headings at most
once each. -/
theorem own_definedOn_sublist (htidy : ∀ n ∈ p.contents, n.Tidy)
    (hknown : b.renderer.labels.hasHeadings p.path = false → Node.headingsAll p.contents = []) :
    (Labels.own (b.definedOn p)).Sublist [b.renderer.labels.id p.path pageLabel] ∨
      (Labels.own (b.definedOn p)).Sublist
        (b.renderer.labels.ofHeadings p.path (Node.headingsAll p.contents)) := by
  have htree : (Labels.own (b.renderer.labels.definedUpTo p.path p.notes (p.notes.length + 1) false
      p.contents)).Sublist (b.renderer.labels.ofHeadings p.path (Node.headingsAll p.contents)) :=
    b.renderer.labels.own_definedAll_sublist p.path p.notes _ false p.contents htidy
  rw [definedOn]
  split
  · split
    · exact .inl (List.Sublist.refl _)
    · split
      · exact .inr htree
      · next hnone =>
        rw [hknown (Bool.eq_false_iff.mpr hnone)] at htree
        rw [Labels.own_append, List.sublist_nil.mp htree, List.append_nil]
        exact .inl (List.Sublist.refl _)
  · exact .inl (List.nil_sublist _)

section Unique

variable (lexers : Language.Lexers) (base : String) (strict : Bool) (source : Option Folder)

/-- The labels of the headings of a page, or else its own label, differ from each other; they are on
the path of the page and have names without the character between path and name. -/
theorem own_definedOn (hp : p ∈ ps) (h : p.HasAnchors) :
    let own := Labels.own ((ofPages lexers base strict source ps).definedOn p)
    own.Nodup ∧ ∀ id ∈ own, id.page = Path.normal base p.path ∧ '#' ∉ id.name.toList := by
  have hknown (hnone : (Labels.ofPages base strict ps).hasHeadings p.path = false) :
      Node.headingsAll p.contents = [] := by
    refine List.eq_nil_iff_forall_not_mem.mpr fun g hg => ?_
    have hmem : g ∈ Labels.headingsOn base ps (Path.normal base p.path) :=
      Labels.mem_headingsOn.mpr ⟨p, hp, rfl, hg⟩
    exact Bool.false_ne_true (hnone.symm.trans
      ((Labels.hasHeadings_ofPages base strict ps p.path).mpr (List.ne_nil_of_mem hmem)))
  rcases own_definedOn_sublist (b := ofPages lexers base strict source ps) h.tidy hknown with
    hsub | hsub
  · refine ⟨hsub.nodup (List.nodup_singleton _), fun id hid => ?_⟩
    rw [List.mem_singleton.mp (hsub.subset hid)]
    have hname : '#' ∉ pageLabel.toList := by decide
    exact ⟨rfl, hname⟩
  · refine ⟨hsub.nodup (.of_map LabelId.name ?_), fun id hid => ?_⟩
    · rw [Labels.ofHeadings, List.map_map]
      exact h.nodup
    · obtain ⟨g, hg, rfl⟩ := List.mem_map.mp (hsub.subset hid)
      exact ⟨rfl, (h.anchors g hg).2⟩

/-- Only a written page has definitions. -/
theorem isWritten_of_mem_own {id : LabelId} (h : id ∈ Labels.own (b.definedOn p)) :
    p.isWritten = true := by
  by_contra hnot
  rw [definedOn, if_neg hnot] at h
  cases h

/-- The labels of the headings and pages of a book differ from each other. -/
theorem nodup_ownLabels (hps : ∀ p ∈ ps, p.HasAnchors)
    (hpaths : ((ps.filter Page.isWritten).map fun p => Path.normal base p.path).Nodup) :
    (((ofPages lexers base strict source ps).ownLabels ps).map LabelId.escaped).Nodup := by
  have hown (p : Page) (hp : p ∈ ps) := own_definedOn lexers base strict source hp (hps p hp)
  rw [ownLabels, defined, own_flatMap]
  refine List.Nodup.map_on ?_ (List.nodup_flatMap.mpr ⟨fun p hp => (hown p hp).1, ?_⟩)
  · intro i hi j hj hij
    obtain ⟨p, hp, hi⟩ := List.mem_flatMap.mp hi
    obtain ⟨q, hq, hj⟩ := List.mem_flatMap.mp hj
    exact LabelId.escaped_inj ((hown p hp).2 i hi).2 ((hown q hq).2 j hj).2 hij
  · have hpairs := List.pairwise_filter.mp (List.pairwise_map.mp hpaths)
    refine hpairs.imp_of_mem fun {p q} hp hq hne => ?_
    intro id hid hid'
    refine hne (isWritten_of_mem_own hid) (isWritten_of_mem_own hid') ?_
    rw [← ((hown p hp).2 id hid).1, ← ((hown q hq).2 id hid').1]

/-- The labels of headings and pages are unique in a book whose pages come from Markdown, and all
its labels are unique exactly when those of documentation and of footnotes are, and are not those
of headings or pages. -/
theorem labels_unique_iff {lookup : Lookup} {bare : List Page} {text : String}
    (hbare : ∀ p ∈ bare, p.IsConverted lookup)
    (hlisted : bare.mapM (Manuscript.listedPage bare) = .ok ps)
    (hpaths : ((ps.filter Page.isWritten).map fun p => Path.normal base p.path).Nodup)
    (hok : ((ofPages lexers base strict source ps).draft text ps).fault = none) :
    let b := ofPages lexers base strict source ps
    let anchors := (b.draft text ps).anchors.map LabelId.escaped
    let own := (b.ownLabels ps).map LabelId.escaped
    let further := (b.furtherLabels ps).map LabelId.escaped
    own.Nodup ∧ anchors.Perm (own ++ further) ∧
      (anchors.Nodup ↔ further.Nodup ∧ ∀ id ∈ further, id ∉ own) := by
  intro b anchors own further
  have hps : ∀ p ∈ ps, p.HasAnchors :=
    Page.HasAnchors.of_mapM (fun p hp => (hbare p hp).hasAnchors) hlisted
  have hown : own.Nodup := nodup_ownLabels lexers base strict source hps hpaths
  have hperm : anchors.Perm (own ++ further) := by
    have hparts : ((b.defined ps).filter Definition.own ++
        (b.defined ps).filter fun d => !d.own).Perm (b.defined ps) :=
      List.filter_append_perm Definition.own (b.defined ps)
    have hids := (hparts.map (LabelId.escaped ∘ Definition.id)).symm
    rw [List.map_append, ← List.map_map, ← List.map_map, ← List.map_map,
      ← anchors_eq_defined hok] at hids
    exact hids
  refine ⟨hown, hperm, ?_⟩
  rw [hperm.nodup_iff, List.nodup_append', List.disjoint_right]
  exact and_iff_right hown

/-- What is known about the one binding that is documented here. -/
def sampleLookup : Lookup := fun name =>
  if name = "add" then some ⟨"Function", [.body (.document [.paragraph [.text "Adds."]]) none]⟩
  else none

/-- A heading in a syntax tree. -/
def sampleHeading (text : String) : Markdown.Element :=
  .mk .heading ⟨"h1", "", "", [], []⟩ [.mk .text ⟨"", text, "", [], []⟩ []]

/-- A fence in a syntax tree. -/
def sampleFence (info content : String) : Markdown.Element :=
  .mk .fence ⟨"", content, info, [], []⟩ []

/-- A page with two headings of one text and a table of contents, and a page with documentation. -/
def bareSample : List Page := [
  ⟨"guide.md", some (.document [.heading 1 [.text "Use"] (some "Use"),
    .heading 1 [.text "Use"] (some "Use-2"), .raw "@contents" ""]), "", 1⟩,
  ⟨"api.md", some (.document [.binding "add" "Function"
    [.body (.document [.paragraph [.text "Adds."]]) none] "api.md"]), "", 1⟩]

/-- The same pages with the table of contents filled in. -/
def listedSample : List Page := [
  ⟨"guide.md", some (.document [.heading 1 [.text "Use"] (some "Use"),
    .heading 1 [.text "Use"] (some "Use-2"),
    .contents [.contentsEntry "guide.md" "Use" 1 [.text "Use"],
      .contentsEntry "guide.md" "Use-2" 1 [.text "Use"]] 1]), "", 1⟩,
  ⟨"api.md", some (.document [.binding "add" "Function"
    [.body (.document [.paragraph [.text "Adds."]]) none] "api.md"]), "", 1⟩]

theorem labels_unique_iff_sample :
    (∀ p ∈ bareSample, p.IsConverted sampleLookup) ∧
      bareSample.mapM (Manuscript.listedPage bareSample) = .ok listedSample ∧
      ((listedSample.filter Page.isWritten).map fun p => Path.normal "" p.path).Nodup ∧
      ((ofPages (fun _ => none) "" true none listedSample).draft "" listedSample).fault = none ∧
      (((ofPages (fun _ => none) "" true none listedSample).draft "" listedSample).anchors.map
        LabelId.escaped).Nodup := by
  have hbare : ∀ p ∈ bareSample, p.IsConverted sampleLookup := by
    refine List.forall_mem_cons.mpr ⟨?_, List.forall_mem_singleton.mpr ?_⟩
    · rintro tree ⟨⟩
      exact ⟨[sampleHeading "Use", sampleHeading "Use", sampleFence "@contents" ""], _, rfl, rfl⟩
    · rintro tree ⟨⟩
      exact ⟨[sampleFence "@docs" "add\n"], _, rfl, rfl⟩
  have hlisted : bareSample.mapM (Manuscript.listedPage bareSample) = .ok listedSample := by rfl
  have hok : ((ofPages (fun _ => none) "" true none listedSample).draft ""
    listedSample).fault = none := by rfl
  have hpaths : ((listedSample.filter Page.isWritten).map
      fun p => Path.normal "" p.path).Nodup := by decide
  have hunique := (labels_unique_iff (fun _ => none) "" true none hbare hlisted hpaths hok).2.2
  exact ⟨hbare, hlisted, hpaths, hok, hunique.mpr (by decide)⟩

/-- A binding that is documented below a heading of its name gets the label of the heading. -/
theorem labels_not_unique_below_heading :
    ∃ nodes, Markdown.documentTree "api.md" [sampleHeading "add", sampleFence "@docs" "add\n"] =
        .ok nodes ∧
      let page : Page :=
        ⟨"api.md", some (.document (documentPage sampleLookup "api.md" nodes).nodes), "", 1⟩
      [page].mapM (Manuscript.listedPage [page]) = .ok [page] ∧
        ((ofPages (fun _ => none) "" true none [page]).draft "" [page]).fault = none ∧
        ((ofPages (fun _ => none) "" true none [page]).draft "" [page]).anchors.map
          LabelId.escaped =
          ["api.md#add", "api.md#add"] :=
  ⟨_, rfl, rfl, rfl, rfl⟩

end Unique

end Book

end Folio
