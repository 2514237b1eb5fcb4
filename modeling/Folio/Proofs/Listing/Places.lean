import Folio.Proofs.Listing.Outline
import Folio.Proofs.Markdown.Traces
import Folio.Render

/-!
# Places that are left on a page

The conversion of a page keeps the places of documentation and listings in whatever block they
stand. Only those on page level are filled in, though. A place inside another block is left, and so
are places in documentation and in listed headings; nothing is written for them, and no notice says
so.
-/

namespace Folio

/-- The target and the text of a trace that is a place. -/
def Trace.place? : Trace → Option (String × String)
  | place target text => some (target, text)
  | _ => none

namespace Node

/-- The target and the text of a place. -/
def place? : Node → Option (String × String)
  | raw target content => if isPlaceTarget target then some (target, content) else none
  | _ => none

/-- Raw markup for another target is no place. -/
theorem place?_raw {target : String} (content : String) (hdocs : target ≠ docsFence)
    (hcontents : target ≠ contentsFence) (hindex : target ≠ indexFence) :
    (raw target content).place? = none := by
  simp [place?, isPlaceTarget, hdocs, hcontents, hindex]

/-- The places in nodes, in order. -/
def places (ns : List Node) : List (String × String) := (partsAll ns).filterMap place?

/-- A node is a place if its trace is one. -/
theorem trace?_bind_place? (n : Node) : n.trace?.bind Trace.place? = n.place? := by
  cases n with
  | raw target content =>
    rw [trace?, place?]
    split <;> rfl
  | _ => rfl

/-- The places in nodes are those of their traces. -/
theorem places_eq_traces (ns : List Node) : places ns = (traces ns).filterMap Trace.place? := by
  simp only [places, traces, List.filterMap_filterMap, trace?_bind_place?]

/-- The places in nodes are those in either part. -/
theorem places_append (ns ms : List Node) : places (ns ++ ms) = places ns ++ places ms := by
  rw [places, partsAll_append, List.filterMap_append]
  rfl

/-- The places in a node are the node, if it is one, and those of what stands in it. -/
theorem places_singleton (n : Node) : places [n] = n.place?.toList ++ places n.inside :=
  filterMap_partsAll_singleton place? n

/-- The places in groups of nodes are those in each group. -/
theorem places_flatMap {α : Type} (f : α → List Node) (l : List α) :
    places (l.flatMap f) = l.flatMap fun a => places (f a) := by
  induction l with
  | nil => rfl
  | cons a rest ih => rw [List.flatMap_cons, places_append, ih, List.flatMap_cons]

/-- The places in nodes are those in each of them. -/
theorem places_map {α : Type} (f : α → Node) (l : List α) :
    places (l.map f) = l.flatMap fun a => places [f a] := by
  rw [← places_flatMap, List.map_eq_flatMap]

/-- Nothing is written for a place. -/
theorem draftNode_place (r : Renderer) (expand : Context → List Node → Draft) (c : Context)
    {n : Node} (h : n.place? ≠ none) : draftNode r expand c n = .empty := by
  cases n with
  | raw target content =>
    have htargets : ∀ t ∈ rawTargets, isPlaceTarget t = false := by decide
    have htarget : rawTargets.contains target = false := by
      rw [List.contains_eq_mem, decide_eq_false_iff_not]
      intro hmem
      rw [place?, htargets target hmem] at h
      exact h rfl
    rw [draftNode, htarget]
    rfl
  | _ => exact absurd rfl h

end Node

open Node

/-! ### Filling in -/

/-- What stands for a node of a page when documentation and listings are filled in. -/
def filledNode (lookup : Lookup) (page : String) (pages : List Page) : Node → List Node
  | raw target content =>
    if target = docsFence then
      (listedNames content).flatMap fun name => (documentBinding lookup page name).nodes
    else if target = contentsFence then
      (ListingOptions.ofText? content).toList.map fun o => contentsBlock o pages
    else if target = indexFence then
      (ListingOptions.ofText? content).toList.map fun o => indexBlock o pages
    else [raw target content]
  | node => [node]

/-- One after the other, documented parts have their nodes one after the other. -/
theorem nodes_foldr {α : Type} (f : α → Documented) (l : List α) :
    ((l.map f).foldr (· ++ ·) (⟨[], [], []⟩ : Documented)).nodes =
      l.flatMap fun a => (f a).nodes := by
  induction l with
  | nil => rfl
  | cons a rest ih =>
    rw [List.flatMap_cons, ← ih]
    rfl

/-- Documentation is no place, whether it is found or missing. -/
theorem place?_of_mem_documentBinding {lookup : Lookup} {page name : String} {n : Node}
    (h : n ∈ (documentBinding lookup page name).nodes) : n.place? = none := by
  rw [documentBinding] at h
  split at h <;>
  · obtain rfl := List.mem_singleton.mp h
    rfl

variable {lookup : Lookup} {page : String} {pages : List Page}

/-- A node that is no place stays as it is. -/
theorem listNode_of_place?_eq_none {n : Node} (h : n.place? = none) : listNode pages n = .ok n := by
  cases n with
  | raw target text =>
    simp only [place?, isPlaceTarget, Bool.or_eq_true, decide_eq_true_eq, ite_eq_right_iff,
      reduceCtorEq, imp_false, not_or] at h
    rw [listNode, if_neg h.1.2, if_neg h.2]
  | _ => rfl

/-- Listing changes nothing where there is no place for a listing. -/
theorem listPage_of_place?_eq_none {ns : List Node} (h : ∀ n ∈ ns, n.place? = none) :
    listPage pages ns = .ok ns := by
  induction ns with
  | nil => rfl
  | cons n rest ih =>
    obtain ⟨hn, hrest⟩ := List.forall_mem_cons.mp h
    have hrest := ih hrest
    rw [listPage] at hrest ⊢
    rw [List.mapM_cons, listNode_of_place?_eq_none hn, hrest]
    rfl

/-- What is made of a node by filling in documentation and then listings. -/
theorem listPage_documentNode {n : Node} {listed : List Node}
    (h : listPage pages (documentNode lookup page n).nodes = .ok listed) :
    listed = filledNode lookup page pages n := by
  have hsingle (h : listPage pages [n] = .ok listed) :
    ∃ m, listNode pages n = .ok m ∧ listed = [m] := by
    obtain ⟨m, rest, hm, hrest, rfl⟩ := List.forall₂_cons_left_iff.mp (forall₂_of_mapM_eq_ok h)
    exact ⟨m, hm, by rw [List.forall₂_nil_left_iff.mp hrest]⟩
  cases n with
  | raw target content =>
    rw [documentNode] at h
    rw [filledNode]
    split
    · next hdocs =>
      rw [if_pos hdocs, nodes_foldr, listPage_of_place?_eq_none] at h
      · exact (Except.ok.inj h).symm
      · intro n hn
        obtain ⟨name, -, hn⟩ := List.mem_flatMap.mp hn
        exact place?_of_mem_documentBinding hn
    · next hdocs =>
      rw [if_neg hdocs] at h
      obtain ⟨m, hm, rfl⟩ := hsingle h
      rcases listNode_cases hm with ⟨rfl, hnone⟩ | ⟨_, o, ho, ⟨heq, rfl⟩ | ⟨heq, rfl⟩⟩
      · have hcontents : target ≠ contentsFence := by
          rintro rfl
          exact (hnone content).1 rfl
        have hindex : target ≠ indexFence := by
          rintro rfl
          exact (hnone content).2 rfl
        rw [if_neg hcontents, if_neg hindex]
      · obtain ⟨rfl, rfl⟩ := raw.inj heq
        rw [if_pos rfl, ho]
        rfl
      · obtain ⟨rfl, rfl⟩ := raw.inj heq
        rw [if_neg (by decide), if_pos rfl, ho]
        rfl
  | _ =>
    obtain ⟨m, hm, rfl⟩ := hsingle h
    cases hm
    rfl

/-- Filling in goes through the nodes of a page one after the other. -/
theorem listPage_documentPage {nodes listed : List Node}
    (h : listPage pages (documentPage lookup page nodes).nodes = .ok listed) :
    listed = nodes.flatMap (filledNode lookup page pages) := by
  rw [documentPage, nodes_foldr] at h
  induction nodes generalizing listed with
  | nil =>
    cases h
    rfl
  | cons n rest ih =>
    rw [List.flatMap_cons, listPage, List.mapM_append] at h
    cases hn : listPage pages (documentNode lookup page n).nodes with
    | error f =>
      rw [listPage] at hn
      rw [hn] at h
      cases h
    | ok first =>
      cases hrest : listPage pages (rest.flatMap fun n => (documentNode lookup page n).nodes) with
      | error f =>
        rw [listPage] at hn hrest
        rw [hn, hrest] at h
        cases h
      | ok others =>
        rw [List.flatMap_cons, ← listPage_documentNode hn, ← ih hrest]
        rw [listPage] at hn hrest
        rw [hn, hrest] at h
        exact (Except.ok.inj h).symm

/-- No place is left on page level. -/
theorem place?_of_mem_filledNode {n m : Node} (h : m ∈ filledNode lookup page pages n) :
    m.place? = none := by
  cases n with
  | raw target content =>
    rw [filledNode] at h
    split at h
    · obtain ⟨name, -, h⟩ := List.mem_flatMap.mp h
      exact place?_of_mem_documentBinding h
    · next hdocs =>
      split at h
      · obtain ⟨o, -, rfl⟩ := List.mem_map.mp h
        rfl
      · next hcontents =>
        split at h
        · obtain ⟨o, -, rfl⟩ := List.mem_map.mp h
          rfl
        · next hindex =>
          obtain rfl := List.mem_singleton.mp h
          exact place?_raw content hdocs hcontents hindex
  | _ =>
    obtain rfl := List.mem_singleton.mp h
    rfl

/-! ### What is left -/

/-- The places in the documentation of a binding. -/
def placesInDocs (lookup : Lookup) (name : String) : List (String × String) :=
  places (((lookup.find? name).map Documentation.bodies).getD [])

/-- The places in the headings that a table of contents lists. -/
def placesInContents (o : ListingOptions) (pages : List Page) : List (String × String) :=
  (contentsLines o pages).flatMap fun l => places l.heading.children

/-- The places that a node of a page leaves: those in what is filled in, if it is a place, and all
places in it otherwise. -/
def placesLeft (lookup : Lookup) (pages : List Page) : Node → List (String × String)
  | raw target content =>
    if target = docsFence then (listedNames content).flatMap (placesInDocs lookup)
    else if target = contentsFence then
      (ListingOptions.ofText? content).toList.flatMap fun o => placesInContents o pages
    else []
  | n => places [n]

/-- The places in documentation come from the text that documents. -/
theorem places_documentBinding (name : String) :
    places (documentBinding lookup page name).nodes = placesInDocs lookup name := by
  rw [documentBinding, placesInDocs]
  cases lookup.find? name with
  | none => rfl
  | some d => exact places_singleton _

/-- The places in a table of contents come from the headings that it lists. -/
theorem places_contentsBlock (o : ListingOptions) :
    places [contentsBlock o pages] = placesInContents o pages := by
  have hentry (l : ContentsLine) : places
      [.contentsEntry l.page l.heading.label l.heading.level l.heading.children] =
        places l.heading.children := places_singleton _
  rw [places_singleton, contentsBlock, inside, places_map, placesInContents]
  simp only [hentry]
  rfl

/-- An index has no place for a listing. -/
theorem places_indexBlock (o : ListingOptions) : places [indexBlock o pages] = [] := by
  rw [places_singleton, indexBlock, inside, places_map]
  exact List.flatMap_eq_nil_iff.mpr fun _ _ => rfl

/-- What stands for a node has the places that the node leaves. -/
theorem places_filledNode (n : Node) :
    places (filledNode lookup page pages n) = placesLeft lookup pages n := by
  cases n with
  | raw target content =>
    rw [filledNode, placesLeft]
    split
    · rw [places_flatMap]
      simp only [places_documentBinding]
    · next hdocs =>
      split
      · rw [places_map]
        simp only [places_contentsBlock]
      · next hcontents =>
        split
        · rw [places_map]
          simp only [places_indexBlock]
          exact List.flatMap_eq_nil_iff.mpr fun _ _ => rfl
        · next hindex =>
          rw [places_singleton, place?_raw content hdocs hcontents hindex]
          rfl
  | _ => rfl

/-- A node that is no place leaves all places in it. -/
theorem placesLeft_of_place?_eq_none {n : Node} (h : n.place? = none) :
    placesLeft lookup pages n = places [n] := by
  cases n with
  | raw target content =>
    have hnone : places [raw target content] = [] := by
      rw [places_singleton, h]
      rfl
    simp only [place?, isPlaceTarget, Bool.or_eq_true, decide_eq_true_eq, ite_eq_right_iff,
      reduceCtorEq, imp_false, not_or] at h
    rw [placesLeft, if_neg h.1.1, if_neg h.1.2, hnone]
  | _ => rfl

namespace Markdown

/-- The target and the text of a place that is said. -/
def Mention.place? : Mention → Option (String × String)
  | fence a => (fenceNode a).place?
  | _ => none

/-- A mention leaves a place if its trace is one. -/
theorem Mention.trace?_bind_place? (m : Mention) : m.trace?.bind Trace.place? = m.place? := by
  cases m with
  | fence a => exact Node.trace?_bind_place? (fenceNode a)
  | _ => rfl

/-- The places that an element of a page leaves: those in what is filled in, if it is a fence, and
all places said in it otherwise. -/
def elementPlacesLeft (lookup : Lookup) (pages : List Page) (e : Element) :
    List (String × String) :=
  if e.kind = .fence then placesLeft lookup pages (fenceNode e.attributes)
  else (mentions e).filterMap Mention.place?

/-- No footnote is a place at page level. -/
theorem footnoteNodes_place? {page : String} {es : List Element} {used used' : List String}
    {nodes : List Node} (h : footnoteNodes page es used = .ok (nodes, used')) :
    ∀ n ∈ nodes, n.place? = none := by
  induction es generalizing used nodes with
  | nil =>
    cases h
    nofun
  | cons e rest ih =>
    obtain ⟨kind, a, cs⟩ := e
    obtain ⟨children, mid, -, h⟩ := Conversion.andThen_eq_ok.mp h
    obtain ⟨others, hothers, rfl⟩ := Conversion.map_eq_ok.mp h
    exact List.forall_mem_cons.mpr ⟨rfl, ih hothers⟩

/-- The nodes of a block that is no fence are no places. -/
theorem blockNodes_place? {page : String} {e : Element} {used used' : List String}
    {nodes : List Node} (h : blockNodes page e used = .ok (nodes, used')) (he : e.kind ≠ .fence) :
    ∀ n ∈ nodes, n.place? = none := by
  obtain ⟨kind, a, cs⟩ := e
  have hmap {c : Conversion (List Node)} {f : List Node → Node} (hf : ∀ ns, (f ns).place? = none)
      (h : (c.map fun ns => [f ns]) used = .ok (nodes, used')) : ∀ n ∈ nodes, n.place? = none := by
    obtain ⟨children, -, rfl⟩ := Conversion.map_eq_ok.mp h
    exact List.forall_mem_singleton.mpr (hf children)
  have hdone {n : Node} (hn : n.place? = none) (h : done [n] used = .ok (nodes, used')) :
      ∀ n ∈ nodes, n.place? = none := by
    cases h
    exact List.forall_mem_singleton.mpr hn
  rw [blockNodes.eq_def] at h
  cases kind with
  | fence => exact absurd rfl he
  | heading =>
    simp only [headingNode] at h
    split at h
    · cases h
      exact List.forall_mem_singleton.mpr rfl
    · cases h
  | paragraph | codeBlock | mathBlock | table | rule | htmlBlock => exact hdone rfl h
  | bulletList | orderedList | quote | admonition => exact hmap (fun _ => rfl) h
  | footnoteBlock => exact footnoteNodes_place? h
  | _ =>
    cases h
    exact List.forall_mem_nil _

/-- The nodes of a block leave the places that the block does. -/
theorem placesLeft_blockNodes {page : String} {e : Element} {used used' : List String}
    {nodes : List Node} (h : blockNodes page e used = .ok (nodes, used')) :
    nodes.flatMap (placesLeft lookup pages) = elementPlacesLeft lookup pages e := by
  rw [elementPlacesLeft]
  split
  · next hfence =>
    obtain ⟨kind, a, cs⟩ := e
    obtain rfl := hfence
    rw [blockNodes] at h
    cases h
    exact List.flatMap_singleton ..
  · next hfence =>
    calc nodes.flatMap (placesLeft lookup pages)
        = nodes.flatMap fun n => places [n] := by
          refine List.flatMap_congr fun n hn => ?_
          exact placesLeft_of_place?_eq_none (blockNodes_place? h hfence n hn)
      _ = places nodes := by rw [← places_flatMap, List.flatMap_singleton']
      _ = (traces nodes).filterMap Trace.place? := places_eq_traces nodes
      _ = (mentions e).filterMap Mention.place? := by
          rw [leaves_blockNodes page e used nodes used' h]
          simp only [List.filterMap_filterMap, Mention.trace?_bind_place?]

/-- The places that blocks leave are those of their elements. -/
theorem placesLeft_blockAll {page : String} {es : List Element} {used used' : List String}
    {nodes : List Node} (h : blockAll page es used = .ok (nodes, used')) :
    nodes.flatMap (placesLeft lookup pages) = es.flatMap (elementPlacesLeft lookup pages) := by
  induction es generalizing used nodes with
  | nil =>
    cases h
    rfl
  | cons e rest ih =>
    obtain ⟨first, mid, hfirst, h⟩ := Conversion.andThen_eq_ok.mp h
    obtain ⟨others, hothers, rfl⟩ := Conversion.map_eq_ok.mp h
    rw [List.flatMap_append, List.flatMap_cons, placesLeft_blockNodes hfirst, ih hothers]

end Markdown

open Markdown

/-- Filling in replaces all nodes on page level that are places, and nothing else. The places that
are left are those in the documentation and the headings that are filled in, and those of the fences
in other blocks; nothing is written for any of them. -/
theorem places_left_on_page {elements : List Element} {bare listed : List Node}
    (hbare : documentTree page elements = .ok bare)
    (hlisted : listPage pages (documentPage lookup page bare).nodes = .ok listed) :
    listed = bare.flatMap (filledNode lookup page pages) ∧ (∀ n ∈ listed, n.place? = none) ∧
      places listed = elements.flatMap (elementPlacesLeft lookup pages) ∧
      ∀ n ∈ partsAll listed, n.place? ≠ none →
        ∀ r expand c, draftNode r expand c n = Draft.empty := by
  have hfilled := listPage_documentPage hlisted
  refine ⟨hfilled, ?_, ?_, fun n _ hn r expand c => draftNode_place r expand c hn⟩
  · intro m hm
    rw [hfilled] at hm
    obtain ⟨n, -, hm⟩ := List.mem_flatMap.mp hm
    exact place?_of_mem_filledNode hm
  · obtain ⟨used, hblocks⟩ := blockAll_of_documentTree hbare
    rw [hfilled, places_flatMap, ← placesLeft_blockAll hblocks]
    simp only [places_filledNode]

/-- The syntax tree of a page with two places for documentation, one of them in a quote. -/
def quotedSample : List Element :=
  let fence := Element.mk .fence ⟨"", "add\n", "@docs", [], []⟩ []
  [fence, .mk .quote ⟨"", "", "", [], []⟩ [fence]]

/-- Knows the documentation of one binding. -/
def quotedLookup : Lookup := fun name =>
  if name = "add" then some ⟨"Function", [.body (.document [.paragraph [.text "Adds."]]) none]⟩
  else none

/-- The nodes of the page before anything is filled in. -/
def quotedBare : List Node := [.raw "@docs" "add", .quote [.raw "@docs" "add"]]

/-- The nodes of the page after filling in. -/
def quotedListed : List Node := [
  .binding "add" "Function" [.body (.document [.paragraph [.text "Adds."]]) none] "api.md",
  .quote [.raw "@docs" "add"]]

/-- The page with the place in a quote is listed without a fault. -/
theorem listPage_quotedBare :
    listPage [] (documentPage quotedLookup "api.md" quotedBare).nodes = .ok quotedListed := rfl

/-- A place in a quote is left where it is. -/
theorem places_left_on_page_quotedSample :
    documentTree "api.md" quotedSample = .ok quotedBare ∧
      listPage [] (documentPage quotedLookup "api.md" quotedBare).nodes = .ok quotedListed ∧
      places quotedListed = [("@docs", "add")] := by
  have hbare : documentTree "api.md" quotedSample = .ok quotedBare := rfl
  have hleft := (places_left_on_page hbare listPage_quotedBare).2.2.1
  exact ⟨hbare, listPage_quotedBare, hleft.trans rfl⟩

/-- A place in a quote is not filled in, and nothing is written for it. -/
theorem place_left_in_quote :
    documentTree "api.md" quotedSample = .ok quotedBare ∧
      listPage [] (documentPage quotedLookup "api.md" quotedBare).nodes = .ok quotedListed ∧
      .raw docsFence "add" ∈ partsAll quotedListed ∧
      ∀ r expand c, draftAll r expand c [.raw docsFence "add"] = Draft.empty := by
  refine ⟨rfl, listPage_quotedBare, ?_, fun r expand c => ?_⟩
  · exact mem_partsAll.mpr ⟨_, List.mem_cons_of_mem _ List.mem_cons_self,
      List.mem_cons_of_mem _ List.mem_cons_self⟩
  · rfl

end Folio
