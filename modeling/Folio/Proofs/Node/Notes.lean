import Folio.Proofs.Node.Parts
import Folio.Proofs.Table

/-!
# The footnotes of a tree

A search for footnotes goes through documentation bodies but not through listings. As long as it is
not stopped, it finds exactly the footnotes that a walk with the documentation meets, in the order
of this walk.
-/

namespace Folio.Node

/-- The name and the text of a footnote. -/
def note? : Node → Option (String × List Node)
  | footnote id cs => some (id, cs)
  | _ => none

mutual

/-- A node and all nodes below it, in documentation bodies too, in order. -/
def deepWalk : Node → List Node
  | document cs => document cs :: deepWalkAll cs
  | heading level cs anchor => heading level cs anchor :: deepWalkAll cs
  | paragraph cs => paragraph cs :: deepWalkAll cs
  | list ordered items => list ordered items :: deepWalkAll items
  | listItem cs => listItem cs :: deepWalkAll cs
  | quote cs => quote cs :: deepWalkAll cs
  | admonition category title cs => admonition category title cs :: deepWalkAll cs
  | table columns rows => table columns rows :: deepWalkAll rows
  | tableRow cells => tableRow cells :: deepWalkAll cells
  | tableCell cs => tableCell cs :: deepWalkAll cs
  | footnote id cs => footnote id cs :: deepWalkAll cs
  | binding name category bodies page => binding name category bodies page :: deepWalkBodies bodies
  | contentsEntry page label level cs => contentsEntry page label level cs :: deepWalkAll cs
  | strong cs => strong cs :: deepWalkAll cs
  | emph cs => emph cs :: deepWalkAll cs
  | link destination cs => link destination cs :: deepWalkAll cs
  | pageLink page fragment cs => pageLink page fragment cs :: deepWalkAll cs
  | image destination cs isLocal => image destination cs isLocal :: deepWalkAll cs
  | node => [node]

/-- All nodes and everything below them, in documentation bodies too, in order. -/
def deepWalkAll : List Node → List Node
  | [] => []
  | node :: rest => node.deepWalk ++ deepWalkAll rest

/-- All nodes in documentation bodies, in order. -/
def deepWalkBodies : List Node → List Node
  | [] => []
  | body tree _ :: rest => tree.deepWalk ++ deepWalkBodies rest
  | _ :: rest => deepWalkBodies rest

end

mutual

/-- The walk with the documentation meets parts only. -/
theorem deepWalk_subset_parts : (n : Node) → n.deepWalk ⊆ n.parts
  | .document cs | .heading _ cs _ | .paragraph cs | .list _ cs | .listItem cs
  | .quote cs | .admonition _ _ cs | .table _ cs | .tableRow cs | .tableCell cs
  | .footnote _ cs | .contentsEntry _ _ _ cs | .strong cs | .emph cs | .link _ cs
  | .pageLink _ _ cs | .image _ cs _ => by
    rw [deepWalk, parts]
    exact List.cons_subset_cons _ (deepWalkAll_subset_partsAll cs)
  | .binding _ _ bodies _ => by
    rw [deepWalk, parts]
    exact List.cons_subset_cons _ (deepWalkBodies_subset_partsAll bodies)
  | .codeBlock .. | .displayMath _ | .rule | .raw .. | .body .. | .index _ | .indexEntry ..
  | .contents .. | .text _ | .code _ | .math _ | .lineBreak | .softBreak
  | .footnoteMark _ => fun m hm => by
    obtain rfl := List.mem_singleton.mp hm
    exact self_mem_parts _

/-- The walk deep into nodes meets parts of them only. -/
theorem deepWalkAll_subset_partsAll : (ns : List Node) → deepWalkAll ns ⊆ partsAll ns
  | [] => List.nil_subset _
  | n :: rest => by
    rw [deepWalkAll, partsAll]
    exact List.append_subset.mpr
      ⟨List.Subset.trans (deepWalk_subset_parts n) (List.subset_append_left ..),
        List.Subset.trans (deepWalkAll_subset_partsAll rest) (List.subset_append_right ..)⟩

/-- The walk deep into bodies meets parts of them only. -/
theorem deepWalkBodies_subset_partsAll : (ns : List Node) → deepWalkBodies ns ⊆ partsAll ns
  | [] => List.nil_subset _
  | n :: rest => by
    have hrest := List.Subset.trans (deepWalkBodies_subset_partsAll rest)
      (List.subset_append_right n.parts (partsAll rest))
    cases n with
    | body tree source =>
      refine List.append_subset.mpr ⟨?_, hrest⟩
      refine List.Subset.trans (deepWalk_subset_parts tree) ?_
      exact List.Subset.trans (List.subset_cons_self ..) (List.subset_append_left ..)
    | _ => exact hrest

end

/-! ### What the search finds -/

/-- Whether a search comes to its end with certain footnotes, if it comes to its end. -/
def Finds (s : FootnoteSearch) (notes : Footnotes) : Prop := s.complete = true → s.found = notes

/-- Searches in sequence find the footnotes of both. -/
theorem Finds.append {a b : FootnoteSearch} {notes others : Footnotes} (ha : Finds a notes)
    (hb : Finds b others) : Finds (a ++ b) (notes ++ others) := by
  intro h
  rw [FootnoteSearch.complete_append, Bool.and_eq_true] at h
  rw [FootnoteSearch.append_eq, if_pos h.1, ha h.1, hb h.2]

mutual

/-- A search that is not stopped finds the footnotes that the walk with the documentation meets. -/
theorem searchFootnotes_finds : (n : Node) → Finds n.searchFootnotes (n.deepWalk.filterMap note?)
  | .footnote id cs => by
    rw [searchFootnotes, deepWalk]
    exact .append (fun _ => rfl) (searchFootnotesAll_finds cs)
  | .binding _ _ bodies _ => by
    rw [searchFootnotes, deepWalk]
    split
    · exact searchBodies_finds bodies
    · exact fun h => nomatch h
  | .document cs | .heading _ cs _ | .paragraph cs | .list _ cs | .listItem cs
  | .quote cs | .admonition _ _ cs | .table _ cs | .tableRow cs | .tableCell cs
  | .contentsEntry _ _ _ cs | .strong cs | .emph cs | .link _ cs
  | .pageLink _ _ cs | .image _ cs _ => by
    rw [searchFootnotes, deepWalk]
    exact searchFootnotesAll_finds cs
  | .codeBlock .. | .displayMath _ | .rule | .raw .. | .body .. | .index _ | .indexEntry ..
  | .contents .. | .text _ | .code _ | .math _ | .lineBreak | .softBreak
  | .footnoteMark _ => fun _ => rfl

/-- The search finds the footnotes that the walk meets. -/
theorem searchFootnotesAll_finds :
    (ns : List Node) → Finds (searchFootnotesAll ns) ((deepWalkAll ns).filterMap note?)
  | [] => fun _ => rfl
  | n :: rest => by
    rw [searchFootnotesAll, deepWalkAll, List.filterMap_append]
    exact (searchFootnotes_finds n).append (searchFootnotesAll_finds rest)

/-- The search through bodies finds the footnotes that the walk meets. -/
theorem searchBodies_finds :
    (ns : List Node) → Finds (searchBodies ns) ((deepWalkBodies ns).filterMap note?)
  | [] => fun _ => rfl
  | n :: rest => by
    have hrest := searchBodies_finds rest
    cases n with
    | body tree source =>
      rw [searchBodies, deepWalkBodies, List.filterMap_append]
      exact (searchFootnotes_finds tree).append hrest
    | _ => exact hrest

end

/-- Whether a node comes from documentation or from a listing. -/
def isGenerated : Node → Bool
  | binding .. | body .. | index _ | indexEntry .. | contents .. | contentsEntry .. => true
  | _ => false

mutual

/-- In a tree without documentation and listings the search finds all footnotes. -/
theorem searchFootnotes_eq : (n : Node) → (∀ m ∈ n.parts, m.isGenerated = false) →
    n.searchFootnotes = ⟨n.parts.filterMap note?, true⟩
  | .footnote id cs, h => by
    rw [parts] at h ⊢
    rw [searchFootnotes, searchFootnotesAll_eq cs fun m hm => h m (List.mem_cons_of_mem _ hm)]
    rfl
  | .document cs, h | .heading _ cs _, h | .paragraph cs, h | .list _ cs, h | .listItem cs, h
  | .quote cs, h | .admonition _ _ cs, h | .table _ cs, h | .tableRow cs, h | .tableCell cs, h
  | .strong cs, h | .emph cs, h | .link _ cs, h | .pageLink _ _ cs, h | .image _ cs _, h => by
    rw [parts] at h ⊢
    rw [searchFootnotes, searchFootnotesAll_eq cs fun m hm => h m (List.mem_cons_of_mem _ hm)]
    rfl
  | .binding .., h | .body .., h | .index _, h | .indexEntry .., h | .contents .., h
  | .contentsEntry .., h => nomatch h _ (self_mem_parts _)
  | .codeBlock .., _ | .displayMath _, _ | .rule, _ | .raw .., _ | .text _, _ | .code _, _
  | .math _, _ | .lineBreak, _ | .softBreak, _ | .footnoteMark _, _ => rfl

/-- Where nothing is generated the search finds every footnote. -/
theorem searchFootnotesAll_eq : (ns : List Node) → (∀ m ∈ partsAll ns, m.isGenerated = false) →
    searchFootnotesAll ns = ⟨(partsAll ns).filterMap note?, true⟩
  | [], _ => rfl
  | n :: rest, h => by
    rw [partsAll] at h ⊢
    rw [searchFootnotesAll, searchFootnotes_eq n fun m hm => h m (List.mem_append_left _ hm),
      searchFootnotesAll_eq rest fun m hm => h m (List.mem_append_right _ hm),
      List.filterMap_append]
    rfl

end

theorem note?_eq_some {n : Node} {note : String × List Node} :
    n.note? = some note ↔ n = footnote note.1 note.2 := by
  cases n with
  | footnote id cs => simp [note?, Prod.ext_iff]
  | _ => exact ⟨nofun, nofun⟩

/-- A search that is not stopped finds a footnote if the walk with the documentation meets it. -/
theorem mem_footnotes_iff {n : Node} (h : n.isSearchable = true) {note : String × List Node} :
    note ∈ n.footnotes ↔ footnote note.1 note.2 ∈ n.deepWalk := by
  rw [footnotes, searchFootnotes_finds n h, List.mem_filterMap]
  simp only [note?_eq_some, exists_eq_right]

/-- The last footnote of a name is collected. -/
theorem get?_collectFootnotes (n : Node) (id : String) :
    (n.collectFootnotes []).get? id =
      (n.footnotes.filter fun note => note.1 = id).getLast?.map Prod.snd := by
  rw [collectFootnotes, Table.putAll, Table.get?_foldl_put Prod.fst Prod.snd, Table.get?,
    Option.or_none]

/-- A footnote that is collected is one of those that are found. -/
theorem mem_footnotes_of_collectFootnotes {n : Node} {id : String} {cs : List Node}
    (h : (n.collectFootnotes []).get? id = some cs) : (id, cs) ∈ n.footnotes := by
  rw [get?_collectFootnotes] at h
  obtain ⟨note, hnote, rfl⟩ := Option.map_eq_some_iff.mp h
  obtain ⟨hmem, hname⟩ := List.mem_filter.mp (List.mem_of_getLast? hnote)
  obtain rfl := of_decide_eq_true hname
  exact hmem

/-- What stands in a footnote that is found in a node stands in the node. -/
theorem partsAll_subset_of_collectFootnotes {n : Node} (h : n.isSearchable = true) {id : String}
    {cs : List Node} (hcs : (n.collectFootnotes []).get? id = some cs) : partsAll cs ⊆ n.parts := by
  have hnote : footnote id cs ∈ n.parts :=
    deepWalk_subset_parts n ((mem_footnotes_iff h).mp (mem_footnotes_of_collectFootnotes hcs))
  have hparts := parts_subset_of_mem n hnote
  rw [parts] at hparts
  exact (List.cons_subset.mp hparts).2

/-- Every name of a footnote that is found has a footnote when all are collected. -/
theorem collectFootnotes_eq_none_iff {n : Node} {id : String} :
    (n.collectFootnotes []).get? id = none ↔ ∀ cs, (id, cs) ∉ n.footnotes := by
  rw [get?_collectFootnotes, Option.map_eq_none_iff, List.getLast?_eq_none_iff,
    List.filter_eq_nil_iff]
  constructor
  · exact fun h cs hmem => h _ hmem (decide_eq_true rfl)
  · exact fun h note hmem hname => h note.2 (of_decide_eq_true hname ▸ hmem)

end Folio.Node
