import Folio.Proofs.Node.Notes

/-!
# Trees that hold what they are written with

A list is written with items that hold a text of their own, documentation with bodies whose trees
do, and a listing with its entries. In a tree where each node holds only what it is written with,
the search for footnotes comes to its end, and the text of each footnote is of the same form.
-/

namespace Folio.Node

/-- Whether a node is a documentation body with a text of its own. -/
def isReadableBody : Node → Bool
  | body tree _ => tree.contents?.isSome
  | _ => false

/-- Whether a node is an entry of an index. -/
def isIndexEntry : Node → Bool
  | indexEntry .. => true
  | _ => false

/-- Whether a node is an entry of a table of contents. -/
def isContentsEntry : Node → Bool
  | contentsEntry .. => true
  | _ => false

/-- Whether a node holds only what it is written with. -/
def fits : Node → Bool
  | list _ items => items.all fun item => item.contents?.isSome
  | binding _ _ bodies _ => bodies.all isReadableBody
  | index entries => entries.all isIndexEntry
  | contents entries _ => entries.all isContentsEntry
  | _ => true

/-- Whether all parts of nodes hold only what they are written with. -/
def Fitting (ns : List Node) : Prop := ∀ m ∈ partsAll ns, m.fits = true

variable {n : Node} {ns ms : List Node}

theorem fitting_nil : Fitting [] := fun _ hm => absurd hm List.not_mem_nil

/-- Nodes in two parts fit if either part does. -/
theorem fitting_append : Fitting (ns ++ ms) ↔ Fitting ns ∧ Fitting ms := by
  rw [Fitting, partsAll_append, List.forall_mem_append]
  rfl

/-- A node fits with all that stands in it. -/
theorem fitting_singleton : Fitting [n] ↔ n.fits = true ∧ Fitting n.inside := by
  rw [Fitting, partsAll, partsAll, List.append_nil, parts_eq, List.forall_mem_cons]
  rfl

/-- Nodes fit if the first one and the rest do. -/
theorem fitting_cons : Fitting (n :: ns) ↔ Fitting [n] ∧ Fitting ns := by
  rw [← List.singleton_append, fitting_append]

/-- Nodes fit if each of them does by itself. -/
theorem fitting_iff : Fitting ns ↔ ∀ n ∈ ns, Fitting [n] := by
  induction ns with
  | nil => exact iff_of_true fitting_nil fun _ hn => absurd hn List.not_mem_nil
  | cons n rest ih => rw [fitting_cons, ih, List.forall_mem_cons]

/-- What stands directly in a node of a text is inside it. -/
theorem inside_of_contents? {cs : List Node} (h : n.contents? = some cs) : n.inside = cs := by
  cases n <;> first | exact Option.some.inj h | cases h

/-- What stands directly in a node stands in it. -/
theorem partsAll_subset_of_contents? {cs : List Node} (h : n.contents? = some cs) :
    partsAll cs ⊆ n.parts := by
  rw [parts_eq, inside_of_contents? h]
  exact List.subset_cons_self ..

/-- The contents of a fitting node fit. -/
theorem Fitting.contents {cs : List Node} (h : Fitting [n]) (hcs : n.contents? = some cs) :
    Fitting cs := by
  rw [← inside_of_contents? hcs]
  exact (fitting_singleton.mp h).2

/-- A body that can be read is a body. -/
theorem isBody_of_isReadableBody (h : n.isReadableBody = true) : n.isBody = true := by
  cases n with
  | body => rfl
  | _ => cases h

/-! ### Footnotes -/

mutual

/-- In a fitting tree the search for footnotes comes to its end. -/
theorem complete_searchFootnotes :
    (n : Node) → Fitting [n] → n.searchFootnotes.complete = true
  | .footnote id cs, h => by
    rw [searchFootnotes, FootnoteSearch.complete_append,
      complete_searchFootnotesAll cs (fitting_singleton.mp h).2]
    rfl
  | .binding _ _ bodies _, h => by
    obtain ⟨hbodies, hinside⟩ := fitting_singleton.mp h
    have hall : bodies.all isBody = true :=
      List.all_eq_true.mpr fun m hm => isBody_of_isReadableBody (List.all_eq_true.mp hbodies m hm)
    rw [searchFootnotes, if_pos hall]
    exact complete_searchBodies bodies hinside
  | .document cs, h | .heading _ cs _, h | .paragraph cs, h | .list _ cs, h | .listItem cs, h
  | .quote cs, h | .admonition _ _ cs, h | .table _ cs, h | .tableRow cs, h | .tableCell cs, h
  | .contentsEntry _ _ _ cs, h | .strong cs, h | .emph cs, h | .link _ cs, h
  | .pageLink _ _ cs, h | .image _ cs _, h => by
    rw [searchFootnotes]
    exact complete_searchFootnotesAll cs (fitting_singleton.mp h).2
  | .codeBlock .., _ | .displayMath _, _ | .rule, _ | .raw .., _ | .body .., _ | .index _, _
  | .indexEntry .., _ | .contents .., _ | .text _, _ | .code _, _ | .math _, _ | .lineBreak, _
  | .softBreak, _ | .footnoteMark _, _ => rfl

/-- A search through fitting nodes is complete. -/
theorem complete_searchFootnotesAll :
    (ns : List Node) → Fitting ns → (searchFootnotesAll ns).complete = true
  | [], _ => rfl
  | n :: rest, h => by
    obtain ⟨hn, hrest⟩ := fitting_cons.mp h
    rw [searchFootnotesAll, FootnoteSearch.complete_append, Bool.and_eq_true]
    exact ⟨complete_searchFootnotes n hn, complete_searchFootnotesAll rest hrest⟩

/-- A search through fitting bodies is complete. -/
theorem complete_searchBodies :
    (ns : List Node) → Fitting ns → (searchBodies ns).complete = true
  | [], _ => rfl
  | n :: rest, h => by
    obtain ⟨hn, hrest⟩ := fitting_cons.mp h
    have hlater := complete_searchBodies rest hrest
    cases n with
    | body tree source =>
      rw [searchBodies, FootnoteSearch.complete_append, Bool.and_eq_true]
      exact ⟨complete_searchFootnotes tree (fitting_singleton.mp hn).2, hlater⟩
    | _ => exact hlater

end

/-- A fitting node can be searched. -/
theorem Fitting.isSearchable (h : Fitting [n]) : n.isSearchable = true :=
  complete_searchFootnotes n h

/-- Whether the texts of all footnotes in a table are fitting. -/
def FittingNotes (notes : Footnotes) : Prop := ∀ id cs, notes.get? id = some cs → Fitting cs

/-- The footnotes of a fitting tree are fitting. -/
theorem Fitting.notes (h : Fitting [n]) : FittingNotes (n.collectFootnotes []) := by
  intro id cs hnote m hm
  refine h m ?_
  rw [partsAll, partsAll, List.append_nil]
  exact partsAll_subset_of_collectFootnotes h.isSearchable hnote hm

end Folio.Node
