import Folio.Proofs.Markdown.Traces
import Folio.Proofs.Node.Fitting

/-!
# The trees that pages are converted to are fitting

Among the nodes that hold only certain others, the conversion gives lists alone, and it gives each
of them its items.
-/

namespace Folio

open Node

/-- Every inline node fits. -/
theorem Node.fits_of_isInline {n : Node} (h : n.isInline = true) : n.fits = true := by
  cases n with
  | list | binding | index | contents => cases h
  | _ => rfl

/-- A phrase is fitting. -/
theorem Node.IsPhrase.fitting {ns : List Node} (h : IsPhrase ns) : Fitting ns := by
  intro m hm
  rw [partsAll_eq_walkAll ns h] at hm
  exact fits_of_isInline (h m hm)

namespace Markdown

/-- Whenever the conversion succeeds, its nodes are fitting. -/
def Conversion.Fits (c : Conversion (List Node)) : Prop :=
  ∀ used nodes used', c used = .ok (nodes, used') → Fitting nodes

/-- Whenever the conversion succeeds, its nodes are fitting and each holds a text of its own. -/
def Conversion.FitsItems (c : Conversion (List Node)) : Prop :=
  ∀ used nodes used', c used = .ok (nodes, used') →
    Fitting nodes ∧ nodes.all (fun item => item.contents?.isSome) = true

namespace Conversion

variable {c d : Conversion (List Node)}

theorem fits_done {nodes : List Node} (h : Fitting nodes) : Fits (done nodes) := by
  rintro used _ _ ⟨⟩
  exact h

/-- Conversions in sequence make fitting nodes if both do. -/
theorem Fits.append (hc : c.Fits) (hd : d.Fits) :
    Fits (c.andThen fun nodes => d.map (nodes ++ ·)) := by
  intro used _ used' h
  obtain ⟨nodes, mid, hnodes, h⟩ := andThen_eq_ok.mp h
  obtain ⟨others, hothers, rfl⟩ := map_eq_ok.mp h
  exact fitting_append.mpr ⟨hc used nodes mid hnodes, hd mid others used' hothers⟩

/-- A node around others that may hold any. -/
theorem Fits.around {f : List Node → Node} (hc : c.Fits) (hf : ∀ ns, (f ns).fits = true)
    (hinside : ∀ ns, (f ns).inside = ns) : Fits (c.map fun nodes => [f nodes]) := by
  intro used _ used' h
  obtain ⟨nodes, hnodes, rfl⟩ := map_eq_ok.mp h
  rw [fitting_singleton, hinside]
  exact ⟨hf nodes, hc used nodes used' hnodes⟩

/-- A node around some nodes in front of others. -/
theorem Fits.cons {f : List Node → Node} (hc : c.Fits) (hd : d.FitsItems)
    (hf : ∀ ns, (f ns).fits = true) (hcontents : ∀ ns, (f ns).contents? = some ns) :
    FitsItems (c.andThen fun nodes => d.map (f nodes :: ·)) := by
  intro used _ used' h
  obtain ⟨nodes, mid, hnodes, h⟩ := andThen_eq_ok.mp h
  obtain ⟨others, hothers, rfl⟩ := map_eq_ok.mp h
  obtain ⟨hfitting, hall⟩ := hd mid others used' hothers
  rw [fitting_cons, fitting_singleton, inside_of_contents? (hcontents nodes), List.all_cons,
    hcontents nodes]
  exact ⟨⟨⟨hf nodes, hc used nodes mid hnodes⟩, hfitting⟩, hall⟩

/-- A list around its items. -/
theorem FitsItems.list (hc : c.FitsItems) (ordered : Bool) :
    Fits (c.map fun items => [.list ordered items]) := by
  intro used _ used' h
  obtain ⟨items, hitems, rfl⟩ := map_eq_ok.mp h
  obtain ⟨hfitting, hall⟩ := hc used items used' hitems
  exact fitting_singleton.mpr ⟨hall, hfitting⟩

/-- Fitting items are fitting nodes. -/
theorem FitsItems.fits (hc : c.FitsItems) : c.Fits :=
  fun used nodes used' h => (hc used nodes used' h).1

end Conversion

open Conversion

/-- A heading fits with its text. -/
theorem fits_headingNode (page tag : String) (cs : List Element) :
    Fits (headingNode page tag cs) := by
  intro used nodes used' h
  rw [headingNode] at h
  split at h
  · cases h
    exact fitting_singleton.mpr ⟨rfl, (isPhrase_inlineAll page cs).fitting⟩
  · cases h

/-- What a fence makes fits. -/
theorem fitting_fenceNode (a : Attributes) : Fitting [fenceNode a] := by
  rw [fitting_singleton, inside_fenceNode]
  refine ⟨?_, fitting_nil⟩
  simp only [fenceNode]
  split
  · rfl
  · split <;> rfl
  · rfl

/-- A table holds rows and these hold cells. -/
theorem fitting_tableNode (page : String) (sections : List Element) :
    Fitting [tableNode page sections] := by
  have hcell (cell : Element) : Fitting [.tableCell (inlineAll page cell.children)] :=
    fitting_singleton.mpr ⟨rfl, (isPhrase_inlineAll page cell.children).fitting⟩
  have hrow (row : Element) : Fitting [.tableRow (row.children.map fun cell =>
      .tableCell (inlineAll page cell.children))] :=
    fitting_singleton.mpr
      ⟨rfl, fitting_iff.mpr (List.forall_mem_map.mpr fun cell _ => hcell cell)⟩
  exact fitting_singleton.mpr
    ⟨rfl, fitting_iff.mpr (List.forall_mem_map.mpr fun row _ => hrow row)⟩

mutual

/-- A block gives fitting nodes. -/
theorem fits_blockNodes (page : String) : (e : Element) → Fits (blockNodes page e)
  | .mk kind a cs => by
    have hblocks := fits_blockAll page cs
    have hitems := fits_itemNodes page cs
    have hphrase := (isPhrase_inlineAll page cs).fitting
    rw [blockNodes.eq_def]
    cases kind with
    | heading => exact fits_headingNode page a.tag cs
    | paragraph => exact fits_done (fitting_singleton.mpr ⟨rfl, hphrase⟩)
    | bulletList | orderedList => exact hitems.list _
    | quote | admonition => exact hblocks.around (fun _ => rfl) fun _ => rfl
    | fence => exact fits_done (fitting_fenceNode a)
    | table => exact fits_done (fitting_tableNode page cs)
    | footnoteBlock => exact (fits_footnoteNodes page cs).fits
    | codeBlock | mathBlock | rule | htmlBlock =>
      exact fits_done (fitting_singleton.mpr ⟨rfl, fitting_nil⟩)
    | _ => exact fits_done fitting_nil

/-- Blocks are converted to nodes that fit. -/
theorem fits_blockAll (page : String) : (es : List Element) → Fits (blockAll page es)
  | [] => fits_done fitting_nil
  | e :: rest => (fits_blockNodes page e).append (fits_blockAll page rest)

/-- The items of a list are converted to items. -/
theorem fits_itemNodes (page : String) : (es : List Element) → FitsItems (itemNodes page es)
  | [] => fun _ _ _ h => by
    cases h
    exact ⟨fitting_nil, rfl⟩
  | .mk _ _ cs :: rest =>
    (fits_blockAll page cs).cons (fits_itemNodes page rest) (fun _ => rfl) fun _ => rfl

/-- Footnotes are converted to nodes that fit. -/
theorem fits_footnoteNodes (page : String) : (es : List Element) →
    FitsItems (footnoteNodes page es)
  | [] => fun _ _ _ h => by
    cases h
    exact ⟨fitting_nil, rfl⟩
  | .mk _ _ cs :: rest =>
    (fits_blockAll page cs).cons (fits_footnoteNodes page rest) (fun _ => rfl) fun _ => rfl

end

/-- The tree of a page is fitting. -/
theorem fitting_documentTree {page : String} {elements : List Element} {nodes : List Node}
    (h : documentTree page elements = .ok nodes) : Fitting [.document nodes] := by
  obtain ⟨used, hblocks⟩ := blockAll_of_documentTree h
  exact fitting_singleton.mpr ⟨rfl, fits_blockAll page elements [] nodes used hblocks⟩

end Markdown

end Folio
