import Folio.Markdown.Convert
import Folio.Proofs.Node.Tidy
import Folio.Proofs.Text.Decimal
import Folio.Proofs.Text.Parts
import Mathlib.Data.List.Nodup
import Mathlib.Data.List.Perm.Subperm

/-!
# The anchors of a page

The conversion of a page hands on the anchors in use, and a heading takes one that is free. So the
headings of a page have anchors that differ from each other, wherever they stand: in quotes, in
lists, in admonitions and in footnotes.
-/

namespace Folio.Markdown

open Text Node

/-! ### Free anchors -/

/-- Different numbers make different anchors of one root. -/
theorem numbered_injective (root : String) : Function.Injective (numbered root) := by
  intro m n h
  have hlist := congrArg String.toList h
  simp only [numbered, String.toList_append] at hlist
  have hdigits : (toString m).toList = (toString n).toList := List.append_cancel_left hlist
  calc
    m = digitsValue (toString m).toList := (digitsValue_toString m).symm
    _ = digitsValue (toString n).toList := by rw [hdigits]
    _ = n := digitsValue_toString n

/-- A number that the search ends with in vain shows that all numbers it tried are taken. -/
theorem numbered_mem_of_freeNumber_mem {root : String} {used : List String} (fuel : Nat) {n : Nat}
    (h : numbered root (freeNumber root used fuel n) ∈ used) :
    ∀ i ≤ fuel, numbered root (n + i) ∈ used := by
  induction fuel generalizing n with
  | zero =>
    intro i hi
    obtain rfl := Nat.le_zero.mp hi
    exact h
  | succ fuel ih =>
    rw [freeNumber] at h
    split at h
    · next hn =>
      intro i hi
      cases i with
      | zero => exact List.contains_iff_mem.mp hn
      | succ i =>
        rw [← Nat.add_assoc, Nat.add_right_comm]
        exact ih h i (Nat.le_of_succ_le_succ hi)
    · next hn => exact absurd (List.contains_iff_mem.mpr h) hn

/-- Among more numbers than there are anchors in use, one is free. -/
theorem numbered_freeNumber_notMem (root : String) (used : List String) (n : Nat) :
    numbered root (freeNumber root used used.length n) ∉ used := by
  intro h
  have htaken := numbered_mem_of_freeNumber_mem used.length h
  have hnodup : ((List.range (used.length + 1)).map fun i => numbered root (n + i)).Nodup :=
    List.Nodup.map (fun i j hij => Nat.add_left_cancel (numbered_injective root hij))
      List.nodup_range
  have hsubset : ((List.range (used.length + 1)).map fun i => numbered root (n + i)) ⊆ used := by
    intro s hs
    obtain ⟨i, hi, rfl⟩ := List.mem_map.mp hs
    exact htaken i (Nat.le_of_lt_succ (List.mem_range.mp hi))
  have hlength := (hnodup.subperm hsubset).length_le
  rw [List.length_map, List.length_range] at hlength
  omega

/-- A fresh anchor is not in use. -/
theorem freeLabel_notMem (slug : String) (used : List String) : freeLabel slug used ∉ used := by
  rw [freeLabel]
  generalize (if slug = "" then "section" else slug) = root
  split
  · exact numbered_freeNumber_notMem root used 2
  · next h => exact fun hmem => h (List.contains_iff_mem.mpr hmem)

/-- An anchor of a heading: not empty, and without the character between a page and a name. -/
def IsAnchor (s : String) : Prop := s ≠ "" ∧ '#' ∉ s.toList

/-- A number behind an anchor makes an anchor. -/
theorem IsAnchor.numbered {root : String} (h : IsAnchor root) (n : Nat) :
    IsAnchor (numbered root n) := by
  have hlist : (Markdown.numbered root n).toList = root.toList ++ '-' :: (toString n).toList := by
    simp [Markdown.numbered]
  refine ⟨fun hempty => ?_, fun hmem => ?_⟩
  · rw [hempty] at hlist
    simp at hlist
  · rw [hlist, List.mem_append, List.mem_cons] at hmem
    rcases hmem with hmem | hmem | hmem
    · exact h.2 hmem
    · exact absurd hmem (by decide)
    · exact absurd (isDigit_of_mem_toString hmem) (by decide)

/-- A fresh anchor for a slug is an anchor. -/
theorem isAnchor_freeLabel (s : String) (used : List String) :
    IsAnchor (freeLabel (slug s) used) := by
  have hroot : IsAnchor (if slug s = "" then "section" else slug s) := by
    split
    · exact ⟨by decide, by decide⟩
    · next h =>
      refine ⟨h, fun hmem => ?_⟩
      have hnone : isSlugChar '#' = false := by decide
      exact Bool.noConfusion (hnone.symm.trans (isSlugChar_of_mem_slug hmem))
  rw [freeLabel]
  generalize (if slug s = "" then "section" else slug s) = root at hroot ⊢
  split
  · exact hroot.numbered _
  · exact hroot

/-! ### Phrases -/

/-- A link is a phrase if its text is. -/
theorem isPhrase_linkNode (page href : String) {cs : List Node} (h : IsPhrase cs) :
    IsPhrase [linkNode page href cs] := by
  rw [linkNode]
  split
  · exact .singleton rfl h
  · dsimp only
    split
    · exact .singleton rfl h
    · split <;> exact .singleton rfl h

mutual

/-- An inline element gives a phrase. -/
theorem isPhrase_inlineNodes (page : String) : (e : Element) → IsPhrase (inlineNodes page e)
  | .mk kind a cs => by
    have hcs := isPhrase_inlineAll page cs
    rw [inlineNodes.eq_def]
    cases kind with
    | text | softBreak | hardBreak | codeSpan | math | footnoteMark => exact .singleton rfl .nil
    | strong | emph | image => exact .singleton rfl hcs
    | link => exact isPhrase_linkNode page _ hcs
    | footnoteAnchor | htmlInline => exact .nil
    | _ => exact hcs

/-- Inline elements make a phrase. -/
theorem isPhrase_inlineAll (page : String) : (es : List Element) → IsPhrase (inlineAll page es)
  | [] => .nil
  | e :: rest => (isPhrase_inlineNodes page e).append (isPhrase_inlineAll page rest)

end

/-! ### Conversions -/

/-- What is given when some anchors were in use and others are now: tidy nodes whose headings have
taken anchors that were free. -/
structure Takes (used used' : List String) (nodes : List Node) : Prop where
  taken : used' = ((headingsAll nodes).map Heading.label).reverse ++ used
  fresh : used.Nodup → used'.Nodup
  anchors : ∀ h ∈ headingsAll nodes, IsAnchor h.label
  named : ∀ h ∈ headingsAll nodes, h.anchor = some h.label
  tidy : ∀ n ∈ nodes, n.Tidy

namespace Takes

variable {used mid used' : List String} {nodes others : List Node} {node : Node}

/-- Nodes without headings take no anchor. -/
theorem none (htidy : ∀ n ∈ nodes, n.Tidy) (h : headingsAll nodes = []) :
    Takes used used nodes where
  taken := by rw [h]; rfl
  fresh := id
  anchors := by rw [h]; nofun
  named := by rw [h]; nofun
  tidy := htidy

/-- Anchors that are taken one after the other are taken together. -/
theorem append (h : Takes used mid nodes) (hothers : Takes mid used' others) :
    Takes used used' (nodes ++ others) where
  taken := by
    rw [hothers.taken, h.taken, headingsAll_append, List.map_append, List.reverse_append,
      List.append_assoc]
  fresh := hothers.fresh ∘ h.fresh
  anchors := by
    rw [headingsAll_append]
    exact fun g hg => (List.mem_append.mp hg).elim (h.anchors g) (hothers.anchors g)
  named := by
    rw [headingsAll_append]
    exact fun g hg => (List.mem_append.mp hg).elim (h.named g) (hothers.named g)
  tidy := fun n hn => (List.mem_append.mp hn).elim (h.tidy n) (hothers.tidy n)

/-- A node around others takes the anchors that they take. -/
theorem around (h : Takes used used' nodes) (hheadings : node.headings = headingsAll nodes)
    (hphrases : node.HasPhrases) (hchildren : node.children = nodes) :
    Takes used used' [node] := by
  have hall : headingsAll [node] = headingsAll nodes := by
    rw [headingsAll, headingsAll, List.append_nil, hheadings]
  refine ⟨?_, h.fresh, ?_, ?_, ?_⟩
  · rw [hall]
    exact h.taken
  · rw [hall]
    exact h.anchors
  · rw [hall]
    exact h.named
  · intro n hn
    obtain rfl := List.mem_singleton.mp hn
    exact .of_children hphrases fun m hm => h.tidy m (hchildren ▸ hm)

end Takes

namespace Conversion

variable {α β : Type} {c d : Conversion (List Node)}

/-- Conversions in sequence succeed if both do, the second with the anchors that the first leaves.
-/
theorem andThen_eq_ok {first : Conversion α} {next : α → Conversion β} {used used' : List String}
    {b : β} : first.andThen next used = .ok (b, used') ↔
      ∃ a mid, first used = .ok (a, mid) ∧ next a mid = .ok (b, used') := by
  rw [andThen]
  cases first used with
  | error f => simp
  | ok r =>
    constructor
    · exact fun h => ⟨r.1, r.2, rfl, h⟩
    · rintro ⟨a, mid, hr, h⟩
      cases hr
      exact h

/-- A conversion whose result is changed succeeds as before. -/
theorem map_eq_ok {f : α → β} {first : Conversion α} {used used' : List String} {b : β} :
    first.map f used = .ok (b, used') ↔ ∃ a, first used = .ok (a, used') ∧ f a = b := by
  simp [map, andThen_eq_ok, done]

/-- Whenever the conversion succeeds, its headings take free anchors. -/
def Sound (c : Conversion (List Node)) : Prop :=
  ∀ used nodes used', c used = .ok (nodes, used') → Takes used used' nodes

namespace Sound

/-- Nodes without headings of an outline take no anchor. -/
theorem done {nodes : List Node} (htidy : ∀ n ∈ nodes, n.Tidy) (h : headingsAll nodes = []) :
    Sound (done nodes) := by
  rintro used _ _ ⟨⟩
  exact .none htidy h

/-- A single node below which nothing stands. -/
theorem leaf {n : Node} (hphrases : n.HasPhrases) (hchildren : n.children = [])
    (h : n.headings = []) : Sound (Markdown.done [n]) := by
  refine done (fun m hm => ?_) (by rw [headingsAll, headingsAll, h]; rfl)
  obtain rfl := List.mem_singleton.mp hm
  exact .of_children hphrases (by rw [hchildren]; nofun)

/-- Conversions in sequence are sound if both are. -/
theorem append (hc : c.Sound) (hd : d.Sound) :
    Sound (c.andThen fun nodes => d.map (nodes ++ ·)) := by
  intro used _ used' h
  obtain ⟨nodes, mid, hnodes, h⟩ := andThen_eq_ok.mp h
  obtain ⟨others, hothers, rfl⟩ := map_eq_ok.mp h
  exact (hc used nodes mid hnodes).append (hd mid others used' hothers)

/-- A node around soundly converted nodes is sound if its headings are theirs. -/
theorem around {f : List Node → Node} (hc : c.Sound)
    (hheadings : ∀ ns, (f ns).headings = headingsAll ns) (hphrases : ∀ ns, (f ns).HasPhrases)
    (hchildren : ∀ ns, (f ns).children = ns) : Sound (c.map fun nodes => [f nodes]) := by
  intro used _ used' h
  obtain ⟨nodes, hnodes, rfl⟩ := map_eq_ok.mp h
  exact (hc used nodes used' hnodes).around (hheadings nodes) (hphrases nodes) (hchildren nodes)

/-- A node around some nodes in front of others. -/
theorem cons {f : List Node → Node} (hc : c.Sound) (hd : d.Sound)
    (hheadings : ∀ ns, (f ns).headings = headingsAll ns) (hphrases : ∀ ns, (f ns).HasPhrases)
    (hchildren : ∀ ns, (f ns).children = ns) :
    Sound (c.andThen fun nodes => d.map (f nodes :: ·)) := by
  intro used _ used' h
  obtain ⟨nodes, mid, hnodes, h⟩ := andThen_eq_ok.mp h
  obtain ⟨others, hothers, rfl⟩ := map_eq_ok.mp h
  have hfirst := (hc used nodes mid hnodes).around (hheadings nodes) (hphrases nodes)
    (hchildren nodes)
  exact hfirst.append (hd mid others used' hothers)

end Sound

end Conversion

open Conversion

/-- A heading takes a free anchor, which is its label. -/
theorem sound_headingNode (page tag : String) (cs : List Element) :
    Sound (headingNode page tag cs) := by
  intro used nodes used' h
  simp only [headingNode] at h
  generalize hanchor : freeLabel (slug (plainTextAll (inlineAll page cs))) used = anchor at h
  have hfree : IsAnchor anchor ∧ anchor ∉ used := by
    rw [← hanchor]
    exact ⟨isAnchor_freeLabel _ _, freeLabel_notMem _ _⟩
  split at h
  · next level _ =>
    obtain ⟨rfl, rfl⟩ := Prod.mk.inj (Except.ok.inj h)
    have hlabel : Heading.label ⟨level, inlineAll page cs, some anchor⟩ = anchor :=
      if_neg hfree.1.1
    have honly (g : Heading) (hg : g ∈ headingsAll [.heading level (inlineAll page cs) anchor]) :
        g = ⟨level, inlineAll page cs, some anchor⟩ := by
      rwa [headingsAll, headingsAll, headings, List.append_nil, List.mem_singleton] at hg
    refine ⟨?_, fun hused => List.nodup_cons.mpr ⟨hfree.2, hused⟩, ?_, ?_, ?_⟩
    · simp [headingsAll, headings, hlabel]
    · intro g hg
      rw [honly g hg, hlabel]
      exact hfree.1
    · intro g hg
      rw [honly g hg, hlabel]
    · intro n hn
      obtain rfl := List.mem_singleton.mp hn
      have hphrase := isPhrase_inlineAll page cs
      exact .of_children hphrase hphrase.tidy
  · cases h

/-- The cells of a table hold phrases. -/
theorem sound_tableNode (page : String) (sections : List Element) :
    Sound (done [tableNode page sections]) := by
  have hcell (cell : Element) : (Node.tableCell (inlineAll page cell.children)).Tidy ∧
      (Node.tableCell (inlineAll page cell.children)).headings = [] := by
    have hphrase := isPhrase_inlineAll page cell.children
    exact ⟨.of_children trivial hphrase.tidy, hphrase.headingsAll_eq_nil⟩
  have hrow (row : Element) : (Node.tableRow (row.children.map fun cell =>
        .tableCell (inlineAll page cell.children))).Tidy ∧
      (Node.tableRow (row.children.map fun cell =>
        .tableCell (inlineAll page cell.children))).headings = [] :=
    ⟨.of_children trivial (List.forall_mem_map.mpr fun cell _ => (hcell cell).1),
      headingsAll_eq_nil_iff.mpr (List.forall_mem_map.mpr fun cell _ => (hcell cell).2)⟩
  rw [tableNode]
  refine .done (List.forall_mem_singleton.mpr ?_)
    (headingsAll_eq_nil_iff.mpr (List.forall_mem_singleton.mpr ?_))
  · exact .of_children trivial (List.forall_mem_map.mpr fun row _ => (hrow row).1)
  · exact headingsAll_eq_nil_iff.mpr (List.forall_mem_map.mpr fun row _ => (hrow row).2)

/-- A fence makes a listing, documentation or code, all without headings. -/
theorem sound_fenceNode (a : Attributes) : Sound (done [fenceNode a]) := by
  simp only [fenceNode]
  split
  · exact .leaf trivial rfl rfl
  · split <;> exact .leaf trivial rfl rfl
  · exact .leaf trivial rfl rfl

mutual

/-- The headings of a block take free anchors. -/
theorem sound_blockNodes (page : String) : (e : Element) → Sound (blockNodes page e)
  | .mk kind a cs => by
    have hblocks := sound_blockAll page cs
    have hitems := sound_itemNodes page cs
    rw [blockNodes.eq_def]
    cases kind with
    | heading => exact sound_headingNode page a.tag cs
    | paragraph =>
      have hphrase := isPhrase_inlineAll page cs
      refine .done (fun n hn => ?_) ?_
      · obtain rfl := List.mem_singleton.mp hn
        exact .of_children trivial hphrase.tidy
      · rw [headingsAll, headings, hphrase.headingsAll_eq_nil]
        rfl
    | bulletList | orderedList =>
      exact hitems.around (fun _ => rfl) (fun _ => trivial) fun _ => rfl
    | quote | admonition => exact hblocks.around (fun _ => rfl) (fun _ => trivial) fun _ => rfl
    | fence => exact sound_fenceNode a
    | table => exact sound_tableNode page cs
    | footnoteBlock => exact sound_footnoteNodes page cs
    | codeBlock | mathBlock | rule | htmlBlock => exact .leaf trivial rfl rfl
    | _ => exact .done nofun rfl

/-- Blocks one after the other are converted soundly. -/
theorem sound_blockAll (page : String) : (es : List Element) → Sound (blockAll page es)
  | [] => .done nofun rfl
  | e :: rest => (sound_blockNodes page e).append (sound_blockAll page rest)

/-- Items are converted soundly. -/
theorem sound_itemNodes (page : String) : (es : List Element) → Sound (itemNodes page es)
  | [] => .done nofun rfl
  | .mk _ _ cs :: rest => (sound_blockAll page cs).cons (sound_itemNodes page rest)
      (fun _ => rfl) (fun _ => trivial) fun _ => rfl

/-- Footnotes are converted soundly. -/
theorem sound_footnoteNodes (page : String) : (es : List Element) → Sound (footnoteNodes page es)
  | [] => .done nofun rfl
  | .mk _ _ cs :: rest => (sound_blockAll page cs).cons (sound_footnoteNodes page rest)
      (fun _ => rfl) (fun _ => trivial) fun _ => rfl

end

/-- The tree of a page is what its blocks are converted to when no anchor is used. -/
theorem blockAll_of_documentTree {page : String} {elements : List Element} {nodes : List Node}
    (h : documentTree page elements = .ok nodes) :
    ∃ used, blockAll page elements [] = .ok (nodes, used) := by
  rw [documentTree] at h
  cases hblocks : blockAll page elements [] with
  | error f =>
    rw [hblocks] at h
    cases h
  | ok r =>
    rw [hblocks] at h
    obtain rfl := Except.ok.inj h
    exact ⟨r.2, rfl⟩

/-- The headings of a page, those in quotes, lists and footnotes among them, have anchors that
differ from each other. -/
theorem documentTree_takes {page : String} {elements : List Element} {nodes : List Node}
    (h : documentTree page elements = .ok nodes) : ∃ used, Takes [] used nodes := by
  obtain ⟨used, hblocks⟩ := blockAll_of_documentTree h
  exact ⟨used, sound_blockAll page elements [] nodes used hblocks⟩

end Folio.Markdown
