import Folio.Proofs.Markdown.Anchors
import Mathlib.Order.Bounds.Defs

/-!
# The choice of an anchor

A heading has the slug of its text for an anchor, or `section` where the text has no slug, unless an
earlier heading of the page has this anchor already. It then gets the slug with the least number
from two on that makes a free anchor. The numbers are tried one after the other, and since there are
finitely many anchors in use, the trial always comes to an end.
-/

namespace Folio

open Text Node

/-- The anchor of a heading as long as no other heading has it. -/
def Heading.ownAnchor (h : Heading) : String :=
  if slug (plainTextAll h.children) = "" then "section" else slug (plainTextAll h.children)

namespace Markdown

/-! ### The trial of numbers -/

/-- The trial of one number after the other behind a label: it goes on as long as the label is in
use, and the number it ends with makes a free one. -/
inductive Trial (root : String) (used : List String) : Nat → Nat → Prop
  | free {n : Nat} (h : numbered root n ∉ used) : Trial root used n n
  | taken {n last : Nat} (h : numbered root n ∈ used) (hrest : Trial root used (n + 1) last) :
    Trial root used n last

namespace Trial

variable {root : String} {used : List String} {n last : Nat}

/-- A trial ends with the least number from its start on that makes a free label. -/
theorem isLeast (h : Trial root used n last) :
    IsLeast {i | n ≤ i ∧ numbered root i ∉ used} last := by
  induction h with
  | free h => exact ⟨⟨Nat.le_refl _, h⟩, fun i hi => hi.1⟩
  | @taken n last h hrest ih =>
    obtain ⟨⟨hle, hfree⟩, hleast⟩ := ih
    refine ⟨⟨by omega, hfree⟩, ?_⟩
    intro i ⟨hi, hifree⟩
    have hne : i ≠ n := by
      rintro rfl
      exact hifree h
    exact hleast ⟨by omega, hifree⟩

/-- A search that ends with a free label has tried all numbers before it. -/
theorem of_freeNumber {fuel : Nat} (h : numbered root (freeNumber root used fuel n) ∉ used) :
    Trial root used n (freeNumber root used fuel n) := by
  induction fuel generalizing n with
  | zero => exact .free h
  | succ fuel ih =>
    rw [freeNumber] at h ⊢
    split at h
    · next htaken =>
      rw [if_pos htaken]
      exact .taken (List.contains_iff_mem.mp htaken) (ih h)
    · next hfree =>
      rw [if_neg hfree]
      exact .free h

/-- Every trial comes to an end: with as many steps as there are anchors in use it has found a free
label. -/
theorem ends (root : String) (used : List String) (n : Nat) :
    Trial root used n (freeNumber root used used.length n) :=
  of_freeNumber (numbered_freeNumber_notMem root used n)

/-- Every trial comes to an end, at one number only. -/
theorem existsUnique (root : String) (used : List String) (n : Nat) :
    ∃! last, Trial root used n last := by
  have hends := ends root used n
  refine ⟨_, hends, ?_⟩
  intro last h
  exact Nat.le_antisymm (h.isLeast.2 hends.isLeast.1) (hends.isLeast.2 h.isLeast.1)

/-- Which anchors are in use decides a trial, not their order. -/
theorem congr {used' : List String} (hused : ∀ s, s ∈ used ↔ s ∈ used')
    (h : Trial root used n last) : Trial root used' n last := by
  induction h with
  | free h => exact .free fun hmem => h ((hused _).mpr hmem)
  | taken h _ ih => exact .taken ((hused _).mp h) ih

end Trial

/-- A heading keeps its own anchor if it is free, and otherwise gets the number that the trial from
two on ends with. -/
theorem freeLabel_spec (h : Heading) (used : List String) :
    let anchor := freeLabel (slug (plainTextAll h.children)) used
    (h.ownAnchor ∉ used → anchor = h.ownAnchor) ∧
      (h.ownAnchor ∈ used → ∃ n, anchor = numbered h.ownAnchor n ∧ Trial h.ownAnchor used 2 n) := by
  intro anchor
  have hanchor : anchor = if used.contains h.ownAnchor
      then numbered h.ownAnchor (freeNumber h.ownAnchor used used.length 2) else h.ownAnchor := rfl
  constructor
  · intro hfree
    rw [hanchor, if_neg (by simpa using hfree)]
  · intro htaken
    rw [hanchor, if_pos (by simpa using htaken)]
    exact ⟨_, rfl, .ends h.ownAnchor used 2⟩

/-! ### Headings in turn -/

/-- Headings that take their anchors in turn: each takes the one that is free for its text while the
anchors of those before it are in use. -/
inductive InTurn : List String → List Heading → List String → Prop
  | nil {used : List String} : InTurn used [] used
  | cons {used used' : List String} {rest : List Heading} (level : Int) (children : List Node)
    (hrest : InTurn (freeLabel (slug (plainTextAll children)) used :: used) rest used') :
    InTurn used (⟨level, children, some (freeLabel (slug (plainTextAll children)) used)⟩ :: rest)
      used'

namespace InTurn

variable {used mid used' : List String} {hs others before after : List Heading} {h : Heading}

/-- Headings that take anchors one after the other take them in turn. -/
theorem append (hfirst : InTurn used hs mid) (hothers : InTurn mid others used') :
    InTurn used (hs ++ others) used' := by
  induction hfirst with
  | nil => exact hothers
  | cons level children _ ih => exact .cons level children (ih hothers)

/-- A heading takes its anchor when those of the headings before it are in use. -/
theorem chosen (hturn : InTurn used (before ++ h :: after) used') :
    ∃ now, h.anchor = some (freeLabel (slug (plainTextAll h.children)) now) ∧
      ∀ s, s ∈ now ↔ s ∈ before.filterMap Heading.anchor ∨ s ∈ used := by
  induction before generalizing used with
  | nil =>
    cases hturn with
    | cons level children hrest => exact ⟨used, rfl, fun s => by simp⟩
  | cons g before ih =>
    cases hturn with
    | cons level children hrest =>
      obtain ⟨now, hanchor, hnow⟩ := ih hrest
      refine ⟨now, hanchor, fun s => ?_⟩
      have hcons : (⟨level, children, some (freeLabel (slug (plainTextAll children)) used)⟩ ::
          before).filterMap Heading.anchor =
          freeLabel (slug (plainTextAll children)) used :: before.filterMap Heading.anchor := rfl
      rw [hnow s, hcons, List.mem_cons, List.mem_cons, or_assoc, or_left_comm]

end InTurn

/-! ### Conversions -/

/-- Whenever the conversion succeeds, its headings take their anchors in turn. -/
def Conversion.TakesInTurn (c : Conversion (List Node)) : Prop :=
  ∀ used nodes used', c used = .ok (nodes, used') → InTurn used (headingsAll nodes) used'

namespace Conversion.TakesInTurn

variable {c d : Conversion (List Node)}

/-- What uses no anchor has no headings. -/
theorem done {nodes : List Node} (h : Sound (done nodes)) : TakesInTurn (done nodes) := by
  rintro used _ _ ⟨⟩
  have hnone : headingsAll nodes = [] := by simpa using (h [] nodes [] rfl).taken.symm
  rw [hnone]
  exact .nil

/-- Conversions in sequence take anchors in turn if both do. -/
theorem append (hc : c.TakesInTurn) (hd : d.TakesInTurn) :
    TakesInTurn (c.andThen fun nodes => d.map (nodes ++ ·)) := by
  intro used _ used' h
  obtain ⟨nodes, mid, hnodes, h⟩ := andThen_eq_ok.mp h
  obtain ⟨others, hothers, rfl⟩ := map_eq_ok.mp h
  rw [headingsAll_append]
  exact (hc used nodes mid hnodes).append (hd mid others used' hothers)

/-- A node around others takes no anchor itself. -/
theorem around {f : List Node → Node} (hc : c.TakesInTurn)
    (hheadings : ∀ ns, (f ns).headings = headingsAll ns) :
    TakesInTurn (c.map fun nodes => [f nodes]) := by
  intro used _ used' h
  obtain ⟨nodes, hnodes, rfl⟩ := map_eq_ok.mp h
  rw [headingsAll, headingsAll, List.append_nil, hheadings]
  exact hc used nodes used' hnodes

/-- A node around some nodes in front of others. -/
theorem cons {f : List Node → Node} (hc : c.TakesInTurn) (hd : d.TakesInTurn)
    (hheadings : ∀ ns, (f ns).headings = headingsAll ns) :
    TakesInTurn (c.andThen fun nodes => d.map (f nodes :: ·)) := by
  intro used _ used' h
  obtain ⟨nodes, mid, hnodes, h⟩ := andThen_eq_ok.mp h
  obtain ⟨others, hothers, rfl⟩ := map_eq_ok.mp h
  rw [headingsAll, hheadings]
  exact (hc used nodes mid hnodes).append (hd mid others used' hothers)

end Conversion.TakesInTurn

open Conversion

/-- A heading takes one anchor. -/
theorem takesInTurn_headingNode (page tag : String) (cs : List Element) :
    TakesInTurn (headingNode page tag cs) := by
  intro used nodes used' h
  simp only [headingNode] at h
  split at h
  · next level _ =>
    obtain ⟨rfl, rfl⟩ := Prod.mk.inj (Except.ok.inj h)
    exact .cons level (inlineAll page cs) .nil
  · cases h

mutual

/-- The headings of a block take their anchors in turn. -/
theorem takesInTurn_blockNodes (page : String) : (e : Element) → TakesInTurn (blockNodes page e)
  | .mk kind a cs => by
    have hblocks := takesInTurn_blockAll page cs
    have hitems := takesInTurn_itemNodes page cs
    -- The kinds that hold no blocks are those whose headings take no anchor.
    have hsound := sound_blockNodes page (.mk kind a cs)
    rw [blockNodes.eq_def] at hsound ⊢
    cases kind with
    | heading => exact takesInTurn_headingNode page a.tag cs
    | bulletList | orderedList => exact hitems.around fun _ => rfl
    | quote | admonition => exact hblocks.around fun _ => rfl
    | footnoteBlock => exact takesInTurn_footnoteNodes page cs
    | _ => exact .done hsound

/-- Blocks take anchors in turn. -/
theorem takesInTurn_blockAll (page : String) : (es : List Element) →
    TakesInTurn (blockAll page es)
  | [] => .done (.done nofun rfl)
  | e :: rest => (takesInTurn_blockNodes page e).append (takesInTurn_blockAll page rest)

/-- Items take anchors in turn. -/
theorem takesInTurn_itemNodes (page : String) : (es : List Element) →
    TakesInTurn (itemNodes page es)
  | [] => .done (.done nofun rfl)
  | .mk _ _ cs :: rest =>
    (takesInTurn_blockAll page cs).cons (takesInTurn_itemNodes page rest) fun _ => rfl

/-- Footnotes take anchors in turn. -/
theorem takesInTurn_footnoteNodes (page : String) : (es : List Element) →
    TakesInTurn (footnoteNodes page es)
  | [] => .done (.done nofun rfl)
  | .mk _ _ cs :: rest =>
    (takesInTurn_blockAll page cs).cons (takesInTurn_footnoteNodes page rest) fun _ => rfl

end

/-- The headings of a page have anchors that are not empty and differ from each other. Each heading
has its own anchor unless an earlier one has it, and then the least number from two on that is free
behind it. The trial of numbers comes to an end, whatever is in use. -/
theorem anchors_are_least_free {page : String} {elements : List Element} {nodes : List Node}
    (h : documentTree page elements = .ok nodes) :
    ((headingsAll nodes).map Heading.anchor).Nodup ∧
      (∀ before g after, headingsAll nodes = before ++ g :: after →
        let used := before.filterMap Heading.anchor
        ∃ anchor, g.anchor = some anchor ∧ anchor ≠ "" ∧
          (g.ownAnchor ∉ used → anchor = g.ownAnchor) ∧
          (g.ownAnchor ∈ used → ∃ n, anchor = numbered g.ownAnchor n ∧
            Trial g.ownAnchor used 2 n ∧
            IsLeast {i | 2 ≤ i ∧ numbered g.ownAnchor i ∉ used} n)) ∧
      ∀ root used n, ∃! last, Trial root used n last := by
  obtain ⟨used', hblocks⟩ := blockAll_of_documentTree h
  have htakes := sound_blockAll page elements [] nodes used' hblocks
  have hturn := takesInTurn_blockAll page elements [] nodes used' hblocks
  refine ⟨?_, ?_, Trial.existsUnique⟩
  · have hfresh : ((headingsAll nodes).map Heading.label).Nodup := by
      have hnodup := htakes.fresh List.nodup_nil
      rwa [htakes.taken, List.append_nil, List.nodup_reverse] at hnodup
    have hnamed : (headingsAll nodes).map Heading.anchor =
        ((headingsAll nodes).map Heading.label).map some := by
      rw [List.map_map]
      exact List.map_congr_left htakes.named
    rw [hnamed]
    exact hfresh.map fun _ _ => Option.some.inj
  · intro before g after hsplit used
    have hmem : g ∈ headingsAll nodes := by simp [hsplit]
    rw [hsplit] at hturn
    obtain ⟨now, hanchor, hnow⟩ := hturn.chosen
    have hused : ∀ s, s ∈ now ↔ s ∈ used := fun s => by simp [hnow s, used]
    obtain ⟨hown, hnumber⟩ := freeLabel_spec g now
    refine ⟨_, hanchor, (isAnchor_freeLabel _ now).1, ?_, ?_⟩
    · intro hfree
      exact hown fun hmem => hfree ((hused _).mp hmem)
    · intro htaken
      obtain ⟨n, hn, htrial⟩ := hnumber ((hused _).mpr htaken)
      have htrial := htrial.congr hused
      exact ⟨n, hn, htrial, htrial.isLeast⟩

/-- The element of a heading with a text. -/
def headingElement (text : String) : Element :=
  .mk .heading ⟨"h1", "", "", [], []⟩ [.mk .text ⟨"", text, "", [], []⟩ []]

/-- The syntax tree of a page on which a heading in a quote has the anchor that a later heading in a
list would get, and a heading in a footnote has no text. -/
def collidingSample : List Element := [
  headingElement "Intro",
  .mk .quote ⟨"", "", "", [], []⟩ [headingElement "Intro-2"],
  .mk .bulletList ⟨"", "", "", [], []⟩ [.mk .other ⟨"", "", "", [], []⟩ [headingElement "Intro"]],
  .mk .footnoteBlock ⟨"", "", "", [], []⟩
    [.mk .other ⟨"", "", "", [], []⟩ [headingElement ""]]]

/-- The nodes of this syntax tree. -/
def collidingNodes : List Node := [
  .heading 1 [.text "Intro"] (some "Intro"),
  .quote [.heading 1 [.text "Intro-2"] (some "Intro-2")],
  .list false [.listItem [.heading 1 [.text "Intro"] (some "Intro-3")]],
  .footnote "" [.heading 1 [.text ""] (some "section")]]

/-- The later heading gets the number three, as two would make the anchor of the heading in the
quote. -/
theorem anchors_are_least_free_collidingSample :
    documentTree "notes.md" collidingSample = .ok collidingNodes ∧
      ((headingsAll collidingNodes).map Heading.anchor).Nodup ∧
      ∃ n, "Intro-3" = numbered "Intro" n ∧
        IsLeast {i | 2 ≤ i ∧ numbered "Intro" i ∉ ["Intro", "Intro-2"]} n := by
  have hnodes : documentTree "notes.md" collidingSample = .ok collidingNodes := rfl
  obtain ⟨hnodup, hchosen, -⟩ := anchors_are_least_free hnodes
  obtain ⟨anchor, hanchor, -, -, hnumber⟩ := hchosen
    [⟨1, [.text "Intro"], some "Intro"⟩, ⟨1, [.text "Intro-2"], some "Intro-2"⟩]
    ⟨1, [.text "Intro"], some "Intro-3"⟩ [⟨1, [.text ""], some "section"⟩] rfl
  obtain rfl := Option.some.inj hanchor
  have hown : Heading.ownAnchor ⟨1, [.text "Intro"], some "Intro-3"⟩ = "Intro" := rfl
  rw [hown] at hnumber
  obtain ⟨n, hn, -, hleast⟩ := hnumber List.mem_cons_self
  exact ⟨hnodes, hnodup, n, hn, hleast⟩

end Markdown

end Folio
