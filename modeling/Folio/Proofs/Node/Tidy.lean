import Folio.Proofs.Node.Walk

/-!
# Tidy trees

In a tidy tree the text of a heading, and of an entry of a table of contents, is a phrase: it holds
inline nodes and nothing else, so that no heading hides in another one.
-/

namespace Folio.Node

/-- Whether a node stands in a line of text. -/
def isInline : Node → Bool
  | text _ | strong _ | emph _ | code _ | math _ | lineBreak | softBreak | link .. | pageLink ..
  | image .. | footnoteMark _ => true
  | _ => false

/-- Nodes are a phrase if the walk meets inline nodes only. -/
def IsPhrase (ns : List Node) : Prop := ∀ m ∈ walkAll ns, m.isInline

/-- Whether a heading, and every entry of a table of contents, has a phrase for its text. -/
def HasPhrases : Node → Prop
  | heading _ cs _ => IsPhrase cs
  | contents entries _ => ∀ entry ∈ entries, IsPhrase entry.children
  | _ => True

/-- A tree is tidy if every node that the walk meets has phrases for its texts. -/
def Tidy (n : Node) : Prop := ∀ m ∈ n.walk, m.HasPhrases

theorem walkAll_append (ns ms : List Node) : walkAll (ns ++ ms) = walkAll ns ++ walkAll ms := by
  simp only [walkAll_eq_flatMap, List.flatMap_append]

/-- The headings of nodes are those of each of them, in order. -/
theorem headingsAll_eq_flatMap (ns : List Node) : headingsAll ns = ns.flatMap headings := by
  induction ns with
  | nil => rfl
  | cons n rest ih => rw [headingsAll, ih, List.flatMap_cons]

theorem headingsAll_append (ns ms : List Node) :
    headingsAll (ns ++ ms) = headingsAll ns ++ headingsAll ms := by
  simp only [headingsAll_eq_flatMap, List.flatMap_append]

/-- Nodes have no headings if none of them has one. -/
theorem headingsAll_eq_nil_iff {ns : List Node} :
    headingsAll ns = [] ↔ ∀ n ∈ ns, n.headings = [] := by
  rw [headingsAll_eq_flatMap, List.flatMap_eq_nil_iff]

namespace IsPhrase

variable {ns ms : List Node} {n : Node}

theorem nil : IsPhrase [] := nofun

/-- Phrases in sequence are a phrase. -/
theorem append (hns : IsPhrase ns) (hms : IsPhrase ms) : IsPhrase (ns ++ ms) := by
  intro m hm
  rw [walkAll_append] at hm
  exact (List.mem_append.mp hm).elim (hns m) (hms m)

/-- An inline node with a phrase below it is a phrase. -/
theorem singleton (hn : n.isInline) (hcs : IsPhrase n.children) : IsPhrase [n] := by
  intro m hm
  rw [walkAll, walk_eq, walkAll, List.append_nil] at hm
  rcases List.mem_cons.mp hm with rfl | hm
  · exact hn
  · exact hcs m hm

end IsPhrase

/-- An inline node has no texts that have to be phrases. -/
theorem HasPhrases.of_isInline {n : Node} (h : n.isInline) : n.HasPhrases := by
  cases n with
  | heading | contents => cases h
  | _ => trivial

/-- A phrase is tidy. -/
theorem IsPhrase.tidy {ns : List Node} (h : IsPhrase ns) : ∀ n ∈ ns, n.Tidy := by
  intro n hn m hm
  refine HasPhrases.of_isInline (h m ?_)
  rw [walkAll_eq_flatMap]
  exact List.mem_flatMap_of_mem hn hm

/-- What is below a tidy node is tidy too. -/
theorem Tidy.below {n m : Node} (h : n.Tidy) (hm : m ∈ n.children) : m.Tidy := by
  intro k hk
  apply h k
  rw [walk_eq, walkAll_eq_flatMap]
  exact List.mem_cons_of_mem _ (List.mem_flatMap_of_mem hm hk)

/-- A tidy node has phrases for its own texts. -/
theorem Tidy.self {n : Node} (h : n.Tidy) : n.HasPhrases :=
  h n (by rw [walk_eq]; exact List.mem_cons_self)

/-- A node is tidy if it has phrases for its texts and all nodes below it are tidy. -/
theorem Tidy.of_children {n : Node} (hn : n.HasPhrases) (hcs : ∀ m ∈ n.children, m.Tidy) :
    n.Tidy := by
  intro m hm
  rw [walk_eq, walkAll_eq_flatMap] at hm
  rcases List.mem_cons.mp hm with rfl | hm
  · exact hn
  · obtain ⟨k, hk, hm⟩ := List.mem_flatMap.mp hm
    exact hcs k hk m hm

mutual

/-- The walk meets every heading of the outline. -/
theorem heading_mem_walk {h : Heading} : (n : Node) → h ∈ n.headings →
    .heading h.level h.children h.anchor ∈ n.walk
  | .heading level cs anchor, hmem => by
    rw [headings, List.mem_singleton] at hmem
    subst hmem
    rw [walk]
    exact List.mem_cons_self
  | .document cs, hmem | .paragraph cs, hmem | .list _ cs, hmem | .listItem cs, hmem
  | .quote cs, hmem | .admonition _ _ cs, hmem | .table _ cs, hmem | .tableRow cs, hmem
  | .tableCell cs, hmem | .footnote _ cs, hmem | .contentsEntry _ _ _ cs, hmem
  | .strong cs, hmem | .emph cs, hmem | .link _ cs, hmem | .pageLink _ _ cs, hmem
  | .image _ cs _, hmem => by
    rw [headings] at hmem
    rw [walk]
    exact List.mem_cons_of_mem _ (heading_mem_walkAll cs hmem)
  | .codeBlock .., hmem | .displayMath _, hmem | .rule, hmem | .raw .., hmem | .binding .., hmem
  | .body .., hmem | .index _, hmem | .indexEntry .., hmem | .contents .., hmem | .text _, hmem
  | .code _, hmem | .math _, hmem | .lineBreak, hmem | .softBreak, hmem
  | .footnoteMark _, hmem => absurd hmem List.not_mem_nil

/-- The headings of nodes are met by the walk. -/
theorem heading_mem_walkAll {h : Heading} : (ns : List Node) → h ∈ headingsAll ns →
    .heading h.level h.children h.anchor ∈ walkAll ns
  | [], hmem => absurd hmem List.not_mem_nil
  | n :: rest, hmem => by
    rw [headingsAll, List.mem_append] at hmem
    rw [walkAll, List.mem_append]
    exact hmem.imp (heading_mem_walk n) (heading_mem_walkAll rest)

end

/-- No heading of the outline stands in a phrase. -/
theorem IsPhrase.headingsAll_eq_nil {ns : List Node} (h : IsPhrase ns) : headingsAll ns = [] :=
  List.eq_nil_iff_forall_not_mem.mpr fun _ hmem => absurd (h _ (heading_mem_walkAll ns hmem)) nofun

/-- The text of a heading of a tidy outline is a phrase. -/
theorem Tidy.isPhrase_of_mem_headingsAll {ns : List Node} (hns : ∀ n ∈ ns, n.Tidy) {h : Heading}
    (hmem : h ∈ headingsAll ns) : IsPhrase h.children := by
  have hwalk := heading_mem_walkAll ns hmem
  rw [walkAll_eq_flatMap] at hwalk
  obtain ⟨n, hn, hwalk⟩ := List.mem_flatMap.mp hwalk
  exact hns n hn _ hwalk

end Folio.Node
