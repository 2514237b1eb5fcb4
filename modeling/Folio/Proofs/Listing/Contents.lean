import Folio.Proofs.Draft.InOrder
import Folio.Proofs.Listing.Outline
import Folio.Proofs.Render.Missing
import Mathlib.Data.List.Chain
import Mathlib.Order.Bounds.Defs

/-!
# Bullets of a table of contents

A table of contents is written as bullets: one with a link for every heading that it lists, in
order, indented by the levels that the heading lies below the smallest level listed, and empty ones
that keep the place of skipped levels. The link leads to the label that the heading gets on its own
page. No bullet is indented more than one step further than the bullet before it; but the first
bullet is indented if the first heading listed does not have the smallest level.
-/

namespace Folio

open Draft Node

/-- A bullet of a table of contents. -/
inductive Bullet
  /-- An empty bullet in the place of a skipped level. -/
  | placeholder (indent : Nat)
  /-- A bullet with a link to a heading. -/
  | link (indent : Nat) (line : ContentsLine)

namespace Bullet

/-- The steps by which a bullet is indented. -/
def indent : Bullet → Nat
  | placeholder n | link n _ => n

/-- The heading that a bullet links to and the steps by which it is indented. -/
def link? : Bullet → Option (Nat × ContentsLine)
  | placeholder _ => none
  | link n l => some (n, l)

end Bullet

/-- The label that a bullet for a heading links to. -/
def ContentsLine.id (labels : Labels) (l : ContentsLine) : LabelId :=
  labels.id l.page l.heading.label

/-- A heading as a node of its page. -/
def Heading.node (h : Heading) : Node := .heading h.level h.children h.anchor

/-- An entry of a table of contents for a heading. -/
def ContentsLine.entry (l : ContentsLine) : Node :=
  .contentsEntry l.page l.heading.label l.heading.level l.heading.children

/-- The bullets for some headings where bullets that are indented fewer than `next` steps need no
place kept in front of them. -/
def bulletsFrom (smallest : Int) (next : Nat) : List ContentsLine → List Bullet
  | [] => []
  | l :: rest =>
    let indent := (l.heading.level - smallest).toNat
    (List.range' next (indent - next)).map .placeholder ++
      .link indent l :: bulletsFrom smallest (indent + 1) rest

/-- The smallest level of some headings. -/
def smallestOf (lines : List ContentsLine) : Int :=
  smallestLevel (lines.map fun l => l.heading.level)

theorem smallestOf_le {lines : List ContentsLine} {l : ContentsLine} (hl : l ∈ lines) :
    smallestOf lines ≤ l.heading.level := smallestLevel_le (List.mem_map_of_mem hl)

/-- The bullets of a table of contents for some headings. No place is ever kept for the smallest
level itself, not even in front of the first heading. -/
def bullets (lines : List ContentsLine) : List Bullet := bulletsFrom (smallestOf lines) 1 lines

section Written

variable (r : Renderer) (expand : Context → List Node → Draft) (c : Context)

/-- What is written for a bullet. -/
def Bullet.draft : Bullet → Draft
  | placeholder n => markup (Text.repeated n "  " ++ "-\n")
  | link n l =>
    markup (Text.repeated n "  " ++ "- ") >> ofPiece (.link (.label (l.id r.labels))) >>
      markup "[" >> draftAll r expand c l.heading.children >> markup "]\n"

/-- Skipped levels are written as empty bullets. -/
theorem placeholders_eq (depth level : Nat) :
    placeholders depth level = inOrder
      (((List.range' depth (level - (depth + 1))).map Bullet.placeholder).map
        (Bullet.draft r expand c)) := by
  rw [placeholders, inOrder, List.range'_succ_left, List.map_map, List.map_map]
  rfl

/-- Entries for headings, none of them above the smallest level, are written as bullets. -/
theorem draftContents_eq {smallest : Int} {lines : List ContentsLine}
    (h : ∀ l ∈ lines, smallest ≤ l.heading.level) (depth : Nat) :
    draftContents r expand c smallest depth (lines.map ContentsLine.entry) =
      inOrder ((bulletsFrom smallest depth lines).map (Bullet.draft r expand c)) := by
  induction lines generalizing depth with
  | nil =>
    rw [List.map_nil, draftContents]
    rfl
  | cons l rest ih =>
    obtain ⟨hl, hrest⟩ := List.forall_mem_cons.mp h
    -- The writer counts levels from one on, the bullets count steps from zero on.
    obtain ⟨n, hn⟩ : ∃ n : Nat, l.heading.level - smallest = n := Int.eq_ofNat_of_zero_le (by omega)
    have hlevel : (l.heading.level - smallest + 1).toNat = n + 1 := by omega
    rw [List.map_cons, ContentsLine.entry, draftContents, hlevel, if_neg (Nat.succ_ne_zero n),
      ih hrest, bulletsFrom, hn, placeholders_eq r expand c]
    simp only [Int.toNat_natCast, List.map_append, inOrder_append, List.map_cons, inOrder_cons,
      Nat.add_sub_add_right, Bullet.draft, Draft.seq_assoc]
    rfl

/-- The table of contents of some pages is written as its bullets. -/
theorem draftNode_contentsBlock (o : ListingOptions) (pages : List Page) :
    draftNode r expand c (contentsBlock o pages) =
      if (contentsLines o pages).isEmpty then markup "\n"
      else inOrder ((bullets (contentsLines o pages)).map (Bullet.draft r expand c)) := by
  rw [contentsBlock, draftNode, List.isEmpty_map, bullets,
    ← draftContents_eq r expand c (fun _ => smallestOf_le) 1]
  rfl

end Written

/-! ### Every heading has its bullet -/

/-- The smallest level of some headings is the level of one of them. -/
theorem smallestLevel_mem {levels : List Int} (h : levels ≠ []) :
    smallestLevel levels ∈ levels := by
  induction levels with
  | nil => exact absurd rfl h
  | cons first rest ih =>
    cases rest with
    | nil => exact List.mem_singleton_self first
    | cons second others =>
      change min first (smallestLevel (second :: others)) ∈ _
      rcases Int.le_total first (smallestLevel (second :: others)) with hfirst | hrest
      · rw [Int.min_eq_left hfirst]
        exact List.mem_cons_self
      · rw [Int.min_eq_right hrest]
        exact List.mem_cons_of_mem first (ih (List.cons_ne_nil second others))

theorem smallestOf_isLeast {lines : List ContentsLine} (h : lines ≠ []) :
    IsLeast {level | ∃ l ∈ lines, l.heading.level = level} (smallestOf lines) :=
  ⟨List.mem_map.mp (smallestLevel_mem (List.map_eq_nil_iff.not.mpr h)), by
    rintro _ ⟨l, hl, rfl⟩
    exact smallestOf_le hl⟩

/-- Each heading has one bullet with a link, in order, and no other bullet has a link. -/
theorem links_bulletsFrom (smallest : Int) (next : Nat) (lines : List ContentsLine) :
    (bulletsFrom smallest next lines).filterMap Bullet.link? =
      lines.map fun l => ((l.heading.level - smallest).toNat, l) := by
  induction lines generalizing next with
  | nil => rfl
  | cons l rest ih =>
    have hplaceholders (places : List Nat) :
        (places.map Bullet.placeholder).filterMap Bullet.link? = [] := by
      rw [List.filterMap_map]
      exact List.filterMap_eq_nil_iff.mpr fun _ _ => rfl
    rw [bulletsFrom, List.filterMap_append, hplaceholders, List.nil_append,
      List.map_cons, ← ih]
    rfl

/-- The headings that are listed are those of the covered pages that have a tree. -/
theorem contentsLines_eq (o : ListingOptions) (pages : List Page) :
    contentsLines o pages = (coveredTrees o pages).flatMap fun p =>
      ((headingsAll p.contents).filter fun h => h.level ≤ (o.depth : Int)).map fun h =>
        ⟨p.path, h⟩ := by
  refine flatMap_coveredPages (fun p htree => ?_) o pages
  rw [Page.contents_of_tree_eq_none htree]
  rfl

/-- The text of a bullet. -/
def Bullet.written (r : Renderer) (c : Context) : Bullet → String
  | placeholder n => Text.repeated n "  " ++ "-\n"
  | link n l =>
    Text.repeated n "  " ++ "- " ++ (l.id r.labels).reference ++ "[" ++
      (r.nodes c l.heading.children).text ++ "]\n"

theorem Bullet.text_draft {r : Renderer} {c : Context} {b : Bullet}
    (h : (b.draft r (r.draftUpTo c.notes.length) c).fault = none) :
    (b.draft r (r.draftUpTo c.notes.length) c).text = b.written r c := by
  cases b with
  | placeholder n => exact text_markup _
  | link n l =>
    rw [Bullet.draft] at h ⊢
    simp only [fault_seq_eq_none] at h
    obtain ⟨-, -, -, hchildren, -⟩ := h
    rw [text_seq rfl, text_seq rfl, text_seq rfl, text_seq hchildren, text_markup, text_ofPiece,
      Piece.written_link, text_markup, text_markup]
    simp only [Bullet.written, Renderer.nodes, String.append_assoc]

/-- A table of contents without a fault consists of the texts of its bullets. -/
theorem text_contentsBlock {r : Renderer} {c : Context} {o : ListingOptions} {pages : List Page}
    (h : (r.node c (contentsBlock o pages)).fault = none) :
    (r.node c (contentsBlock o pages)).text =
      if (contentsLines o pages).isEmpty then "\n"
      else String.join ((bullets (contentsLines o pages)).map (Bullet.written r c)) := by
  rw [Renderer.node, draftNode_contentsBlock] at h ⊢
  split
  · exact text_markup "\n"
  · next hfound =>
    rw [if_neg hfound] at h
    have hbullets := List.forall_mem_map.mp (fault_inOrder_eq_none.mp h)
    rw [text_inOrder h, List.map_map]
    exact congrArg String.join (List.map_congr_left fun b hb => Bullet.text_draft (hbullets b hb))

/-- Behind a heading on its page stands its label. -/
theorem text_heading {r : Renderer} {c : Context} {h : Heading} (hdocs : c.inDocs = false)
    (hok : (r.node c h.node).fault = none) :
    ∃ before, (r.node c h.node).text =
      before ++ (r.labels.id c.page h.label).definition ++ "\n\n" := by
  obtain ⟨front, hfront⟩ : ∃ front, r.node c h.node =
      front >> ofPiece (.anchor (r.labels.id c.page h.label)) >> markup "\n\n" := by
    rw [Renderer.node, Heading.node, draftNode, if_neg (by simp [hdocs])]
    dsimp only
    rw [← seq_assoc, ← seq_assoc]
    exact ⟨_, rfl⟩
  rw [hfront] at hok ⊢
  refine ⟨front.text, ?_⟩
  rw [text_seq (fault_seq_eq_none.mp hok).1, text_seq rfl, text_ofPiece, Piece.written_anchor,
    text_markup, String.append_assoc]

/-- A table of contents is made of the headings down to its depth in the trees of the covered pages.
It is written with exactly one link for each of them, in order, indented by the levels that the
heading lies below the smallest one, and the link leads to the label that stands behind the heading
on its page. -/
theorem headings_listed_and_linked {o : ListingOptions} {content : String} {pages : List Page}
    (ho : ListingOptions.ofText? content = some o)
    (hpages : ∀ p ∈ pages, o.covers p.path → p.isReadable) :
    let found : List ContentsLine := (coveredTrees o pages).flatMap fun p =>
      ((headingsAll p.contents).filter fun h => h.level ≤ (o.depth : Int)).map fun h => ⟨p.path, h⟩
    listNode pages (.raw contentsFence content) = .ok (contentsBlock o pages) ∧
      (∀ r c, (r.node c (contentsBlock o pages)).fault = none →
        (r.node c (contentsBlock o pages)).text =
          if found.isEmpty then "\n" else String.join ((bullets found).map (Bullet.written r c))) ∧
      (bullets found).filterMap Bullet.link? =
        found.map (fun l => ((l.heading.level - smallestOf found).toNat, l)) ∧
      (found ≠ [] → IsLeast {level | ∃ l ∈ found, l.heading.level = level} (smallestOf found)) ∧
      ∀ l ∈ found, ∀ (r : Renderer) (c : Context), c.page = l.page → c.inDocs = false →
        (r.node c l.heading.node).fault = none → ∃ before, (r.node c l.heading.node).text =
          before ++ (l.id r.labels).definition ++ "\n\n" := by
  intro found
  have hfound : found = contentsLines o pages := (contentsLines_eq o pages).symm
  refine ⟨?_, fun r c hok => ?_, links_bulletsFrom _ 1 found, smallestOf_isLeast,
    fun l _ r c hc hdocs hok => ?_⟩
  · rw [listNode, if_pos rfl]
    exact listing_of_isReadable ho hpages contentsBlock
  · rw [hfound]
    exact text_contentsBlock hok
  · rw [ContentsLine.id, ← hc]
    exact text_heading hdocs hok

/-- A page with a subsection before its section. -/
def slopedPage : Page :=
  ⟨"notes.md", some (.document [.heading 2 [.text "Setup"] none, .heading 1 [.text "Guide"] none]),
    "Notes", 1⟩

/-- A page beside it. -/
def besidePage : Page :=
  ⟨"more.md", some (.document [.heading 1 [.text "Detail"] none]), "More", 1⟩

/-- A table of contents of one of the two pages has the headings of that page, each with its
link. -/
theorem headings_listed_and_linked_slopedPage :
    let r : Renderer := ⟨⟨"", false, [], []⟩, fun _ => none, none⟩
    let c := Context.atPage "index.md" 1 []
    let o : ListingOptions := ⟨["notes.md"], 3⟩
    let pages := [slopedPage, besidePage]
    listNode pages (.raw contentsFence "Pages = [\"notes.md\"]\nDepth = 3\n") =
        .ok (contentsBlock o pages) ∧
      (r.node c (contentsBlock o pages)).text =
        "  - #link(label(\"notes.md#Setup\"))[Setup]\n" ++
          "- #link(label(\"notes.md#Guide\"))[Guide]\n" := by
  have ho : ListingOptions.ofText? "Pages = [\"notes.md\"]\nDepth = 3\n" =
      some ⟨["notes.md"], 3⟩ := by decide +kernel
  have hreadable : ∀ p ∈ [slopedPage, besidePage], p.isReadable = true := by decide
  obtain ⟨hlisted, htext, -⟩ := headings_listed_and_linked ho fun p hp _ => hreadable p hp
  exact ⟨hlisted, (htext _ _ (by decide +kernel)).trans (by decide +kernel)⟩

/-! ### The outline of the bullets -/

/-- Whether lines with some indents are an outline: the first one is not indented, and every other
one at most one step further than the one before it. -/
def IsOutline (indents : List Nat) : Prop :=
  (∀ n ∈ indents.head?, n = 0) ∧ indents.IsChain fun before n => n ≤ before + 1

/-- The first bullet keeps the place in front of the first heading, or is its bullet. -/
theorem head?_indents (smallest : Int) (next : Nat) (l : ContentsLine) (rest : List ContentsLine) :
    ((bulletsFrom smallest next (l :: rest)).map Bullet.indent).head? =
      some (min next (l.heading.level - smallest).toNat) := by
  rw [bulletsFrom]
  generalize (l.heading.level - smallest).toNat = indent
  rcases Nat.lt_or_ge next indent with hskip | hnone
  · obtain ⟨k, hk⟩ : ∃ k, indent - next = k + 1 := ⟨indent - next - 1, by omega⟩
    rw [hk, List.range'_succ, Nat.min_eq_left (Nat.le_of_lt hskip)]
    rfl
  · rw [Nat.sub_eq_zero_of_le hnone, Nat.min_eq_right hnone]
    rfl

theorem head?_indents_le {smallest : Int} {next : Nat} {lines : List ContentsLine} :
    ∀ n ∈ ((bulletsFrom smallest next lines).map Bullet.indent).head?, n ≤ next := by
  cases lines with
  | nil => nofun
  | cons l rest =>
    rw [head?_indents]
    intro n hn
    rw [← Option.mem_some_iff.mp hn]
    exact Nat.min_le_left ..

/-- The places of skipped levels lead down to the next heading step by step. -/
theorem isChain_indents (smallest : Int) (next : Nat) (lines : List ContentsLine) :
    ((bulletsFrom smallest next lines).map Bullet.indent).IsChain
      fun before n => n ≤ before + 1 := by
  induction lines generalizing next with
  | nil => exact .nil
  | cons l rest ih =>
    rw [bulletsFrom]
    generalize (l.heading.level - smallest).toNat = indent
    have hplaces : ((List.range' next (indent - next)).map Bullet.placeholder).map Bullet.indent =
        List.range' next (indent - next) := by
      rw [List.map_map]
      exact List.map_id _
    rw [List.map_append, hplaces, List.map_cons, List.isChain_append, List.isChain_cons]
    refine ⟨?_, ⟨head?_indents_le, ih (indent + 1)⟩, ?_⟩
    · exact (List.isChain_range' next _ 1).imp fun _ _ h => Nat.le_of_eq h
    · -- The last place is one step in front of the heading.
      intro before hbefore n hn
      rw [List.getLast?_range'] at hbefore
      obtain rfl : indent = n := Option.mem_some_iff.mp hn
      split at hbefore
      · cases hbefore
      · have hlast := Option.mem_some_iff.mp hbefore
        omega

/-- Bullets are an outline if the first heading needs no place kept in front of it. -/
theorem isOutline_bullets_iff (lines : List ContentsLine) :
    IsOutline ((bullets lines).map Bullet.indent) ↔
      ∀ l ∈ lines.head?, l.heading.level = smallestOf lines := by
  rw [IsOutline, bullets, and_iff_left (isChain_indents _ 1 lines)]
  cases lines with
  | nil => exact ⟨fun _ => nofun, fun _ => nofun⟩
  | cons l rest =>
    have hleast : smallestOf (l :: rest) ≤ l.heading.level := smallestOf_le List.mem_cons_self
    simp only [head?_indents, List.head?_cons, Option.mem_some_iff, forall_eq']
    omega

/-- A table of contents is written as its bullets, of which the first is indented at most one step
and every other one at most one step further than the bullet before it. They are an outline exactly
if the first heading listed has the smallest level. -/
theorem outline_nested_iff (o : ListingOptions) (pages : List Page) :
    let found := contentsLines o pages
    let indents := (bullets found).map Bullet.indent
    (∀ r expand c, draftNode r expand c (contentsBlock o pages) =
        if found.isEmpty then markup "\n"
        else inOrder ((bullets found).map (Bullet.draft r expand c))) ∧
      (∀ n ∈ indents.head?, n ≤ 1) ∧ (indents.IsChain fun before n => n ≤ before + 1) ∧
      (IsOutline indents ↔ ∀ l ∈ found.head?, l.heading.level = smallestOf found) := by
  intro found indents
  exact ⟨fun r expand c => draftNode_contentsBlock r expand c o pages, head?_indents_le,
    isChain_indents _ 1 found, isOutline_bullets_iff found⟩

/-- The first bullet is indented where a subsection is listed before the first section. -/
theorem first_bullet_indented :
    let r : Renderer := ⟨⟨"", false, [], []⟩, fun _ => none, none⟩
    let c := Context.atPage "index.md" 1 []
    (r.node c (contentsBlock ⟨[], 2⟩ [slopedPage])).text =
        "  - #link(label(\"notes.md#Setup\"))[Setup]\n" ++
          "- #link(label(\"notes.md#Guide\"))[Guide]\n" ∧
      (bullets (contentsLines ⟨[], 2⟩ [slopedPage])).map Bullet.indent = [1, 0] ∧
      ¬IsOutline ((bullets (contentsLines ⟨[], 2⟩ [slopedPage])).map Bullet.indent) := by
  have hindents : (bullets (contentsLines ⟨[], 2⟩ [slopedPage])).map Bullet.indent = [1, 0] := by
    decide +kernel
  refine ⟨by decide +kernel, hindents, fun h => ?_⟩
  rw [hindents] at h
  exact absurd (h.1 1 rfl) Nat.one_ne_zero

end Folio
