import Folio.Proofs.Draft.InOrder
import Folio.Proofs.Listing.Outline
import Folio.Render

/-!
# Entries of an index

An index has one entry for every documented binding on the covered pages. The entries are sorted by
the names in lower case, and those whose names differ in case only keep the order of the pages. The
link of an entry leads to the label that the documentation of the binding gets where it stands,
whether the binding names its page or belongs to the page that it stands on.
-/

namespace Folio

open Draft Node Text

/-- A documented binding and the page that it stands on. -/
structure BindingLine where
  page : String
  binding : Binding

namespace BindingLine

/-- The name by which a binding is sorted. -/
def key (l : BindingLine) : String := lower l.binding.name

/-- The page that a binding belongs to. -/
def owner (l : BindingLine) : String := if l.binding.page = "" then l.page else l.binding.page

/-- A binding as a line of an index. -/
def line (l : BindingLine) : IndexLine := ⟨l.binding.name, l.owner⟩

/-- The entry of an index for a binding. -/
def entry (l : BindingLine) : Node := .indexEntry l.binding.name l.owner l.binding.name

/-- The label that an entry for a binding links to. -/
def id (labels : Labels) (l : BindingLine) : LabelId := labels.id l.owner l.binding.name

/-- The text of an entry. -/
def written (labels : Labels) (l : BindingLine) : String :=
  "- " ++ (l.id labels).reference ++ "[#raw(" ++ literalText l.binding.name ++ ", block: false)]\n"

end BindingLine

/-- A documented binding as a node of its page. -/
def Binding.node (b : Binding) : Node := .binding b.name b.category b.bodies b.page

/-- The documented bindings on the covered pages, in order. -/
def listedBindings (o : ListingOptions) (pages : List Page) : List BindingLine :=
  (coveredPages o pages).flatMap fun p => (bindingsAll p.contents).map fun b => ⟨p.path, b⟩

/-- The documented bindings on the covered pages as an index lists them. -/
def sortedBindings (o : ListingOptions) (pages : List Page) : List BindingLine :=
  (listedBindings o pages).mergeSort fun a b => a.key ≤ b.key

/-! ### The order of the entries -/

section Sorted

variable {α : Type} (key : α → String)

theorem key_le_trans (a b c : α) (hab : decide (key a ≤ key b) = true)
    (hbc : decide (key b ≤ key c) = true) : decide (key a ≤ key c) = true :=
  decide_eq_true (String.le_trans (of_decide_eq_true hab) (of_decide_eq_true hbc))

theorem key_le_total (a b : α) : (decide (key a ≤ key b) || decide (key b ≤ key a)) = true := by
  simpa only [Bool.or_eq_true, decide_eq_true_eq] using String.le_total (key a) (key b)

theorem pairwise_mergeSort_key (l : List α) :
    (l.mergeSort fun a b => key a ≤ key b).Pairwise fun a b => key a ≤ key b :=
  (List.pairwise_mergeSort (key_le_trans key) (key_le_total key) l).imp of_decide_eq_true

/-- What has the same key keeps its order. -/
theorem filter_mergeSort_key (l : List α) (k : String) :
    ((l.mergeSort fun a b => key a ≤ key b).filter fun a => key a = k) =
      l.filter fun a => key a = k := by
  have hsame : ∀ a ∈ l.filter fun a => key a = k, key a = k :=
    fun a ha => of_decide_eq_true (List.mem_filter.mp ha).2
  have hequal : (l.filter fun a => key a = k).Pairwise
      fun a b => decide (key a ≤ key b) = true := by
    refine List.pairwise_of_forall_mem_list fun a ha b hb => ?_
    rw [hsame a ha, hsame b hb]
    exact decide_eq_true (String.le_refl k)
  have hkept := (List.sublist_mergeSort (key_le_trans key) (key_le_total key) hequal
    List.filter_sublist).filter fun a => key a = k
  have hlength := ((List.mergeSort_perm l fun a b => key a ≤ key b).filter
    fun a => key a = k).length_eq
  simp only [List.filter_filter, Bool.and_self] at hkept
  exact (hkept.eq_of_length hlength.symm).symm

end Sorted

/-- The entries of an index are those for the sorted bindings. -/
theorem indexBlock_eq (o : ListingOptions) (pages : List Page) :
    indexBlock o pages = .index ((sortedBindings o pages).map BindingLine.entry) := by
  have hsorted : (sortedBindings o pages).map BindingLine.line =
      ((listedBindings o pages).map BindingLine.line).mergeSort
        fun a b => lower a.name ≤ lower b.name :=
    List.map_mergeSort fun _ _ _ _ => rfl
  have hlines : indexLines o pages = (sortedBindings o pages).map BindingLine.line := by
    rw [hsorted, listedBindings, List.map_flatMap]
    simp only [List.map_map]
    rfl
  rw [indexBlock, hlines, List.map_map]
  rfl

/-! ### The labels of the entries -/

/-- Code set inline is never a fault, and is written as a call. -/
theorem text_inlineCode (code : String) :
    (inlineCode code).text = "#raw(" ++ literalText code ++ ", block: false)" := by
  rw [inlineCode, text_seq rfl, text_seq rfl, text_markup, literal, text_ofPiece, text_markup,
    Piece.written, String.append_assoc]

/-- What is written for an entry. -/
def BindingLine.draft (labels : Labels) (l : BindingLine) : Draft :=
  markup "- " >> ofPiece (.link (.label (l.id labels))) >> markup "[" >>
    inlineCode l.binding.name >> markup "]\n"

theorem BindingLine.text_draft (labels : Labels) (l : BindingLine) :
    (l.draft labels).text = l.written labels := by
  rw [draft, text_seq rfl, text_seq rfl, text_seq rfl, text_seq rfl, text_inlineCode, text_ofPiece,
    Piece.written_link]
  simp only [text_markup, written, String.append_assoc]
  rfl

/-- Entries for bindings are written one after the other. -/
theorem draftIndex_eq (r : Renderer) (expand : Context → List Node → Draft)
    (lines : List BindingLine) :
    draftIndex r expand (lines.map BindingLine.entry) =
      inOrder (lines.map (BindingLine.draft r.labels)) := by
  induction lines with
  | nil =>
    rw [List.map_nil, draftIndex]
    rfl
  | cons l rest ih =>
    rw [List.map_cons, BindingLine.entry, draftIndex, ih, List.map_cons, inOrder_cons]
    simp only [BindingLine.draft, Draft.seq_assoc]
    rfl

/-- An index of bindings is written without a fault, as its entries. -/
theorem text_index (r : Renderer) (c : Context) (lines : List BindingLine) :
    (r.node c (.index (lines.map BindingLine.entry))).fault = none ∧
      (r.node c (.index (lines.map BindingLine.entry))).text =
        if lines.isEmpty then "\n"
        else "\n\n" ++ String.join (lines.map (BindingLine.written r.labels)) ++ "\n\n" := by
  have hok : (inOrder (lines.map (BindingLine.draft r.labels))).fault = none :=
    fault_inOrder_eq_none.mpr (List.forall_mem_map.mpr fun _ _ => rfl)
  rw [Renderer.node, draftNode, List.isEmpty_map, draftIndex_eq]
  split
  · exact ⟨rfl, text_markup "\n"⟩
  · refine ⟨fault_seq_eq_none.mpr ⟨rfl, fault_seq_eq_none.mpr ⟨hok, rfl⟩⟩, ?_⟩
    rw [text_seq rfl, text_seq hok, text_markup, text_inOrder hok, List.map_map,
      String.append_assoc]
    simp only [Function.comp_def, BindingLine.text_draft]

/-- The documentation of a binding starts with its name and its label. -/
theorem text_binding (r : Renderer) (c : Context) (b : Binding) :
    ∃ after, (r.node c b.node).text = "#raw(" ++ literalText b.name ++ ", block: false) " ++
      (BindingLine.id r.labels ⟨c.page, b⟩).definition ++ after := by
  obtain ⟨rest, hrest⟩ : ∃ rest, r.node c b.node = inlineCode b.name >> markup " " >>
      ofPiece (.anchor (BindingLine.id r.labels ⟨c.page, b⟩)) >> rest := by
    rw [Renderer.node, Binding.node, draftNode, bindingAround]
    simp only [seq_assoc]
    exact ⟨_, rfl⟩
  refine ⟨rest.text, ?_⟩
  rw [hrest, text_seq rfl, text_seq rfl, text_seq rfl, text_inlineCode, text_markup, text_ofPiece,
    Piece.written_anchor]
  have hspace : ", block: false) " = ", block: false)" ++ " " := rfl
  simp only [hspace, String.append_assoc]

/-- The listed bindings are those on the covered pages that have a tree. -/
theorem listedBindings_eq (o : ListingOptions) (pages : List Page) :
    listedBindings o pages = (coveredTrees o pages).flatMap fun p =>
      (bindingsAll p.contents).map fun b => ⟨p.path, b⟩ := by
  refine flatMap_coveredPages (fun p htree => ?_) o pages
  rw [Page.contents_of_tree_eq_none htree]
  rfl

/-- An index has exactly one entry for each documented binding in the trees of the covered pages.
The entries are sorted by the names in lower case, those whose names differ in case only keep their
order, and the link of each leads to the label that the documentation of the binding starts with on
its page. -/
theorem bindings_sorted_and_linked {o : ListingOptions} {content : String} {pages : List Page}
    (ho : ListingOptions.ofText? content = some o)
    (hpages : ∀ p ∈ pages, o.covers p.path → p.isReadable) :
    let found : List BindingLine := (coveredTrees o pages).flatMap fun p =>
      (bindingsAll p.contents).map fun b => ⟨p.path, b⟩
    ∃ sorted : List BindingLine,
      listNode pages (.raw indexFence content) = .ok (.index (sorted.map BindingLine.entry)) ∧
      sorted.Perm found ∧
      (sorted.Pairwise fun a b => lower a.binding.name ≤ lower b.binding.name) ∧
      (∀ k, (sorted.filter fun l => lower l.binding.name = k) =
        found.filter fun l => lower l.binding.name = k) ∧
      (∀ (r : Renderer) (c : Context),
        (r.node c (.index (sorted.map BindingLine.entry))).fault = none ∧
        (r.node c (.index (sorted.map BindingLine.entry))).text =
          if sorted.isEmpty then "\n"
          else "\n\n" ++ String.join (sorted.map (BindingLine.written r.labels)) ++ "\n\n") ∧
      ∀ l ∈ found, ∀ (r : Renderer) (c : Context), c.page = l.page →
        ∃ after, (r.node c l.binding.node).text =
          "#raw(" ++ literalText l.binding.name ++ ", block: false) " ++
            (l.id r.labels).definition ++ after := by
  intro found
  have hfound : found = listedBindings o pages := (listedBindings_eq o pages).symm
  rw [hfound]
  refine ⟨sortedBindings o pages, ?_, List.mergeSort_perm .., pairwise_mergeSort_key _ _,
    filter_mergeSort_key BindingLine.key _, fun r c => text_index r c _, fun l _ r c hc => ?_⟩
  · rw [listNode, if_neg (by decide), if_pos rfl, ← indexBlock_eq]
    exact listing_of_isReadable ho hpages indexBlock
  · have htext := text_binding r c l.binding
    rwa [hc] at htext

/-- Two pages with three documented bindings, two of whose names differ in case only. -/
def documentedPages : List Page := [
  ⟨"shapes.md", some (.document [.binding "Area" "function" [] "", .binding "Add" "type" [] ""]),
    "Shapes", 1⟩,
  ⟨"sums.md", some (.document [.quote [.binding "add" "function" [] "shapes.md"]]), "Sums", 1⟩]

/-- An index of the two pages keeps the order of the names that differ in case only. -/
theorem bindings_sorted_and_linked_documentedPages :
    let names (lines : List BindingLine) := lines.map fun l => (l.page, l.binding.name)
    ∃ sorted : List BindingLine,
      listNode documentedPages (.raw indexFence "") =
        .ok (.index (sorted.map BindingLine.entry)) ∧
      sorted.length = 3 ∧
      names (sorted.filter fun l => lower l.binding.name = "add") =
        [("shapes.md", "Add"), ("sums.md", "add")] := by
  have ho : ListingOptions.ofText? "" = some ⟨[], 2⟩ := by decide +kernel
  have hreadable : ∀ p ∈ documentedPages, p.isReadable = true := by decide
  obtain ⟨sorted, hlisted, hperm, -, hstable, -⟩ :=
    bindings_sorted_and_linked ho fun p hp _ => hreadable p hp
  refine ⟨sorted, hlisted, hperm.length_eq, ?_⟩
  rw [hstable "add"]
  decide +kernel

end Folio
