import Folio.Proofs.Render.Items
import Mathlib.Data.Finset.Card
import Mathlib.Data.Finset.Image

/-!
# Markers of lists

The rows of a list that start with a marker are the first rows of its items, in order: each is
indented by two spaces for every list around its own and has the sign of its own list. So the
markers of a list show what it is made of, and lists within lists to some depth take as many
different indentations.
-/

namespace Folio

open Draft Markup Text

/-- The marker that a row starts with: how far it is indented, and its sign. -/
def marker? (row : List Char) : Option (Nat × Char) :=
  match row.dropWhile (· = ' ') with
  | sign :: ' ' :: _ =>
    if sign = '-' ∨ sign = '+' then some ((row.takeWhile (· = ' ')).length, sign) else none
  | _ => none

/-- The marker of an item. -/
def Item.marker (e : Item) : Nat × Char := (2 * e.depth, if e.ordered then '+' else '-')

/-- Whether a row begins neither with a space nor with the sign of a marker. -/
def IsPlainRow (row : List Char) : Prop := ∀ c ∈ row.head?, c ≠ ' ' ∧ c ≠ '-' ∧ c ≠ '+'

instance : (row : List Char) → Decidable (IsPlainRow row)
  | [] => .isTrue nofun
  | c :: _ => decidable_of_iff (c ≠ ' ' ∧ c ≠ '-' ∧ c ≠ '+')
    ⟨fun h _ hd => Option.some.inj hd ▸ h, fun h => h c rfl⟩

theorem isSpace_of_mem_replicate (n : Nat) :
    ∀ c ∈ List.replicate n ' ', decide (c = ' ') = true :=
  fun _ hc => decide_eq_true (List.eq_of_mem_replicate hc)

theorem marker?_listMarker (depth : Nat) (ordered : Bool) (row : List Char) :
    marker? ((listMarker depth ordered).toList ++ row) =
      some (Item.marker ⟨depth, ordered, []⟩) := by
  have hspaces := isSpace_of_mem_replicate (2 * depth)
  rw [toList_listMarker, List.append_assoc, marker?, List.dropWhile_append_of_pos hspaces,
    List.takeWhile_append_of_pos hspaces]
  cases ordered <;> simp [Item.marker]

/-- A plain row has no marker, however far it is indented. -/
theorem marker?_indented {row : List Char} (h : IsPlainRow row) (n : Nat) :
    marker? (List.replicate n ' ' ++ row) = none := by
  rw [marker?, List.dropWhile_append_of_pos (isSpace_of_mem_replicate n)]
  cases row with
  | nil => rfl
  | cons c rest =>
    obtain ⟨hspace, hminus, hplus⟩ := h c rfl
    rw [List.dropWhile_cons_of_neg (by simpa using hspace)]
    split
    · next heq =>
      obtain ⟨rfl, -⟩ := List.cons.inj heq
      exact if_neg (not_or.mpr ⟨hminus, hplus⟩)
    · rfl

namespace Node

/-- Whether a node is a paragraph of texts without line feeds that together begin neither with a
space nor with the sign of a marker. -/
def IsPlainParagraph (n : Node) : Prop :=
  ∃ texts : List String, n = .paragraph (texts.map .text) ∧ (∀ s ∈ texts, '\n' ∉ s.toList) ∧
    IsPlainRow (String.join texts).toList

mutual

/-- How many lists with items are nested in each other, from a list with certain items on. -/
def levels : List Node → Nat
  | [] => 0
  | item :: rest => max (levelsFrom item) (levels rest)

/-- How many levels there are from an item on. -/
def levelsFrom : Node → Nat
  | .listItem parts => levelsIn parts + 1
  | _ => 0

/-- How many levels there are in the parts of an item. -/
def levelsIn : List Node → Nat
  | [] => 0
  | n :: rest => max (levelsOf n) (levelsIn rest)

/-- How many levels there are in a part. -/
def levelsOf : Node → Nat
  | .list _ items => levels items
  | _ => 0

end

theorem levelsOf_of_not_isList {n : Node} (h : n.isList = false) : levelsOf n = 0 := by
  cases n <;> first | rfl | cases h

/-! ### Paragraphs -/

theorem toList_phrases_texts (texts : List String) :
    (phrases (texts.map .text)).toList = (String.join texts).toList.flatMap contentChar := by
  induction texts with
  | nil => rfl
  | cons s rest ih =>
    have hcons : phrases ((s :: rest).map .text) =
        escapeContent s ++ phrases (rest.map .text) := by
      rw [phrases, List.map_cons, List.map_cons, String.join_cons, phrases, phrase]
    rw [hcons, String.toList_append, ih, String.join_cons, String.toList_append,
      List.flatMap_append, escapeContent, String.toList_ofList]

/-- An escaped character is the character itself, perhaps behind a backslash. -/
theorem eq_of_mem_contentChar {c d : Char} (h : d ∈ contentChar c) : d = '\\' ∨ d = c := by
  rw [contentChar] at h
  split at h <;> simp_all

/-- A plain paragraph is written as one plain row. -/
theorem IsPlainParagraph.exists_row {n : Node} (h : n.IsPlainParagraph) (lexers : Language.Lexers) :
    ∃ row, bodyRows lexers n = [row] ∧ IsPlainRow row := by
  obtain ⟨texts, rfl, hfeed, hplain⟩ := h
  refine ⟨(phrases (texts.map .text)).toList, splitAt_of_not_mem ?_, ?_⟩
  · rw [toList_phrases_texts, List.mem_flatMap]
    rintro ⟨c, hc, hchar⟩
    rcases eq_of_mem_contentChar hchar with hslash | rfl
    · exact absurd hslash (by decide)
    · obtain ⟨s, hs, hmem⟩ : ∃ s ∈ texts, '\n' ∈ s.toList := by simpa using hc
      exact hfeed s hs hmem
  · rw [toList_phrases_texts]
    intro d hd
    cases hjoin : (String.join texts).toList with
    | nil => simp [hjoin] at hd
    | cons c rest =>
      have hfirst : d = '\\' ∨ d = c := by
        rw [hjoin, List.flatMap_cons, contentChar] at hd
        split at hd
        · exact .inl (Option.some.inj hd).symm
        · exact .inr (Option.some.inj hd).symm
      rcases hfirst with rfl | rfl
      · decide
      · exact hplain d (by rw [hjoin]; rfl)

/-! ### Markers -/

variable {body : Node → List (List Char)}

/-- Whether a node has a single row, a plain one. -/
def HasPlainRow (body : Node → List (List Char)) (n : Node) : Prop :=
  ∃ row, body n = [row] ∧ IsPlainRow row

/-- No marker starts the row of a further part. -/
theorem marker?_head_partRows {depth : Nat} {parts : List Node}
    (h : PartsHold (HasPlainRow body) parts) :
    ∀ row ∈ (partRows body depth true parts).head?, marker? row = none := by
  intro row hrow
  cases h with
  | nil => cases hrow
  | list =>
    obtain rfl := Option.some.inj hrow
    rfl
  | part hlist hn =>
    obtain ⟨plain, hbody, hplain⟩ := hn
    rw [partRows, rowsOf_of_not_isList hlist, hbody] at hrow
    obtain rfl := Option.some.inj hrow
    rw [if_pos rfl, toList_indentation]
    exact marker?_indented hplain _

/-- What the first element does not give is given by the others. -/
theorem filterMap_tail {α β : Type} {f : α → Option β} {l : List α}
    (h : ∀ a ∈ l.head?, f a = none) : l.tail.filterMap f = l.filterMap f := by
  cases l with
  | nil => rfl
  | cons a l => rw [List.tail_cons, List.filterMap_cons_none (h a rfl)]

mutual

/-- The markers of the rows of a list are those of its items. -/
theorem markers_itemRows {depth : Nat} {ordered : Bool} {items : List Node} :
    ItemsHold (HasPlainRow body) items →
    (itemRows body depth ordered items).filterMap marker? =
      (itemsAt depth ordered items).map Item.marker
  | .nil => rfl
  | @ItemsHold.item _ parts rest hparts hrest => by
    obtain ⟨first, hrows⟩ := rowsFrom_eq body depth ordered hparts
    rw [itemRows, List.filterMap_append, markers_itemRows hrest, hrows,
      List.filterMap_cons_some (marker?_listMarker depth ordered first),
      filterMap_tail (marker?_head_partRows hparts), markers_partRows hparts, itemsAt,
      itemsFrom, List.map_append, List.map_cons]
    rfl

/-- The markers of the rows of the parts of an item are those of the items in it. -/
theorem markers_partRows {depth : Nat} {parts : List Node} :
    PartsHold (HasPlainRow body) parts →
    (partRows body depth true parts).filterMap marker? = (itemsIn depth parts).map Item.marker
  | .nil => rfl
  | @PartsHold.list _ ordered items rest hitems hrest => by
    have hempty : marker? [] = none := rfl
    rw [partRows, rowsOf, List.filterMap_append, List.filterMap_cons_none hempty,
      List.filterMap_append, List.filterMap_cons_none hempty, List.filterMap_nil, List.append_nil,
      markers_itemRows hitems, markers_partRows hrest, itemsIn, itemsOf, List.map_append]
  | @PartsHold.part _ n rest hlist hn hrest => by
    obtain ⟨row, hbody, hplain⟩ := hn
    have hnone := marker?_indented hplain (2 * (depth + 1))
    rw [partRows, List.filterMap_append, markers_partRows hrest, rowsOf_of_not_isList hlist, hbody,
      itemsIn, itemsOf_of_not_isList hlist, if_pos rfl, List.modifyHead_cons, toList_indentation,
      List.filterMap_cons_none hnone]
    rfl

end

/-! ### Levels -/

variable {p : Node → Prop}

mutual

/-- There are items at every level of a list and at no other one. -/
theorem exists_depth_iff (k depth : Nat) (ordered : Bool) {items : List Node} :
    ItemsHold p items →
    ((∃ e ∈ itemsAt depth ordered items, e.depth = k) ↔ depth ≤ k ∧ k < depth + levels items)
  | .nil => by simp [itemsAt, levels]
  | @ItemsHold.item _ parts rest hparts hrest => by
    have hsplit : (∃ e ∈ itemsAt depth ordered (.listItem parts :: rest), e.depth = k) ↔
        depth = k ∨ (∃ e ∈ itemsIn depth parts, e.depth = k) ∨
          ∃ e ∈ itemsAt depth ordered rest, e.depth = k := by
      simp [itemsAt, itemsFrom, or_and_right, exists_or]
    rw [hsplit, exists_depth_in_iff k depth hparts, exists_depth_iff k depth ordered hrest, levels,
      levelsFrom]
    omega

/-- There are items at every level of the parts of an item and at no other one. -/
theorem exists_depth_in_iff (k depth : Nat) {parts : List Node} : PartsHold p parts →
    ((∃ e ∈ itemsIn depth parts, e.depth = k) ↔
      depth + 1 ≤ k ∧ k < depth + 1 + levelsIn parts)
  | .nil => by simp [itemsIn, levelsIn]
  | @PartsHold.list _ ordered items rest hitems hrest => by
    have hsplit : (∃ e ∈ itemsIn depth (.list ordered items :: rest), e.depth = k) ↔
        (∃ e ∈ itemsAt (depth + 1) ordered items, e.depth = k) ∨
          ∃ e ∈ itemsIn depth rest, e.depth = k := by
      simp [itemsIn, itemsOf, or_and_right, exists_or]
    rw [hsplit, exists_depth_iff k (depth + 1) ordered hitems, exists_depth_in_iff k depth hrest,
      levelsIn, levelsOf]
    omega
  | @PartsHold.part _ n rest hlist hn hrest => by
    rw [itemsIn, itemsOf_of_not_isList hlist, List.nil_append, levelsIn,
      levelsOf_of_not_isList hlist, Nat.zero_max]
    exact exists_depth_in_iff k depth hrest

end

/-! ### Lists -/

/-- A list of items that hold plain paragraphs and such lists, in any order, is written without a
fault, and the rows that start with a marker are those of its items, in order. The rows of an item
follow each other, and the first of them starts with its marker. The indentations of the markers are
as many as there are levels, from none on in steps of two spaces. -/
theorem markers_mirror_list (r : Renderer) (c : Context) (ordered : Bool) {items : List Node}
    (h : ItemsHold IsPlainParagraph items) :
    let written := r.node c (.list ordered items)
    let markers := (rows written.text).filterMap marker?
    let indentations := (markers.map Prod.fst).toFinset
    written.fault = none ∧ markers = (itemsAt 0 ordered items).map Item.marker ∧
      (∀ e ∈ itemsAt 0 ordered items, ∃ first others,
        rows (e.draft r c).text = first :: others ++ [[]] ∧
          (listMarker e.depth e.ordered).toList <+: first ∧
          first :: others <:+: rows written.text) ∧
      indentations = (Finset.range (levels items)).image (2 * ·) ∧
      indentations.card = levels items := by
  have hwritten : ItemsHold
      (IsWritten r (r.draftUpTo c.notes.length) c.block (bodyRows r.lexers)) items := by
    refine h.imp fun n hn => isWritten_of_isItemBody _ _ rfl ?_
    obtain ⟨texts, rfl, -⟩ := hn
    simp [isItemBody, isPhrase]
  have hplain : ItemsHold (HasPlainRow (bodyRows r.lexers)) items :=
    h.imp fun n hn => hn.exists_row r.lexers
  have hlist := isRows_list ordered hwritten
  have hmarkers : (rows (r.node c (.list ordered items)).text).filterMap marker? =
      (itemsAt 0 ordered items).map Item.marker := by
    have hempty : marker? [] = none := rfl
    rw [hlist.rows_text, List.cons_append, List.filterMap_cons_none hempty, List.append_assoc,
      List.filterMap_append, markers_itemRows hplain]
    exact List.append_nil _
  have hindentations : (((itemsAt 0 ordered items).map Item.marker).map Prod.fst).toFinset =
      (Finset.range (levels items)).image (2 * ·) := by
    ext k
    have hdepths : k ∈ (((itemsAt 0 ordered items).map Item.marker).map Prod.fst).toFinset ↔
        ∃ d, (∃ e ∈ itemsAt 0 ordered items, e.depth = d) ∧ 2 * d = k := by
      simp [Item.marker]
    rw [hdepths, Finset.mem_image]
    refine exists_congr fun d => and_congr_left fun _ => ?_
    rw [exists_depth_iff d 0 ordered h, Finset.mem_range]
    omega
  refine ⟨hlist.fault, hmarkers, ?_, hmarkers ▸ hindentations, ?_⟩
  · intro e he
    obtain ⟨first, hitem⟩ := Item.exists_rows hwritten he
    exact ⟨first, _, hitem⟩
  · have hdouble : Function.Injective fun d : Nat => 2 * d :=
      fun _ _ heq => Nat.eq_of_mul_eq_mul_left (by decide) heq
    rw [hmarkers, hindentations, Finset.card_image_of_injective _ hdouble, Finset.card_range]

/-- The items of a list with two levels below it, an item without parts, and an item that begins
with a list. -/
def nestedSample : List Node := [
  .listItem [.paragraph [.text "a"],
    .list true [.listItem [], .listItem [.list false [.listItem [.paragraph [.text "x - y"]]]]],
    .paragraph [.text "b", .text "- c"]],
  .listItem [.paragraph [.text "#d"]]]

/-- All five items of the list have their markers, at three indentations. -/
theorem markers_mirror_list_nestedSample :
    let r : Renderer := ⟨⟨"", false, [], []⟩, fun _ => none, none⟩
    let c := Context.atPage "guide.md" 1 []
    let markers := (rows (r.node c (.list false nestedSample)).text).filterMap marker?
    markers = [(0, '-'), (2, '+'), (2, '+'), (4, '-'), (0, '-')] ∧
      (markers.map Prod.fst).toFinset.card = 3 := by
  have hparagraph (texts : List String) (hfeed : ∀ s ∈ texts, '\n' ∉ s.toList)
      (hplain : IsPlainRow (String.join texts).toList) :
      IsPlainParagraph (.paragraph (texts.map .text)) := ⟨texts, rfl, hfeed, hplain⟩
  have hinner : ItemsHold IsPlainParagraph [.listItem [.paragraph [.text "x - y"]]] :=
    .item (.part rfl (hparagraph ["x - y"] (by decide) (by decide)) .nil) .nil
  have hsample : ItemsHold IsPlainParagraph nestedSample :=
    .item (.part rfl (hparagraph ["a"] (by decide) (by decide))
      (.list true (.item .nil (.item (.list false hinner .nil) .nil))
        (.part rfl (hparagraph ["b", "- c"] (by decide) (by decide)) .nil)))
      (.item (.part rfl (hparagraph ["#d"] (by decide) (by decide)) .nil) .nil)
  obtain ⟨-, hmarkers, -, -, hcard⟩ :=
    markers_mirror_list ⟨⟨"", false, [], []⟩, fun _ => none, none⟩ (Context.atPage "guide.md" 1 [])
      false hsample
  exact ⟨hmarkers, hcard⟩

end Node

end Folio
