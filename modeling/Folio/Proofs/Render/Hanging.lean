import Folio.Proofs.Render.Items

/-!
# What stays inside of an item

A list item ends at the first row that is indented less than its content. The first row of every
part of an item is indented as the item asks for, and so are the items in it. Only the rows that a
part starts on its own, behind a hard break or for a block of code, may leave the item: the rows of
an item stay inside of it exactly if those of its parts do.
-/

namespace Folio

open Draft Text

/-- Whether a row is empty or indented like the content of an item at a depth. -/
def StaysIn (depth : Nat) (row : List Char) : Prop :=
  row = [] ∨ List.replicate (2 * (depth + 1)) ' ' <+: row

instance (depth : Nat) (row : List Char) : Decidable (StaysIn depth row) :=
  inferInstanceAs (Decidable (_ ∨ _))

/-- A row that is indented at least as far stays inside. -/
theorem staysIn_of_le {depth n : Nat} (h : 2 * (depth + 1) ≤ n) (row : List Char) :
    StaysIn depth (List.replicate n ' ' ++ row) := by
  obtain ⟨k, rfl⟩ := Nat.exists_eq_add_of_le h
  rw [List.replicate_add, List.append_assoc]
  exact .inr (List.prefix_append _ _)

namespace Node

mutual

/-- The parts of items that are no lists, those of the items in them included. -/
def bodiesAt : List Node → List Node
  | [] => []
  | item :: rest => bodiesFrom item ++ bodiesAt rest

/-- The parts of an item and of those in it. -/
def bodiesFrom : Node → List Node
  | .listItem parts => bodiesIn parts
  | _ => []

/-- The parts that are no lists, and those of the items in the lists. -/
def bodiesIn : List Node → List Node
  | [] => []
  | n :: rest => bodiesOf n ++ bodiesIn rest

/-- A part that is no list, or the parts of the items in it. -/
def bodiesOf : Node → List Node
  | .list _ items => bodiesAt items
  | n => [n]

end

/-- Whether a part stays inside of an item at a depth: no row of a paragraph but the first one is
indented too little, and there is no block of code. -/
def KeepsIn (depth : Nat) : Node → Prop
  | paragraph cs => ∀ row ∈ (rows (phrases cs)).tail, StaysIn depth row
  | _ => False

instance (depth : Nat) (n : Node) : Decidable (n.KeepsIn depth) := by
  cases n with
  | paragraph cs => exact inferInstanceAs (Decidable (∀ row ∈ (rows (phrases cs)).tail, _))
  | _ => exact .isFalse id

variable {p : Node → Prop} {body : Node → List (List Char)} {n : Node} {limit : Nat}

theorem bodiesOf_of_not_isList (h : n.isList = false) : bodiesOf n = [n] := by
  cases n <;> first | rfl | cases h

mutual

/-- The parts of items have the property. -/
theorem ItemsHold.bodies {items : List Node} : ItemsHold p items → ∀ n ∈ bodiesAt items, p n
  | .nil => nofun
  | .item hparts hrest => List.forall_mem_append.mpr ⟨hparts.bodies, hrest.bodies⟩

theorem PartsHold.bodies {parts : List Node} : PartsHold p parts → ∀ n ∈ bodiesIn parts, p n
  | .nil => nofun
  | .list _ hitems hrest => List.forall_mem_append.mpr ⟨hitems.bodies, hrest.bodies⟩
  | .part hlist hn hrest => by
    rw [bodiesIn, bodiesOf_of_not_isList hlist]
    exact List.forall_mem_append.mpr ⟨List.forall_mem_singleton.mpr hn, hrest.bodies⟩

end

/-! ### Rows of parts -/

/-- Whether the rows of a part behind the first one stay inside of an item at a depth. -/
def TailStaysIn (body : Node → List (List Char)) (limit : Nat) (n : Node) : Prop :=
  ∀ row ∈ (body n).tail, StaysIn limit row

/-- The first row of a further part stays inside. -/
theorem staysIn_rowsOf_iff {depth : Nat} (hlist : n.isList = false) (hdepth : limit ≤ depth) :
    (∀ row ∈ rowsOf body depth true n, StaysIn limit row) ↔ TailStaysIn body limit n := by
  rw [rowsOf_of_not_isList hlist, if_pos rfl, toList_indentation, TailStaysIn]
  cases body n with
  | nil => exact Iff.rfl
  | cons first others =>
    rw [List.modifyHead_cons, List.forall_mem_cons, List.tail_cons]
    exact and_iff_right (staysIn_of_le (by omega) first)

/-- The first row of further parts stays inside anyway. -/
theorem staysIn_tail_iff {depth : Nat} {parts : List Node}
    (h : PartsHold (fun n => body n ≠ []) parts) (hdepth : limit ≤ depth) :
    (∀ row ∈ (partRows body depth true parts).tail, StaysIn limit row) ↔
      ∀ row ∈ partRows body depth true parts, StaysIn limit row := by
  cases h with
  | nil => exact Iff.rfl
  | list => exact (List.forall_mem_cons.trans (and_iff_right (.inl rfl))).symm
  | @part n rest hlist hn =>
    obtain ⟨first, others, hbody⟩ := List.exists_cons_of_ne_nil hn
    rw [partRows, rowsOf_of_not_isList hlist, if_pos rfl, toList_indentation, hbody,
      List.modifyHead_cons, List.cons_append, List.tail_cons, List.forall_mem_cons]
    exact (and_iff_right (staysIn_of_le (by omega) first)).symm

mutual

/-- The rows of items further inside stay inside exactly if those of their parts do. -/
theorem staysIn_itemRows_iff {depth : Nat} (ordered : Bool) {items : List Node}
    (hdepth : limit < depth) : ItemsHold (fun n => body n ≠ []) items →
    ((∀ row ∈ itemRows body depth ordered items, StaysIn limit row) ↔
      ∀ n ∈ bodiesAt items, TailStaysIn body limit n)
  | .nil => iff_of_true nofun nofun
  | @ItemsHold.item _ parts rest hparts hrest => by
    obtain ⟨first, hrows⟩ := rowsFrom_eq body depth ordered hparts
    have hmarker : StaysIn limit ((listMarker depth ordered).toList ++ first) := by
      rw [toList_listMarker, List.append_assoc]
      exact staysIn_of_le (by omega) _
    rw [itemRows, bodiesAt, bodiesFrom, List.forall_mem_append, List.forall_mem_append, hrows,
      List.forall_mem_cons, and_iff_right hmarker, staysIn_tail_iff hparts (Nat.le_of_lt hdepth),
      staysIn_partRows_iff (Nat.le_of_lt hdepth) hparts, staysIn_itemRows_iff ordered hdepth hrest]

/-- The rows of further parts stay inside exactly if those that the parts start on their own do. -/
theorem staysIn_partRows_iff {depth : Nat} {parts : List Node} (hdepth : limit ≤ depth) :
    PartsHold (fun n => body n ≠ []) parts →
    ((∀ row ∈ partRows body depth true parts, StaysIn limit row) ↔
      ∀ n ∈ bodiesIn parts, TailStaysIn body limit n)
  | .nil => iff_of_true nofun nofun
  | @PartsHold.list _ ordered items rest hitems hrest => by
    have haround : (∀ row ∈ rowsOf body depth true (.list ordered items), StaysIn limit row) ↔
        ∀ row ∈ itemRows body (depth + 1) ordered items, StaysIn limit row := by
      rw [rowsOf, List.forall_mem_cons, List.forall_mem_append, List.forall_mem_singleton]
      exact (and_iff_right (.inl rfl)).trans (and_iff_left (.inl rfl))
    rw [partRows, bodiesIn, bodiesOf, List.forall_mem_append, List.forall_mem_append, haround,
      staysIn_itemRows_iff ordered (by omega) hitems, staysIn_partRows_iff hdepth hrest]
  | @PartsHold.part _ n rest hlist hn hrest => by
    rw [partRows, bodiesIn, bodiesOf_of_not_isList hlist, List.forall_mem_append,
      List.forall_mem_append, List.forall_mem_singleton, staysIn_rowsOf_iff hlist hdepth,
      staysIn_partRows_iff hdepth hrest]

end

/-! ### Paragraphs and code -/

/-- The second row of a block of code is not indented, so that it leaves any item. -/
theorem not_tailStaysIn_codeBlock (lexers : Language.Lexers) (limit : Nat) (source info : String) :
    ¬TailStaysIn (bodyRows lexers) limit (.codeBlock source info) := by
  intro h
  obtain ⟨first, rest, hfeed, hspace, -, hrows⟩ := exists_rows_codeBlock lexers source info
  obtain ⟨second, others, hsecond⟩ := exists_splitAt_cons hfeed rest
  have hstays : StaysIn limit (first :: second) := by
    refine h _ ?_
    rw [hrows, List.tail_cons, hsecond]
    exact List.mem_cons_self
  rcases hstays with hempty | hindented
  · cases hempty
  · rw [Nat.mul_succ, List.replicate_succ, List.cons_prefix_cons] at hindented
    exact hspace hindented.1.symm

/-- A paragraph or a block of code stays inside exactly if the rows that it starts on its own do. -/
theorem tailStaysIn_bodyRows_iff (lexers : Language.Lexers) (limit : Nat)
    (h : n.isItemBody = true) :
    TailStaysIn (bodyRows lexers) limit n ↔ n.KeepsIn limit := by
  cases n with
  | paragraph cs => exact Iff.rfl
  | codeBlock source info =>
    exact iff_of_false (not_tailStaysIn_codeBlock lexers limit source info) id
  | _ => cases h

/-- A paragraph of text and code without line feeds and of weak breaks is a single row, which stays
inside. -/
theorem keepsIn_of_feed_not_mem (limit : Nat) {cs : List Node}
    (h : ∀ n ∈ cs, '\n' ∉ n.phrase.toList) : KeepsIn limit (.paragraph cs) := by
  have hfeed : '\n' ∉ (phrases cs).toList := by
    intro hmem
    obtain ⟨n, hn, hphrase⟩ : ∃ n ∈ cs, '\n' ∈ n.phrase.toList := by simpa [phrases] using hmem
    exact h n hn hphrase
  rw [KeepsIn, rows, splitAt_of_not_mem hfeed]
  exact fun _ hrow => absurd hrow List.not_mem_nil

end Node

/-! ### Lists -/

namespace Item

variable {r : Renderer} {c : Context} {ordered : Bool} {items : List Node} {e : Item}

/-- Whether the rows behind the marker of an item stay inside of the item. -/
def Hangs (r : Renderer) (c : Context) (e : Item) : Prop :=
  ∀ row ∈ (Text.rows (e.draft r c).text).tail, StaysIn e.depth row

instance (r : Renderer) (c : Context) (e : Item) : Decidable (e.Hangs r c) :=
  inferInstanceAs (Decidable (∀ row ∈ (Text.rows (e.draft r c).text).tail, _))

/-- An item hangs exactly if every part of it and of the items in it stays inside. -/
theorem hangs_iff (h : Node.ItemsHold (fun n => n.isItemBody = true) items)
    (he : e ∈ Node.itemsAt 0 ordered items) :
    e.Hangs r c ↔ ∀ n ∈ Node.bodiesIn e.parts, n.KeepsIn e.depth := by
  have hparts := h.parts he
  have hne : Node.PartsHold (fun n => Node.bodyRows r.lexers n ≠ []) e.parts :=
    hparts.imp fun n hn => Node.bodyRows_ne_nil r.lexers hn
  obtain ⟨first, hrows, -⟩ := exists_rows (r := r) (c := c)
    (h.imp fun n hn => Node.isWritten_of_isItemBody _ _ rfl hn) he
  rw [Hangs, hrows, List.cons_append, List.tail_cons, List.forall_mem_append,
    List.forall_mem_singleton, Node.staysIn_tail_iff hne (Nat.le_refl _), and_iff_left (.inl rfl),
    Node.staysIn_partRows_iff (Nat.le_refl _) hne]
  exact forall₂_congr fun n hn => Node.tailStaysIn_bodyRows_iff _ _ (hparts.bodies n hn)

end Item

namespace Node

/-- A list of items that hold paragraphs of text, code and line breaks, blocks of code and such
lists is written without a fault. The rows of an item follow each other, the first of them starts
with its marker, and the others stay inside of the item exactly if no paragraph in it starts a row
with too little indentation and no block of code is in it. -/
theorem items_hang_iff (r : Renderer) (c : Context) (ordered : Bool) {items : List Node}
    (h : ItemsHold (fun n => n.isItemBody = true) items) :
    let written := r.node c (.list ordered items)
    written.fault = none ∧ ∀ e ∈ itemsAt 0 ordered items,
      (∃ first others, rows (e.draft r c).text = (first :: others) ++ [[]] ∧
        (listMarker e.depth e.ordered).toList <+: first ∧
        first :: others <:+: rows written.text) ∧
      (e.Hangs r c ↔ ∀ n ∈ bodiesIn e.parts, n.KeepsIn e.depth) := by
  have hwritten : ItemsHold
      (IsWritten r (r.draftUpTo c.notes.length) c.block (bodyRows r.lexers)) items :=
    h.imp fun n hn => isWritten_of_isItemBody _ _ rfl hn
  refine ⟨(isRows_list ordered hwritten).fault, fun e he => ⟨?_, Item.hangs_iff h he⟩⟩
  obtain ⟨first, hitem⟩ := Item.exists_rows hwritten he
  exact ⟨first, _, hitem⟩

/-- The items of a list with a weak break, code and a list inside the first item, and a hard break
in the second one. -/
def brokenSample : List Node := [
  .listItem [.paragraph [.text "a", .softBreak, .code "x"],
    .list true [.listItem [.paragraph [.text "b"]]], .paragraph [.text "c"]],
  .listItem [.paragraph [.text "d", .lineBreak, .text "e"]]]

/-- The first item of this list hangs and the second one does not. -/
theorem items_hang_iff_brokenSample :
    let r : Renderer := ⟨⟨"", false, [], []⟩, fun _ => none, none⟩
    let c := Context.atPage "guide.md" 1 []
    let first : Item := ⟨0, false, [.paragraph [.text "a", .softBreak, .code "x"],
      .list true [.listItem [.paragraph [.text "b"]]], .paragraph [.text "c"]]⟩
    let second : Item := ⟨0, false, [.paragraph [.text "d", .lineBreak, .text "e"]]⟩
    first.Hangs r c ∧ ¬second.Hangs r c := by
  have hinner : ItemsHold (fun n => n.isItemBody = true) [.listItem [.paragraph [.text "b"]]] :=
    .item (.part rfl rfl .nil) .nil
  have hsample : ItemsHold (fun n => n.isItemBody = true) brokenSample :=
    .item (.part rfl rfl (.list true hinner (.part rfl rfl .nil))) (.item (.part rfl rfl .nil) .nil)
  obtain ⟨-, hitems⟩ := items_hang_iff ⟨⟨"", false, [], []⟩, fun _ => none, none⟩
    (Context.atPage "guide.md" 1 []) false hsample
  refine ⟨(hitems _ List.mem_cons_self).2.mpr ?_, fun hhangs => ?_⟩
  · simp only [bodiesIn, bodiesOf, bodiesAt, bodiesFrom, List.cons_append, List.nil_append,
      List.forall_mem_cons]
    exact ⟨by decide, by decide, by decide, nofun⟩
  · have hkeeps := (hitems ⟨0, false, [.paragraph [.text "d", .lineBreak, .text "e"]]⟩
      (List.mem_cons_of_mem _ (List.mem_cons_of_mem _ List.mem_cons_self))).2.mp hhangs
    exact absurd (hkeeps _ List.mem_cons_self) (by decide)

/-- Behind a hard break the text of an item starts at the margin, so that it leaves the item. -/
theorem item_left_at_hard_break :
    let r : Renderer := ⟨⟨"", false, [], []⟩, fun _ => none, none⟩
    let c := Context.atPage "guide.md" 1 []
    let item : Item := ⟨0, false, [.paragraph [.text "a", .lineBreak, .text "b"]]⟩
    (r.node c (.list false [.listItem item.parts])).text = "\n- a#linebreak()\nb\n\n" ∧
      rows (item.draft r c).text = ["- a#linebreak()".toList, ['b'], []] ∧ ¬item.Hangs r c :=
  ⟨rfl, rfl, by decide⟩

/-- Without blocks of code, hard breaks and line feeds every item hangs. -/
theorem items_hang {r : Renderer} {c : Context} {ordered : Bool} {items : List Node} {e : Item}
    (h : ItemsHold (fun n => ∃ cs, n = .paragraph cs ∧ cs.all isPhrase = true ∧
      ∀ m ∈ cs, '\n' ∉ m.phrase.toList) items)
    (he : e ∈ itemsAt 0 ordered items) : e.Hangs r c := by
  have hbody : ItemsHold (fun n => n.isItemBody = true) items :=
    h.imp fun n ⟨_, hn, hphrases, _⟩ => hn ▸ hphrases
  rw [Item.hangs_iff hbody he]
  intro n hn
  obtain ⟨cs, rfl, -, hfeed⟩ := (h.parts he).bodies n hn
  exact keepsIn_of_feed_not_mem e.depth hfeed

end Node

end Folio
