import Folio.Proofs.Draft.Rows
import Folio.Render

/-!
# Lists row by row

A list is written as whole rows if every part of its items but the lists is. The first row of an
item is its marker with the first row of its first part behind it; a further part starts a row of
its own behind the indentation of the item, and a list in an item stands one step deeper, between
two line feeds. So the rows of an item, with those of the items in it, are rows of the list that
follow each other.
-/

namespace Folio

open Draft Markup Text

/-- An item of a list, so many steps below the outermost list. -/
structure Item where
  depth : Nat
  ordered : Bool
  parts : List Node

namespace Node

/-- Whether a node is a list. -/
def isList : Node → Bool
  | list .. => true
  | _ => false

mutual

/-- Whether nodes are items, and any part of them or of an item in them that is no list has a
property. -/
inductive ItemsHold (p : Node → Prop) : List Node → Prop
  | nil : ItemsHold p []
  | item {parts rest : List Node} (hparts : PartsHold p parts) (hrest : ItemsHold p rest) :
      ItemsHold p (.listItem parts :: rest)

/-- Whether nodes are lists of such items or have the property themselves. -/
inductive PartsHold (p : Node → Prop) : List Node → Prop
  | nil : PartsHold p []
  | list (ordered : Bool) {items rest : List Node} (hitems : ItemsHold p items)
      (hrest : PartsHold p rest) : PartsHold p (.list ordered items :: rest)
  | part {n : Node} {rest : List Node} (hlist : n.isList = false) (hn : p n)
      (hrest : PartsHold p rest) : PartsHold p (n :: rest)

end

mutual

/-- The items of a list, each followed by the items in it. -/
def itemsAt (depth : Nat) (ordered : Bool) : List Node → List Item
  | [] => []
  | item :: rest => itemsFrom depth ordered item ++ itemsAt depth ordered rest

/-- An item followed by the items in it. -/
def itemsFrom (depth : Nat) (ordered : Bool) : Node → List Item
  | .listItem parts => ⟨depth, ordered, parts⟩ :: itemsIn depth parts
  | _ => []

/-- The items of the lists among the parts of an item. -/
def itemsIn (depth : Nat) : List Node → List Item
  | [] => []
  | n :: rest => itemsOf depth n ++ itemsIn depth rest

/-- The items of a part that is a list. -/
def itemsOf (depth : Nat) : Node → List Item
  | .list ordered items => itemsAt (depth + 1) ordered items
  | _ => []

end

/-- Some rows, or an empty one if there are none. -/
def orEmptyRow : List (List Char) → List (List Char)
  | [] => [[]]
  | ls => ls

section Rows

variable (body : Node → List (List Char))

mutual

/-- The rows of items whose parts have certain rows. -/
def itemRows (depth : Nat) (ordered : Bool) : List Node → List (List Char)
  | [] => []
  | item :: rest => rowsFrom depth ordered item ++ itemRows depth ordered rest

/-- The rows of an item. -/
def rowsFrom (depth : Nat) (ordered : Bool) : Node → List (List Char)
  | .listItem parts =>
    (orEmptyRow (partRows depth false parts)).modifyHead ((listMarker depth ordered).toList ++ ·)
  | _ => []

/-- The rows of the parts of an item. -/
def partRows (depth : Nat) (further : Bool) : List Node → List (List Char)
  | [] => []
  | n :: rest => rowsOf depth further n ++ partRows depth true rest

/-- The rows of a part, a list or another one. -/
def rowsOf (depth : Nat) (further : Bool) : Node → List (List Char)
  | .list ordered items => [] :: (itemRows (depth + 1) ordered items ++ [[]])
  | n =>
    (body n).modifyHead ((if further then repeated (depth + 1) "  " else "").toList ++ ·)

end

end Rows

end Node

namespace Item

/-- An item as it is written. -/
def draft (r : Renderer) (c : Context) (item : Item) : Draft :=
  draftItems r (r.draftUpTo c.notes.length) c item.depth (listMarker item.depth item.ordered)
    [.listItem item.parts]

/-- The rows of an item whose parts have certain rows. -/
def rows (body : Node → List (List Char)) (item : Item) : List (List Char) :=
  Node.rowsFrom body item.depth item.ordered (.listItem item.parts)

end Item

/-! ### Markers -/

/-- An indentation consists of spaces. -/
theorem toList_indentation (n : Nat) : (repeated n "  ").toList = List.replicate (2 * n) ' ' := by
  induction n with
  | zero => rfl
  | succ n ih =>
    rw [repeated, String.toList_append, ih, Nat.mul_succ, Nat.add_comm, List.replicate_add]
    rfl

/-- A marker is the indentation, a plus or hyphen, and a space. -/
theorem toList_listMarker (depth : Nat) (ordered : Bool) :
    (listMarker depth ordered).toList =
      List.replicate (2 * depth) ' ' ++ [if ordered then '+' else '-', ' '] := by
  rw [listMarker, String.toList_append, toList_indentation]
  cases ordered <;> rfl

/-- Indentation stays on its line. -/
theorem feed_not_mem_indentation (n : Nat) : '\n' ∉ (repeated n "  ").toList := by
  rw [toList_indentation]
  exact fun h => absurd (List.eq_of_mem_replicate h) (by decide)

/-- A marker stays on its line. -/
theorem feed_not_mem_listMarker (depth : Nat) (ordered : Bool) :
    '\n' ∉ (listMarker depth ordered).toList := by
  rw [listMarker, String.toList_append, List.mem_append, not_or]
  exact ⟨feed_not_mem_indentation depth, by cases ordered <;> decide⟩

namespace Node

variable {p q : Node → Prop} {body : Node → List (List Char)} {n : Node}
  {items parts rest : List Node} {depth : Nat} {ordered further : Bool}

/-! ### Parts -/

/-- Only a list holds items. -/
theorem itemsOf_of_not_isList (h : n.isList = false) : itemsOf depth n = [] := by
  cases n <;> first | rfl | cases h

/-- A part that is no list is indented in its first row, unless it is the first part. -/
theorem rowsOf_of_not_isList (h : n.isList = false) :
    rowsOf body depth further n =
      (body n).modifyHead ((if further then repeated (depth + 1) "  " else "").toList ++ ·) := by
  cases n <;> first | rfl | cases h

/-- A part that is no list is written behind its indentation, and further parts follow. -/
theorem draftParts_cons_of_not_isList {r : Renderer} {expand : Context → List Node → Draft}
    {c : Context} (h : n.isList = false) :
    draftParts r expand c depth further (n :: rest) =
      (when further (markup (repeated (depth + 1) "  ")) >> draftNode r expand c n >>
        draftParts r expand c depth true rest) := by
  cases n <;> first | rfl | cases h

mutual

/-- Parts with a property that implies another have the other. -/
theorem ItemsHold.imp (hpq : ∀ n, p n → q n) {items : List Node} :
    ItemsHold p items → ItemsHold q items
  | .nil => .nil
  | .item hparts hrest => .item (hparts.imp hpq) (hrest.imp hpq)

/-- Parts that hold one property hold a weaker one. -/
theorem PartsHold.imp (hpq : ∀ n, p n → q n) {parts : List Node} :
    PartsHold p parts → PartsHold q parts
  | .nil => .nil
  | .list ordered hitems hrest => .list ordered (hitems.imp hpq) (hrest.imp hpq)
  | .part hlist hn hrest => .part hlist (hpq _ hn) (hrest.imp hpq)

end

mutual

/-- The parts of each item have the property. -/
theorem ItemsHold.parts {depth : Nat} {ordered : Bool} {items : List Node} {e : Item} :
    ItemsHold p items → e ∈ itemsAt depth ordered items → PartsHold p e.parts
  | .nil, he => nomatch he
  | .item hparts hrest, he => by
    rcases List.mem_append.mp he with he | he
    · rcases List.mem_cons.mp he with rfl | he
      · exact hparts
      · exact hparts.parts he
    · exact hrest.parts he

/-- The parts of an item in parts hold what those parts hold. -/
theorem PartsHold.parts {depth : Nat} {parts : List Node} {e : Item} :
    PartsHold p parts → e ∈ itemsIn depth parts → PartsHold p e.parts
  | .nil, he => nomatch he
  | .list _ hitems hrest, he => (List.mem_append.mp he).elim hitems.parts hrest.parts
  | .part hlist _ hrest, he => by
    rw [itemsIn, itemsOf_of_not_isList hlist] at he
    exact hrest.parts he

end

/-! ### Rows -/

/-- There is always a row. -/
theorem orEmptyRow_ne_nil (ls : List (List Char)) : orEmptyRow ls ≠ [] := by
  cases ls <;> simp [orEmptyRow]

/-- The rows behind the first row of an item do not depend on what stands in front of its parts. -/
theorem tail_partRows (further : Bool) (h : PartsHold p parts) :
    (partRows body depth further parts).tail = (partRows body depth true parts).tail := by
  cases h with
  | nil => rfl
  | list => rfl
  | @part n rest hlist =>
    rw [partRows, partRows, rowsOf_of_not_isList hlist, rowsOf_of_not_isList hlist]
    cases body n <;> rfl

/-- An item starts with its marker, and the rows of its parts follow. -/
theorem rowsFrom_eq (body : Node → List (List Char)) (depth : Nat) (ordered : Bool)
    (h : PartsHold p parts) :
    ∃ first, rowsFrom body depth ordered (.listItem parts) =
      ((listMarker depth ordered).toList ++ first) :: (partRows body depth true parts).tail := by
  rw [rowsFrom, ← tail_partRows false h]
  cases partRows body depth false parts with
  | nil => exact ⟨[], rfl⟩
  | cons first others => exact ⟨first, rfl⟩

mutual

/-- The rows of every item follow each other among the rows of the list. -/
theorem rows_infix_itemRows {depth : Nat} {ordered : Bool} {items : List Node} {e : Item} :
    ItemsHold p items → e ∈ itemsAt depth ordered items →
    e.rows body <:+: itemRows body depth ordered items
  | .nil, he => nomatch he
  | @ItemsHold.item _ parts rest hparts hrest, he => by
    rw [itemRows]
    rcases List.mem_append.mp he with he | he
    · refine List.IsInfix.trans ?_ (List.prefix_append _ _).isInfix
      rcases List.mem_cons.mp he with rfl | he
      · exact List.infix_refl _
      · obtain ⟨first, hrows⟩ := rowsFrom_eq body depth ordered hparts
        rw [hrows]
        exact (rows_infix_partRows hparts he).trans (List.suffix_cons _ _).isInfix
    · exact (rows_infix_itemRows hrest he).trans (List.suffix_append _ _).isInfix

/-- The rows of an item in an item follow each other behind the first row of the parts. -/
theorem rows_infix_partRows {depth : Nat} {parts : List Node} {e : Item} :
    PartsHold p parts → e ∈ itemsIn depth parts →
    e.rows body <:+: (partRows body depth true parts).tail
  | .nil, he => nomatch he
  | @PartsHold.list _ ordered items rest hitems hrest, he => by
    have hrows : (partRows body depth true (.list ordered items :: rest)).tail =
        itemRows body (depth + 1) ordered items ++ ([] :: partRows body depth true rest) := by
      rw [partRows, rowsOf, List.cons_append, List.tail_cons, List.append_assoc]
      rfl
    rw [hrows]
    rcases List.mem_append.mp he with he | he
    · exact (rows_infix_itemRows hitems he).trans (List.prefix_append _ _).isInfix
    · have hinside := (rows_infix_partRows hrest he).trans (List.tail_suffix _).isInfix
      exact hinside.trans ((List.suffix_cons _ _).trans (List.suffix_append _ _)).isInfix
  | @PartsHold.part _ n rest hlist hn hrest, he => by
    rw [itemsIn, itemsOf_of_not_isList hlist, List.nil_append] at he
    have hinside : e.rows body <:+: (partRows body depth true rest).tail :=
      rows_infix_partRows hrest he
    rw [partRows]
    cases rowsOf body depth true n with
    | nil => exact hinside
    | cons _ others =>
      have hlater := hinside.trans (List.tail_suffix _).isInfix
      exact hlater.trans (List.suffix_append others _).isInfix

end

/-! ### Writing -/

/-- Whether a node is written as certain rows, at least one. -/
structure IsWritten (r : Renderer) (expand : Context → List Node → Draft) (c : Context)
    (body : Node → List (List Char)) (n : Node) : Prop where
  isRows : (draftNode r expand c n).IsRows (body n)
  ne_nil : body n ≠ []

section Writing

variable {r : Renderer} {expand : Context → List Node → Draft} {c outer : Context}

/-- Parts that are there take rows. -/
theorem partRows_ne_nil (h : PartsHold (IsWritten r expand c body) parts) (hne : parts ≠ []) :
    partRows body depth further parts ≠ [] := by
  cases h with
  | nil => exact absurd rfl hne
  | list => simp [partRows, rowsOf]
  | part hlist hn =>
    rw [partRows, rowsOf_of_not_isList hlist]
    simp [hn.ne_nil]

/-- What an item holds is written as the rows of its parts; an item without parts still ends its
row. -/
theorem isRows_listItem (depth : Nat) (houter : outer.block = c)
    (hparts : PartsHold (IsWritten r expand c body) parts)
    (h : (draftParts r expand c depth false parts).IsRows (partRows body depth false parts)) :
    (draftItem r expand outer depth (.listItem parts)).IsRows
      (orEmptyRow (partRows body depth false parts)) := by
  rw [draftItem, houter]
  cases parts with
  | nil => exact isRows_empty.seq isRows_feed
  | cons n rest =>
    have hrows : orEmptyRow (partRows body depth false (n :: rest)) =
        partRows body depth false (n :: rest) ++ [] := by
      rw [List.append_nil]
      cases hpart : partRows body depth false (n :: rest) with
      | nil => exact absurd hpart (partRows_ne_nil hparts (List.cons_ne_nil n rest))
      | cons => rfl
    rw [hrows]
    exact h.seq isRows_empty

/-- A part that is no list is written behind its indentation. -/
theorem isRows_part (hlist : n.isList = false) (h : IsWritten r expand c body n) :
    (when further (markup (repeated (depth + 1) "  ")) >> draftNode r expand c n).IsRows
      (rowsOf body depth further n) := by
  rw [rowsOf_of_not_isList hlist]
  cases further with
  | false =>
    obtain ⟨first, others, hrows⟩ := List.exists_cons_of_ne_nil h.ne_nil
    have hbody := isRows_empty.seq h.isRows
    rw [hrows] at hbody ⊢
    exact hbody
  | true => exact h.isRows.behind (feed_not_mem_indentation _) h.ne_nil

mutual

/-- A list is written as the rows of its items. -/
theorem isRows_items (outer : Context) (depth : Nat) (ordered : Bool) (houter : outer.block = c)
    (hblock : c.block = c) {items : List Node} : ItemsHold (IsWritten r expand c body) items →
    (draftItems r expand outer depth (listMarker depth ordered) items).IsRows
      (itemRows body depth ordered items)
  | .nil => isRows_empty
  | .item hparts hrest => by
    have hitem := isRows_listItem depth houter hparts (isRows_parts depth false hblock hparts)
    have hfirst := hitem.behind (feed_not_mem_listMarker depth ordered) (orEmptyRow_ne_nil _)
    rw [draftItems, ← Draft.seq_assoc]
    exact hfirst.seq (isRows_items outer depth ordered houter hblock hrest)

/-- The parts of an item are written as their rows. -/
theorem isRows_parts (depth : Nat) (further : Bool) (hblock : c.block = c) {parts : List Node} :
    PartsHold (IsWritten r expand c body) parts →
    (draftParts r expand c depth further parts).IsRows (partRows body depth further parts)
  | .nil => isRows_empty
  | .list ordered hitems hrest => by
    have hlist := isRows_items c (depth + 1) ordered hblock hblock hitems
    have haround := isRows_feed.seq (hlist.seq isRows_feed)
    rw [draftParts, listAround, ← Draft.seq_assoc]
    exact haround.seq (isRows_parts depth true hblock hrest)
  | .part hlist hn hrest => by
    rw [draftParts_cons_of_not_isList hlist, ← Draft.seq_assoc]
    exact (isRows_part hlist hn).seq (isRows_parts depth true hblock hrest)

end

end Writing

end Node

section Lists

variable {r : Renderer} {c : Context} {body : Node → List (List Char)} {items : List Node}

/-- A list outside of other lists is written as its rows between two empty ones. -/
theorem isRows_list (ordered : Bool)
    (h : Node.ItemsHold (Node.IsWritten r (r.draftUpTo c.notes.length) c.block body) items) :
    (r.node c (.list ordered items)).IsRows
      ([] :: (Node.itemRows body 0 ordered items ++ [[]])) := by
  have hitems := Node.isRows_items c 0 ordered rfl rfl h
  rw [Renderer.node, draftNode, listAround]
  exact isRows_feed.seq (hitems.seq isRows_feed)

/-- An item of a list is written as its marker with the rows of its parts, which follow each other
in the list. -/
theorem Item.exists_rows {ordered : Bool} {e : Item}
    (h : Node.ItemsHold (Node.IsWritten r (r.draftUpTo c.notes.length) c.block body) items)
    (he : e ∈ Node.itemsAt 0 ordered items) :
    ∃ first, Text.rows (e.draft r c).text =
        (first :: (Node.partRows body e.depth true e.parts).tail) ++ [[]] ∧
      (listMarker e.depth e.ordered).toList <+: first ∧
      first :: (Node.partRows body e.depth true e.parts).tail <:+:
        Text.rows (r.node c (.list ordered items)).text := by
  obtain ⟨first, hfirst⟩ := Node.rowsFrom_eq body e.depth e.ordered (h.parts he)
  have hitem := Node.isRows_items c e.depth e.ordered rfl rfl (.item (h.parts he) .nil)
  rw [Node.itemRows, Node.itemRows, List.append_nil, hfirst] at hitem
  have hinside : e.rows body <:+: Node.itemRows body 0 ordered items :=
    Node.rows_infix_itemRows h he
  rw [Item.rows, hfirst] at hinside
  refine ⟨_, hitem.rows_text, List.prefix_append _ first, ?_⟩
  rw [(isRows_list ordered h).rows_text]
  have hlist := hinside.trans (List.prefix_append _ [[]]).isInfix
  exact (hlist.trans (List.suffix_cons [] _).isInfix).trans (List.prefix_append _ [[]]).isInfix

end Lists

/-! ### Paragraphs and code -/

namespace Node

/-- Whether a node is text, code or a line break. -/
def isPhrase : Node → Bool
  | text _ | code _ | lineBreak | softBreak => true
  | _ => false

/-- Text, code and line breaks as they are written. -/
def phrase : Node → String
  | text s => escapeContent s
  | code s => " #raw(" ++ literalText s ++ ", block: false) "
  | lineBreak => "#linebreak()\n"
  | softBreak => "#linebreak(weak: true)"
  | _ => ""

/-- Some of these one after the other. -/
def phrases (cs : List Node) : String := String.join (cs.map phrase)

/-- Whether a node is a paragraph of text, code and line breaks, or a block of code. -/
def isItemBody : Node → Bool
  | paragraph cs => cs.all isPhrase
  | codeBlock .. => true
  | _ => false

/-- The rows of such a node. -/
def bodyRows (lexers : Language.Lexers) : Node → List (List Char)
  | paragraph cs => rows (phrases cs)
  | codeBlock source info => (rows (Folio.codeBlock lexers source info).text).dropLast
  | _ => []

section Bodies

variable (r : Renderer) (expand : Context → List Node → Draft) {c : Context} {n : Node}
  {cs : List Node}

/-- A phrase is written as its text. -/
theorem draftNode_phrase (c : Context) (h : n.isPhrase = true) :
    (draftNode r expand c n).fault = none ∧ (draftNode r expand c n).text = n.phrase := by
  cases n with
  | text s => exact ⟨rfl, text_ofPiece _⟩
  | code s =>
    have hcode : (inlineCode s).text = "#raw(" ++ (literalText s ++ ", block: false)") := by
      rw [inlineCode, text_seq rfl, text_seq rfl, text_markup, text_markup, literal, text_ofPiece,
        Piece.written]
    refine ⟨rfl, ?_⟩
    rw [draftNode, text_seq rfl, text_seq rfl, text_markup, hcode, ← String.toList_inj]
    simp [phrase]
  | lineBreak => exact ⟨rfl, text_markup _⟩
  | softBreak => exact ⟨rfl, text_markup _⟩
  | _ => cases h

/-- Phrases are written as their texts, one after the other. -/
theorem draftAll_phrases (c : Context) (h : cs.all isPhrase = true) :
    (draftAll r expand c cs).fault = none ∧ (draftAll r expand c cs).text = phrases cs := by
  induction cs with
  | nil => exact ⟨rfl, rfl⟩
  | cons n rest ih =>
    rw [List.all_cons, Bool.and_eq_true] at h
    obtain ⟨hfault, htext⟩ := draftNode_phrase r expand c h.1
    obtain ⟨hfaults, htexts⟩ := ih h.2
    rw [draftAll, fault_seq hfault, text_seq hfault, htext, htexts, phrases, phrases, List.map_cons,
      String.join_cons]
    exact ⟨hfaults, rfl⟩

/-- A block of code starts on a row of its own, without an indentation, and ends its last row. -/
theorem exists_rows_codeBlock (lexers : Language.Lexers) (source info : String) :
    ∃ first rest, first ≠ '\n' ∧ first ≠ ' ' ∧
      (Folio.codeBlock lexers source info).IsRows (bodyRows lexers (.codeBlock source info)) ∧
      bodyRows lexers (.codeBlock source info) = [] :: splitAt '\n' (first :: rest) := by
  obtain ⟨hfault, first, rest, hfeed, hspace, htext⟩ :
      (Folio.codeBlock lexers source info).fault = none ∧ ∃ first rest, first ≠ '\n' ∧ first ≠ ' ' ∧
        (Folio.codeBlock lexers source info).text.toList = '\n' :: first :: rest ++ ['\n'] := by
    rw [Folio.codeBlock]
    split
    · refine ⟨rfl, '$', ('\n' :: source.toList) ++ "\n$\n".toList, by decide, by decide, ?_⟩
      rw [text_seq rfl, text_seq rfl, text_markup, text_markup, text_markup]
      simp
    · refine ⟨rfl, '#', "raw(".toList ++ ((literalText source).toList ++
        (", block: true, lang: \"" ++ Language.ofInfo lexers info ++ "\")").toList), by decide,
        by decide, ?_⟩
      rw [text_seq rfl, text_seq rfl, text_markup, text_markup, literal, text_ofPiece,
        Piece.written]
      simp
  have hrows : bodyRows lexers (.codeBlock source info) = [] :: splitAt '\n' (first :: rest) := by
    rw [bodyRows, rows, htext, splitAt_append_cons]
    exact List.dropLast_concat
  refine ⟨first, rest, hfeed, hspace, ⟨hfault, fun after => ?_⟩, hrows⟩
  rw [htext, hrows, List.append_assoc]
  exact splitAt_append_cons '\n' ('\n' :: first :: rest) after

/-- The body of an item takes a row at least. -/
theorem bodyRows_ne_nil (lexers : Language.Lexers) (h : n.isItemBody = true) :
    bodyRows lexers n ≠ [] := by
  cases n with
  | paragraph cs => exact splitAt_ne_nil '\n' _
  | codeBlock source info =>
    obtain ⟨_, _, -, -, -, hrows⟩ := exists_rows_codeBlock lexers source info
    exact hrows ▸ List.cons_ne_nil _ _
  | _ => cases h

/-- In an item, such a node is written as its rows. -/
theorem isWritten_of_isItemBody (hc : c.inBlock = true) (h : n.isItemBody = true) :
    IsWritten r expand c (bodyRows r.lexers) n := by
  refine ⟨?_, bodyRows_ne_nil r.lexers h⟩
  cases n with
  | paragraph cs =>
    obtain ⟨hfault, htext⟩ := draftAll_phrases r expand c h
    rw [draftNode, if_pos hc, bodyRows, ← htext]
    exact isRows_seq_feed hfault
  | codeBlock source info =>
    obtain ⟨_, _, -, -, hwritten, -⟩ := exists_rows_codeBlock r.lexers source info
    exact hwritten
  | _ => cases h

end Bodies

end Node

end Folio
