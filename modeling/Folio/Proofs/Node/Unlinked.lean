import Folio.Proofs.Node.Tidy

/-!
# Trees without links

A link may be taken out of a tree so that its children stand in its place. This is done wherever
nodes are written one after the other. A link that is written by itself stays, at page level and as
a part of an item, but the links in it are taken out. The plain text of a tree remains the same.
-/

namespace Folio.Node

mutual

/-- Nodes one after the other, with the children of each link in the place of the link. -/
def unlinkedAll : List Node → List Node
  | [] => []
  | .link _ cs :: rest => unlinkedAll cs ++ unlinkedAll rest
  | node :: rest => node.unlinked :: unlinkedAll rest

/-- A node with the links in it taken out. -/
def unlinked : Node → Node
  | .document cs => .document (unlinkedEach cs)
  | .heading level cs anchor => .heading level (unlinkedAll cs) anchor
  | .paragraph cs => .paragraph (unlinkedAll cs)
  | .list ordered items => .list ordered (unlinkedItems items)
  | .listItem cs => .listItem (unlinkedAll cs)
  | .quote cs => .quote (unlinkedAll cs)
  | .admonition category title cs => .admonition category title (unlinkedAll cs)
  | .table columns rows => .table columns (unlinkedAll rows)
  | .tableRow cells => .tableRow (unlinkedAll cells)
  | .tableCell cs => .tableCell (unlinkedAll cs)
  | .binding name category bodies page => .binding name category (unlinkedBodies bodies) page
  | .contents entries minLevel => .contents (unlinkedEntries entries) minLevel
  | .strong cs => .strong (unlinkedAll cs)
  | .emph cs => .emph (unlinkedAll cs)
  | .link destination cs => .link destination (unlinkedAll cs)
  | .pageLink page fragment cs => .pageLink page fragment (unlinkedAll cs)
  | .image destination cs isLocal => .image destination (unlinkedAll cs) isLocal
  | node => node

/-- Nodes written by themselves, with the links in each of them taken out. -/
def unlinkedEach : List Node → List Node
  | [] => []
  | node :: rest => node.unlinked :: unlinkedEach rest

/-- The items of a list with the links in them taken out. -/
def unlinkedItems : List Node → List Node
  | [] => []
  | item :: rest => unlinkedItem item :: unlinkedItems rest

/-- An item, of which only the contents are written, with the links in it taken out. -/
def unlinkedItem : Node → Node
  | .document cs | .heading _ cs _ | .paragraph cs | .listItem cs | .quote cs
  | .admonition _ _ cs | .tableCell cs | .footnote _ cs | .contentsEntry _ _ _ cs | .strong cs
  | .emph cs | .link _ cs | .pageLink _ _ cs | .image _ cs _ => .listItem (unlinkedEach cs)
  | node => node

/-- Documentation bodies with the links in them taken out. -/
def unlinkedBodies : List Node → List Node
  | [] => []
  | .body tree source :: rest => .body (unlinkedTree tree) source :: unlinkedBodies rest
  | node :: rest => node :: unlinkedBodies rest

/-- A tree, of which only the contents are written, with the links in it taken out. -/
def unlinkedTree : Node → Node
  | .document cs | .heading _ cs _ | .paragraph cs | .listItem cs | .quote cs
  | .admonition _ _ cs | .tableCell cs | .footnote _ cs | .contentsEntry _ _ _ cs | .strong cs
  | .emph cs | .link _ cs | .pageLink _ _ cs | .image _ cs _ => .document (unlinkedAll cs)
  | node => node

/-- The entries of a table of contents with the links in them taken out. -/
def unlinkedEntries : List Node → List Node
  | [] => []
  | .contentsEntry page label level cs :: rest =>
    .contentsEntry page label level (unlinkedAll cs) :: unlinkedEntries rest
  | node :: rest => node :: unlinkedEntries rest

end

/-- Whether a node is a link as it was written. -/
def isLink : Node → Bool
  | .link .. => true
  | _ => false

/-- In front of a node that is no link nothing is spliced. -/
theorem unlinkedAll_cons {n : Node} (h : n.isLink = false) (rest : List Node) :
    unlinkedAll (n :: rest) = n.unlinked :: unlinkedAll rest := by
  cases n with
  | link => cases h
  | _ => rw [unlinkedAll]; nofun

theorem plainTextAll_append (ns ms : List Node) :
    plainTextAll (ns ++ ms) = plainTextAll ns ++ plainTextAll ms := by
  induction ns with
  | nil => simp [plainTextAll]
  | cons n rest ih => rw [List.cons_append, plainTextAll, plainTextAll, ih, String.append_assoc]

mutual

/-- Taking links out does not change the plain text of nodes. -/
theorem plainTextAll_unlinkedAll : (ns : List Node) →
    plainTextAll (unlinkedAll ns) = plainTextAll ns
  | [] => rfl
  | n :: rest => by
    cases hlink : n.isLink with
    | false =>
      rw [unlinkedAll_cons hlink, plainTextAll, plainTextAll, plainText_unlinked n,
        plainTextAll_unlinkedAll rest]
    | true =>
      cases n with
      | link destination cs =>
        rw [unlinkedAll, plainTextAll_append, plainTextAll, plainText,
          plainTextAll_unlinkedAll cs, plainTextAll_unlinkedAll rest]
      | _ => cases hlink

/-- Taking links out does not change the plain text of a node. -/
theorem plainText_unlinked : (n : Node) → n.unlinked.plainText = n.plainText
  | .document cs => by rw [unlinked, plainText, plainText, plainTextAll_unlinkedEach cs]
  | .list _ items => by rw [unlinked, plainText, plainText, plainTextAll_unlinkedItems items]
  | .heading _ cs _ | .paragraph cs | .listItem cs | .quote cs | .admonition _ _ cs | .table _ cs
  | .tableRow cs | .tableCell cs | .strong cs | .emph cs | .link _ cs | .pageLink _ _ cs
  | .image _ cs _ => by rw [unlinked, plainText, plainText, plainTextAll_unlinkedAll cs]
  | .codeBlock .. | .displayMath _ | .rule | .raw .. | .footnote .. | .binding .. | .body ..
  | .index _ | .indexEntry .. | .contents .. | .contentsEntry .. | .text _ | .code _ | .math _
  | .lineBreak | .softBreak | .footnoteMark _ => rfl

/-- Taking links out of each node does not change their plain text. -/
theorem plainTextAll_unlinkedEach : (ns : List Node) →
    plainTextAll (unlinkedEach ns) = plainTextAll ns
  | [] => rfl
  | n :: rest => by
    rw [unlinkedEach, plainTextAll, plainTextAll, plainText_unlinked n,
      plainTextAll_unlinkedEach rest]

/-- Taking links out of items does not change their plain text. -/
theorem plainTextAll_unlinkedItems : (items : List Node) →
    plainTextAll (unlinkedItems items) = plainTextAll items
  | [] => rfl
  | item :: rest => by
    rw [unlinkedItems, plainTextAll, plainTextAll, plainText_unlinkedItem item,
      plainTextAll_unlinkedItems rest]

/-- Taking links out of an item does not change its plain text. -/
theorem plainText_unlinkedItem : (item : Node) → (unlinkedItem item).plainText = item.plainText
  | .document cs | .heading _ cs _ | .paragraph cs | .listItem cs | .quote cs
  | .admonition _ _ cs | .tableCell cs | .footnote _ cs | .contentsEntry _ _ _ cs | .strong cs
  | .emph cs | .link _ cs | .pageLink _ _ cs | .image _ cs _ => by
    rw [unlinkedItem, plainText, plainText, plainTextAll_unlinkedEach cs]
  | .list .. | .codeBlock .. | .displayMath _ | .table .. | .tableRow _ | .rule | .raw ..
  | .binding .. | .body .. | .index _ | .indexEntry .. | .contents .. | .text _ | .code _
  | .math _ | .lineBreak | .softBreak | .footnoteMark _ => rfl

end

/-- The label of a heading does not depend on the links in its text. -/
theorem label_unlinkedAll (level : Int) (cs : List Node) (anchor : Option String) :
    Heading.label ⟨level, unlinkedAll cs, anchor⟩ = Heading.label ⟨level, cs, anchor⟩ := by
  simp only [Heading.label, plainTextAll_unlinkedAll]

mutual

/-- No link is left in a phrase whose links are taken out. -/
theorem isLink_of_mem_unlinkedAll : (ns : List Node) → IsPhrase ns →
    ∀ m ∈ walkAll (unlinkedAll ns), m.isLink = false
  | [], _ => nofun
  | n :: rest, h => by
    obtain ⟨hn, hrest⟩ := List.forall_mem_append.mp h
    have hafter := isLink_of_mem_unlinkedAll rest hrest
    cases hlink : n.isLink with
    | false =>
      rw [unlinkedAll_cons hlink, walkAll]
      exact List.forall_mem_append.mpr ⟨isLink_of_mem_unlinked n hn hlink, hafter⟩
    | true =>
      cases n with
      | link destination cs =>
        rw [unlinkedAll, walkAll_append]
        exact List.forall_mem_append.mpr
          ⟨isLink_of_mem_unlinkedAll cs (List.forall_mem_cons.mp hn).2, hafter⟩
      | _ => cases hlink

/-- No link is left in an inline node. -/
theorem isLink_of_mem_unlinked : (n : Node) → (∀ m ∈ n.walk, m.isInline) → n.isLink = false →
    ∀ m ∈ n.unlinked.walk, m.isLink = false
  | .strong cs, h, _ | .emph cs, h, _ | .pageLink _ _ cs, h, _ | .image _ cs _, h, _ => by
    rw [unlinked, walk]
    exact List.forall_mem_cons.mpr
      ⟨rfl, isLink_of_mem_unlinkedAll cs (List.forall_mem_cons.mp h).2⟩
  | .text _, _, _ | .code _, _, _ | .math _, _, _ | .lineBreak, _, _ | .softBreak, _, _
  | .footnoteMark _, _, _ => List.forall_mem_singleton.mpr rfl
  | .link .., _, hlink => nomatch hlink
  | .document _, h, _ | .heading .., h, _ | .paragraph _, h, _ | .list .., h, _ | .listItem _, h, _
  | .quote _, h, _ | .admonition .., h, _ | .codeBlock .., h, _ | .displayMath _, h, _
  | .table .., h, _ | .tableRow _, h, _ | .tableCell _, h, _ | .rule, h, _ | .raw .., h, _
  | .footnote .., h, _ | .binding .., h, _ | .body .., h, _ | .index _, h, _
  | .indexEntry .., h, _ | .contents .., h, _ | .contentsEntry .., h, _ =>
    nomatch h _ List.mem_cons_self

end

end Folio.Node
