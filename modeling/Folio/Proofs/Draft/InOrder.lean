import Folio.Proofs.Draft.Sequence

/-!
# Drafts in a row

Several drafts one after the other, and drafts that differ only in how their text is cut into
pieces.
-/

namespace Folio.Draft

@[simp] theorem empty_seq (d : Draft) : (empty >> d) = d := empty_andThen fun _ => d

@[simp] theorem seq_empty (d : Draft) : (d >> empty) = d := andThen_empty d

/-- Several drafts one after the other. -/
def inOrder (ds : List Draft) : Draft := ds.foldr (fun d rest => d >> rest) empty

theorem inOrder_cons (d : Draft) (ds : List Draft) : inOrder (d :: ds) = d >> inOrder ds := rfl

/-- Drafts in two parts are written one part after the other. -/
theorem inOrder_append (ds es : List Draft) : inOrder (ds ++ es) = inOrder ds >> inOrder es := by
  induction ds with
  | nil => exact (empty_seq _).symm
  | cons d rest ih =>
    rw [List.cons_append, inOrder_cons, inOrder_cons, ih, seq_assoc]

/-- Drafts in a row are without a fault when each of them is. -/
theorem fault_inOrder_eq_none {ds : List Draft} :
    (inOrder ds).fault = none ↔ ∀ d ∈ ds, d.fault = none := by
  induction ds with
  | nil => exact ⟨fun _ => nofun, fun _ => rfl⟩
  | cons d rest ih => rw [inOrder_cons, fault_seq_eq_none, ih, List.forall_mem_cons]

/-- Drafts in a row without a fault have their texts one after the other. -/
theorem text_inOrder {ds : List Draft} (h : (inOrder ds).fault = none) :
    (inOrder ds).text = String.join (ds.map text) := by
  induction ds with
  | nil => rfl
  | cons d rest ih =>
    obtain ⟨hd, hrest⟩ := fault_seq_eq_none.mp h
    rw [inOrder_cons, text_seq hd, ih hrest, List.map_cons, String.join_cons]

/-- Whether two drafts are the same but for how their text is cut into pieces. -/
structure SameText (d e : Draft) : Prop where
  text : d.text = e.text
  notices : d.notices = e.notices
  fault : d.fault = e.fault

namespace SameText

variable {d d' e e' : Draft}

theorem refl (d : Draft) : SameText d d := ⟨rfl, rfl, rfl⟩

/-- Drafts with the text of a third one have the same text. -/
theorem trans (h : SameText d d') (h' : SameText d' e) : SameText d e :=
  ⟨h.text.trans h'.text, h.notices.trans h'.notices, h.fault.trans h'.fault⟩

/-- Drafts in sequence have the same text if their parts do. -/
theorem seq (hd : SameText d d') (he : SameText e e') : SameText (d >> e) (d' >> e') := by
  cases hfault : d.fault with
  | none =>
    have hfault' : d'.fault = none := hd.fault ▸ hfault
    refine ⟨?_, ?_, ?_⟩
    · rw [text_seq hfault, text_seq hfault', hd.text, he.text]
    · rw [notices_seq hfault, notices_seq hfault', hd.notices, he.notices]
    · rw [fault_seq hfault, fault_seq hfault', he.fault]
  | some f => rwa [seq_of_fault hfault, seq_of_fault (hd.fault ▸ hfault)]

/-- What follows a part may be exchanged. -/
theorem behind {a : Draft} (h : SameText d e) : SameText (a >> d) (a >> e) := (refl a).seq h

/-- A text may be cut anywhere. -/
theorem cut (s t : String) (h : SameText d e) :
    SameText (markup (s ++ t) >> d) (markup s >> markup t >> e) := by
  have hcut : SameText (markup (s ++ t)) (markup s >> markup t) :=
    ⟨by rw [text_seq rfl, text_markup, text_markup, text_markup], rfl, rfl⟩
  rw [← seq_assoc]
  exact hcut.seq h

end SameText

end Folio.Draft
