import Folio.Draft

/-!
# Drafts in sequence

What a sequence of drafts holds, read off its parts: it is without a fault when both parts are, and
then its pieces, its labels and its text are those of the parts one after the other. Labels defined
in an order stand in the text in that order, none overlapping the next.
-/

namespace Folio

/-- The label that a piece defines, if it is a place for one. -/
def Piece.anchor? : Piece → Option LabelId
  | anchor id => some id
  | _ => none

/-- The label that a piece links to, if it is a link to one. -/
def Piece.target? : Piece → Option LabelId
  | link (.label id) => some id
  | _ => none

/-- The text that defines a label. -/
def LabelId.definition (id : LabelId) : String := "#label(\"" ++ id.escaped ++ "\")"

/-- The text that links to a label, up to the text of the link. -/
def LabelId.reference (id : LabelId) : String := "#link(label(\"" ++ id.escaped ++ "\"))"

theorem Piece.anchor?_eq_some {p : Piece} {id : LabelId} : p.anchor? = some id ↔ p = anchor id := by
  cases p <;> simp [anchor?]

/-- A place for a label is written as the definition of the label. -/
theorem Piece.written_anchor (id : LabelId) : (anchor id).written = id.definition := by
  rw [← String.toList_inj]
  simp [written, literalText, LabelId.definition, LabelId.escaped]

/-- A link to a label is written as a reference to the label. -/
theorem Piece.written_link (id : LabelId) : (link (.label id)).written = id.reference := by
  rw [← String.toList_inj]
  simp [written, literalText, LabelId.reference, LabelId.escaped]

/-- Texts that stand in a text one after the other, none overlapping the next. -/
def StandInOrder : List String → String → Prop
  | [], _ => True
  | s :: rest, text => ∃ before after, text = before ++ s ++ after ∧ StandInOrder rest after

/-- Texts that stand in a part of a text in order stand in the whole text. -/
theorem StandInOrder.around {parts : List String} {text : String} (h : StandInOrder parts text)
    (before after : String) : StandInOrder parts (before ++ text ++ after) := by
  induction parts generalizing before text with
  | nil => trivial
  | cons s rest ih =>
    obtain ⟨front, back, rfl, hrest⟩ := h
    refine ⟨before ++ front, back ++ after, by simp only [String.append_assoc], ?_⟩
    simpa only [String.empty_append] using ih hrest ""

namespace Draft

/-- The labels that a draft defines, in order. -/
def anchors (d : Draft) : List LabelId := d.pieces.filterMap Piece.anchor?

/-- The labels that a draft links to, in order. -/
def targets (d : Draft) : List LabelId := d.pieces.filterMap Piece.target?

theorem seq_assoc (a b c : Draft) : (a >> b) >> c = a >> b >> c := andThen_assoc ..

/-- What follows from a changed result follows from the result before the change. -/
theorem ofExcept_map {α β : Type} (f : α → β) (e : Except Fault α) (next : β → Draft) :
    ofExcept (e.map f) next = ofExcept e fun x => next (f x) := by
  cases e <;> rfl

/-- A sequence is without a fault when both parts are. -/
theorem fault_seq_eq_none {a b : Draft} :
    (a >> b).fault = none ↔ a.fault = none ∧ b.fault = none := by
  change (a.andThen fun _ => b).fault = none ↔ _
  cases h : a.fault <;> simp [andThen, h]

/-- Behind a part without a fault, the fault of a sequence is that of what follows. -/
theorem fault_seq {a : Draft} (h : a.fault = none) (b : Draft) : (a >> b).fault = b.fault := by
  change (a.andThen fun _ => b).fault = _
  rw [andThen, h]

/-- Nothing follows a part with a fault. -/
theorem seq_of_fault {a : Draft} {f : Fault} (h : a.fault = some f) (b : Draft) : (a >> b) = a :=
  andThen_of_fault h fun _ => b

/-- What follows a part without a fault is added to its notices. -/
theorem notices_seq {a : Draft} (h : a.fault = none) (b : Draft) :
    (a >> b).notices = a.notices ++ b.notices := by
  change (a.andThen fun _ => b).notices = _
  simp [andThen, h]

/-- A sequence has no notices but those of its parts. -/
theorem mem_notices_seq {a b : Draft} {n : Notice} (h : n ∈ (a >> b).notices) :
    n ∈ a.notices ∨ n ∈ b.notices := by
  cases hfault : a.fault with
  | none => rwa [notices_seq hfault, List.mem_append] at h
  | some f =>
    rw [seq_of_fault hfault] at h
    exact Or.inl h

/-- What follows a part without a fault is added to its pieces. -/
theorem pieces_seq {a : Draft} (h : a.fault = none) (b : Draft) :
    (a >> b).pieces = a.pieces ++ b.pieces := by
  change (a.andThen fun _ => b).pieces = _
  simp [andThen, h]

/-- A sequence has no pieces but those of its parts. -/
theorem mem_pieces_seq {a b : Draft} {p : Piece} (h : p ∈ (a >> b).pieces) :
    p ∈ a.pieces ∨ p ∈ b.pieces := by
  cases hfault : a.fault with
  | none => rwa [pieces_seq hfault, List.mem_append] at h
  | some f =>
    change p ∈ (a.andThen fun _ => b).pieces at h
    rw [andThen_of_fault hfault] at h
    exact Or.inl h

theorem text_ofPiece (p : Piece) : (ofPiece p).text = p.written := by
  simp [text, ofPiece]

theorem text_markup (s : String) : (markup s).text = s := text_ofPiece (.markup s)

/-- The text of a sequence is the texts of its parts one after the other. -/
theorem text_seq {a : Draft} (h : a.fault = none) (b : Draft) :
    (a >> b).text = a.text ++ b.text := by
  rw [text, pieces_seq h, List.map_append, String.join_append]
  rfl

/-- The labels of a sequence are those of its parts one after the other. -/
theorem anchors_seq {a : Draft} (h : a.fault = none) (b : Draft) :
    (a >> b).anchors = a.anchors ++ b.anchors := by
  rw [anchors, pieces_seq h, List.filterMap_append]
  rfl

/-- A sequence links to nothing but its parts do. -/
theorem mem_targets_seq {a b : Draft} {id : LabelId} (h : id ∈ (a >> b).targets) :
    id ∈ a.targets ∨ id ∈ b.targets := by
  obtain ⟨p, hp, hlink⟩ := List.mem_filterMap.mp h
  exact (mem_pieces_seq hp).imp (fun hp => List.mem_filterMap.mpr ⟨p, hp, hlink⟩)
    fun hp => List.mem_filterMap.mpr ⟨p, hp, hlink⟩

/-- What is written under a condition is without a fault if it is without one. -/
theorem fault_when {d : Draft} (h : d.fault = none) (condition : Bool) :
    (when condition d).fault = none := by
  cases condition with
  | false => rfl
  | true => exact h

/-- What is written under a condition links to nothing if it links to nothing. -/
theorem targets_when {d : Draft} (h : d.targets = []) (condition : Bool) :
    (when condition d).targets = [] := by
  cases condition with
  | false => rfl
  | true => exact h

/-- Labels that a draft defines in order stand in its text in that order. -/
theorem standInOrder_of_sublist {ids : List LabelId} {d : Draft} (h : ids.Sublist d.anchors) :
    StandInOrder (ids.map LabelId.definition) d.text := by
  obtain ⟨pieces, notices, fault⟩ := d
  simp only [anchors, text] at h ⊢
  induction pieces generalizing ids with
  | nil =>
    rw [List.sublist_nil.mp h]
    trivial
  | cons p rest ih =>
    rw [List.map_cons, String.join_cons]
    have hlater {ids : List LabelId} (h : ids.Sublist (rest.filterMap Piece.anchor?)) :
        StandInOrder (ids.map LabelId.definition)
          (p.written ++ String.join (rest.map Piece.written)) := by
      simpa only [String.append_empty] using (ih h).around p.written ""
    cases hp : p.anchor? with
    | none => exact hlater (by rwa [List.filterMap_cons_none hp] at h)
    | some id =>
      rw [List.filterMap_cons_some hp] at h
      cases h with
      | cons _ hrest => exact hlater hrest
      | cons_cons _ hrest =>
        refine ⟨"", String.join (rest.map Piece.written), ?_, ih hrest⟩
        rw [Piece.anchor?_eq_some.mp hp, Piece.written_anchor, String.empty_append]

end Draft

end Folio
