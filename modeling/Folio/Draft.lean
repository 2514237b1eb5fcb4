import Folio.Label
import Folio.Notice

/-!
# Drafts

A draft is a piece of writing: markup in order, the notices that came up, and the fault that ended
it, if one did. Drafts are joined in sequence, and nothing follows a fault, so that joining is
associative with the empty draft as its unit.
-/

namespace Folio

open Markup

/-- Where a link leads. -/
inductive Target
  | label (id : LabelId)
  | address (url : String)
deriving DecidableEq

/-- A part of the written markup. -/
inductive Piece
  /-- Markup as it stands. -/
  | markup (text : String)
  /-- Running text. -/
  | prose (text : String)
  /-- A string argument. -/
  | literal (payload : String)
  /-- The place that a label names. -/
  | anchor (id : LabelId)
  /-- A link up to its text. -/
  | link (target : Target)
deriving DecidableEq

/-- A string argument in its quotes. -/
def literalText (payload : String) : String := "\"" ++ escapeString payload ++ "\""

/-- The written form of a piece. -/
def Piece.written : Piece → String
  | markup text => text
  | prose text => escapeContent text
  | literal payload => literalText payload
  | anchor id => "#label(" ++ literalText id.text ++ ")"
  | link (.label id) => "#link(label(" ++ literalText id.text ++ "))"
  | link (.address url) => "#link(" ++ literalText url ++ ")"

/-- A piece of writing. -/
structure Draft where
  pieces : List Piece
  notices : List Notice
  /-- What ended the writing early. -/
  fault : Option Fault

namespace Draft

/-- Nothing at all. -/
def empty : Draft := ⟨[], [], none⟩

/-- A single piece. -/
def ofPiece (p : Piece) : Draft := ⟨[p], [], none⟩

/-- Markup as it stands. -/
def markup (s : String) : Draft := ofPiece (.markup s)

/-- Running text. -/
def prose (s : String) : Draft := ofPiece (.prose s)

/-- A string argument. -/
def literal (s : String) : Draft := ofPiece (.literal s)

/-- A notice. -/
def notice (n : Notice) : Draft := ⟨[], [n], none⟩

/-- A fault. -/
def stop (f : Fault) : Draft := ⟨[], [], some f⟩

/-- One draft after the other; the second is dropped when the first ended with a fault. -/
def andThen (a : Draft) (b : Unit → Draft) : Draft :=
  match a.fault with
  | some _ => a
  | none =>
    let next := b ()
    ⟨a.pieces ++ next.pieces, a.notices ++ next.notices, next.fault⟩

instance : AndThen Draft := ⟨andThen⟩

/-- What follows from a result, or its fault. -/
def ofExcept (e : Except Fault α) (next : α → Draft) : Draft :=
  match e with
  | .ok a => next a
  | .error f => stop f

/-- A draft written only under a condition. -/
def when (condition : Bool) (d : Draft) : Draft := if condition then d else empty

/-- The written text. -/
def text (d : Draft) : String := String.join (d.pieces.map Piece.written)

/-- Nothing is written behind a fault. -/
@[simp] theorem andThen_of_fault {a : Draft} {f : Fault} (h : a.fault = some f) (b : Unit → Draft) :
    a.andThen b = a := by
  simp [andThen, h]

/-- Nothing in front of a draft may be left out. -/
@[simp] theorem empty_andThen (b : Unit → Draft) : empty.andThen b = b () := by
  simp [andThen, empty]

/-- Nothing behind a draft may be left out. -/
@[simp] theorem andThen_empty (a : Draft) : (a.andThen fun _ => empty) = a := by
  obtain ⟨pieces, notices, fault⟩ := a
  cases fault <;> simp [andThen, empty]

/-- How drafts in sequence are grouped does not matter. -/
theorem andThen_assoc (a : Draft) (b c : Unit → Draft) :
    (a.andThen b).andThen c = a.andThen fun _ => (b ()).andThen c := by
  obtain ⟨ap, an, af⟩ := a
  cases af with
  | some f => simp [andThen]
  | none =>
    rcases hb : b () with ⟨bp, bn, bf⟩
    cases bf <;> simp [andThen, hb]

end Draft

end Folio
