import Folio.Proofs.Draft.Sequence
import Folio.Proofs.Text.Split

/-!
# Rows

The rows of a text stand between its line feeds. A draft that is written as whole rows ends each of
them, so that what follows starts a row of its own: the rows of a sequence of such drafts are those
of its parts one after the other.
-/

namespace Folio

open Text

/-- The rows of a text; the last one is empty if the text ends with a line feed. -/
def Text.rows (s : String) : List (List Char) := splitAt '\n' s.toList

namespace Draft

/-- Whether a draft is written without a fault and as some rows, each with a line feed behind it.
The rows of anything that follows come after them. -/
structure IsRows (d : Draft) (ls : List (List Char)) : Prop where
  fault : d.fault = none
  before : ∀ rest, splitAt '\n' (d.text.toList ++ rest) = ls ++ splitAt '\n' rest

theorem isRows_empty : empty.IsRows [] := ⟨rfl, fun _ => rfl⟩

theorem isRows_feed : (markup "\n").IsRows [[]] := by
  refine ⟨rfl, fun rest => ?_⟩
  rw [text_markup]
  exact splitAt_append_cons '\n' [] rest

/-- A line feed behind a draft ends the last row of the draft. -/
theorem isRows_seq_feed {d : Draft} (h : d.fault = none) :
    (d >> markup "\n").IsRows (rows d.text) := by
  refine ⟨(fault_seq h _).trans rfl, fun rest => ?_⟩
  rw [text_seq h, text_markup, String.toList_append, List.append_assoc]
  exact splitAt_append_cons '\n' d.text.toList rest

namespace IsRows

variable {a b : Draft} {ls ms : List (List Char)}

/-- The rows of a draft that is written as whole rows. -/
theorem rows_text (h : a.IsRows ls) : rows a.text = ls ++ [[]] := by
  have hrows := h.before []
  rwa [List.append_nil] at hrows

/-- The rows of a sequence are those of its parts. -/
theorem seq (ha : a.IsRows ls) (hb : b.IsRows ms) : (a >> b).IsRows (ls ++ ms) := by
  refine ⟨fault_seq_eq_none.mpr ⟨ha.fault, hb.fault⟩, fun rest => ?_⟩
  rw [text_seq ha.fault, String.toList_append, List.append_assoc, ha.before, hb.before,
    List.append_assoc]

/-- What stands in front of whole rows stands in the first of them. -/
theorem behind {mark : String} (hmark : '\n' ∉ mark.toList) (h : a.IsRows ls) (hne : ls ≠ []) :
    (markup mark >> a).IsRows (ls.modifyHead (mark.toList ++ ·)) := by
  obtain ⟨first, others, rfl⟩ := List.exists_cons_of_ne_nil hne
  refine ⟨(fault_seq rfl a).trans h.fault, fun rest => ?_⟩
  have hrows := h.before rest
  rw [List.cons_append] at hrows
  rw [text_seq rfl, text_markup, String.toList_append, List.append_assoc,
    splitAt_append_of_not_mem hmark hrows, List.modifyHead_cons, List.cons_append]

end IsRows

end Draft

end Folio
