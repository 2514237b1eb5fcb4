import Folio.Label
import Folio.Proofs.Markup.Strings
import Folio.Proofs.Text.Lines

/-!
# Names of labels

The full name of a label is its page and its name with a character between them, and inside a string
argument the full name is escaped. As long as the name does not hold that character, both can be
read back, so that labels whose full names are written alike are the same.
-/

namespace Folio

namespace LabelId

variable {i j : LabelId}

/-- A name without the character that parts it from its page can be told from the full name. -/
theorem text_inj (hi : '#' ∉ i.name.toList) (hj : '#' ∉ j.name.toList) (h : i.text = j.text) :
    i = j := by
  obtain ⟨page, name⟩ := i
  obtain ⟨page', name'⟩ := j
  have hmem (p n : String) : '#' ∈ (p ++ "#" ++ n).toList := by simp
  simp only [text] at h
  split at h
  · next hpage =>
    split at h
    · next hpage' => rw [hpage, hpage', h]
    · next => exact absurd (h ▸ hmem page' name') hi
  · split at h
    · next => exact absurd (h ▸ hmem page name) hj
    · -- The names are the longest ends without the character.
      have hreverse := congrArg (List.reverse ∘ String.toList) h
      simp only [Function.comp_apply, String.toList_append, List.reverse_append] at hreverse
      obtain ⟨hname, -, hpage⟩ := Text.first_unique (p := (· = '#'))
        (fun c hc e => hi (e ▸ List.mem_reverse.mp hc)) rfl
        (fun c hc e => hj (e ▸ List.mem_reverse.mp hc)) rfl hreverse
      obtain rfl := String.toList_inj.mp (List.reverse_inj.mp hname)
      obtain rfl := String.toList_inj.mp (List.reverse_inj.mp hpage)
      rfl

theorem escaped_inj (hi : '#' ∉ i.name.toList) (hj : '#' ∉ j.name.toList)
    (h : i.escaped = j.escaped) : i = j :=
  text_inj hi hj (Markup.escapeString_injective h)

end LabelId

end Folio
