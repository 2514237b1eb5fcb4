import Folio.Proofs.Markup.Strings
import Folio.Proofs.Text.Split

/-!
# Escaping a string argument

A text is escaped for a string argument by two replacements one after the other, of the backslash
and of the double quote, each by itself with a backslash in front. The second one goes over the
backslashes that the first one has put in, and leaves them alone. So the two are one replacement of
single characters, and reading takes it back.
-/

namespace Folio

open Text

namespace Text

/-- A text with another one in place of every occurrence of a character. -/
def replaced (mark : Char) (new cs : List Char) : List Char := new.intercalate (splitAt mark cs)

/-- Every character is replaced by itself or by the new text. -/
theorem replaced_eq_flatMap (mark : Char) (new cs : List Char) :
    replaced mark new cs = cs.flatMap fun c => if c = mark then new else [c] := by
  induction cs with
  | nil => rfl
  | cons c rest ih =>
    rw [List.flatMap_cons, ← ih, replaced, splitAt]
    split
    · rw [List.intercalate_cons_of_ne_nil (splitAt_ne_nil mark rest), List.nil_append, replaced]
    · obtain ⟨part, parts, hparts⟩ := List.exists_cons_of_ne_nil (splitAt_ne_nil mark rest)
      rw [replaced, hparts]
      cases parts <;> rfl

end Text

namespace Markup

/-- The double quote is replaced after the backslash, which does not matter to what stands for a
backslash. -/
theorem replaced_replaced (cs : List Char) :
    replaced '"' ['\\', '"'] (replaced '\\' ['\\', '\\'] cs) = cs.flatMap stringChar := by
  rw [replaced_eq_flatMap, replaced_eq_flatMap, List.flatMap_assoc]
  refine congrArg (cs.flatMap ·) (funext fun c => ?_)
  by_cases hbackslash : c = '\\'
  · subst hbackslash
    rfl
  · by_cases hquote : c = '"'
    · subst hquote
      rfl
    · simp [stringChar, hbackslash, hquote]

/-- An escaped text with a double quote behind it is read back to the text, and reading stops at
that double quote, whatever follows it. Escaping is replacing the backslash and then the double
quote, which is the same as escaping each character by itself. So different texts are escaped to
different ones, and texts in a row are escaped one by one. -/
theorem escaped_text_is_read_back :
    (∀ (s : String) (rest : List Char),
      string? false ((escapeString s).toList ++ '"' :: rest) = some (s.toList, rest)) ∧
    (∀ s : String, (escapeString s).toList =
      replaced '"' ['\\', '"'] (replaced '\\' ['\\', '\\'] s.toList)) ∧
    (∀ s : String, replaced '"' ['\\', '"'] (replaced '\\' ['\\', '\\'] s.toList) =
      s.toList.flatMap fun c => if c = '\\' ∨ c = '"' then ['\\', c] else [c]) ∧
    Function.Injective escapeString ∧
    ∀ s t : String, escapeString (s ++ t) = escapeString s ++ escapeString t := by
  refine ⟨string?_escapeString, fun s => ?_, fun s => replaced_replaced s.toList,
    escapeString_injective, fun s t => ?_⟩
  · rw [toList_escapeString, replaced_replaced]
  · rw [← String.toList_inj, String.toList_append, toList_escapeString, toList_escapeString,
      toList_escapeString, String.toList_append, List.flatMap_append]

example : escapeString "\\\"" = "\\\\\\\"" := by decide +kernel

end Markup

end Folio
