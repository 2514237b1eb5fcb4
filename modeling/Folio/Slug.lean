import Folio.Text.Blank
import Folio.Text.Word

/-!
# Slugs

The slug of a text is a label: its words, less every character that is no word character, full
stop, plus sign or hyphen, joined by hyphens.
-/

namespace Folio

open Text

/-- Characters that a slug keeps from a text. -/
def isSlugChar (c : Char) : Bool := isWord c || c = '.' || c = '+' || c = '-'

/-- The slug of a list of characters. -/
def slugChars (cs : List Char) : List Char :=
  ['-'].intercalate (words (cs.filter fun c => isSlugChar c || isBlank c))

/-- The slug of a text. -/
def slug (s : String) : String := String.ofList (slugChars s.toList)

end Folio
