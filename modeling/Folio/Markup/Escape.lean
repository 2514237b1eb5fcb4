/-!
# Escapes

In running text every character that has a meaning in markup gets a backslash in front. Inside a
string argument only the backslash and the double quote do.
-/

namespace Folio.Markup

/-- The characters with a meaning in running text. -/
def contentSpecials : List Char := "@#*_\\$/`<>".toList

/-- One character of running text. -/
def contentChar (c : Char) : List Char := if contentSpecials.contains c then ['\\', c] else [c]

/-- One character of a string argument. -/
def stringChar (c : Char) : List Char := if c = '\\' ∨ c = '"' then ['\\', c] else [c]

/-- A text as running text. -/
def escapeContent (s : String) : String := String.ofList (s.toList.flatMap contentChar)

/-- A text as the inside of a string argument. -/
def escapeString (s : String) : String := String.ofList (s.toList.flatMap stringChar)

end Folio.Markup
