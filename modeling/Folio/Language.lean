import Folio.Text.Blank
import Folio.Text.Cut

/-!
# Languages of code blocks

The info string of a code fence names a language in its first word, up to a comma. Interactive
sessions count as their language, a name that a highlighter knows becomes the first one that it has
for the language, and any other name stays as it is.
-/

namespace Folio.Language

open Text

/-- Interactive sessions and their languages; these names are matched exactly. -/
def sessions : List (String × String) := [
  ("pycon", "python"), ("python-repl", "python"), (">>>", "python"), ("julia-repl", "julia"),
  ("jlcon", "julia"), ("@repl", "julia")]

/-- A highlighter: the names of the language that a name finds, if it finds one. -/
abbrev Lexers : Type := String → Option (List String)

/-- The name that counts for a language: the first one that the highlighter has for it. -/
def canonical (lexers : Lexers) (name : String) : String :=
  match lexers name with
  | some names => names.headD name
  | none => name

/-- The first word of an info string up to a comma. -/
def firstWord (info : String) : String :=
  match words info.toList with
  | [] => ""
  | w :: _ => String.ofList (w.takeWhile (· ≠ ','))

/-- The language that an info string names. -/
def ofInfo (lexers : Lexers) (info : String) : String :=
  let name := firstWord info
  if name = "" ∨ name = "text/plain" then "text"
  else match sessions.lookup name with
    | some language => language
    | none => canonical lexers name

end Folio.Language
