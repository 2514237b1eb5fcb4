import Folio.Number.Integer
import Folio.Text.Blank
import Folio.Text.Cut

/-!
# Options of listings

A listing may be restricted to some pages by a line `Pages = ["a.md", "b.md"]`, and a table of
contents to some levels by a line `Depth = 3`. Blanks may stand anywhere around the parts, across
lines too where no text is split; the first line of each form counts.
-/

namespace Folio

open Text

/-- What a listing covers. -/
structure ListingOptions where
  /-- The covered pages; all if there are none. -/
  pages : List String
  /-- The deepest level of a table of contents. -/
  depth : Nat
deriving DecidableEq

namespace ListingOptions

/-- How deep a table of contents goes unless it says so. -/
def defaultDepth : Nat := 2

/-- What is left of a text at the start of each of its lines. -/
def lineStarts : List Char → List (List Char)
  | [] => []
  | c :: rest => (if c = '\n' then [rest] else []) ++ lineStarts rest

/-- What follows a name and an equals sign at the front. -/
def setting? (name : String) (cs : List Char) : Option (List Char) := do
  let rest ← after? name.toList (cs.dropWhile isBlank)
  let rest ← after? ['='] (rest.dropWhile isBlank)
  some (rest.dropWhile isBlank)

/-- The rest of the line at the front. -/
def thisLine (cs : List Char) : List Char := cs.takeWhile (· ≠ '\n')

/-- What stands between a bracket at the front and one at the end of its line. -/
def bracketed? (cs : List Char) : Option (List Char) :=
  match thisLine cs with
  | '[' :: rest =>
    match rest.reverse.dropWhile isBlank with
    | ']' :: inside => some inside.reverse
    | _ => none
  | _ => none

/-- The digits that fill the line at the front. -/
def number? (cs : List Char) : Option (List Char) :=
  let (digits, rest) := (thisLine cs).span isDecimal
  if !digits.isEmpty && rest.all isBlank then some digits else none

/-- The names in quotes; `opened` holds what follows a quote that may open one, last to first. -/
def namesAfter (opened : Option (List Char)) : List Char → List (List Char)
  | [] => []
  | c :: rest =>
    if c = '"' ∨ c = '\'' then
      match opened with
      | some (d :: name) => (d :: name).reverse :: namesAfter none rest
      | _ => namesAfter (some []) rest
    else namesAfter (opened.map (c :: ·)) rest

/-- The options that a text gives, unless the depth has too many digits. -/
def ofText? (text : String) : Option ListingOptions :=
  let starts := text.toList :: lineStarts text.toList
  let pages := starts.findSome? fun cs => (setting? "Pages" cs).bind bracketed?
  let pages := ((pages.map (namesAfter none)).getD []).map String.ofList
  match starts.findSome? fun cs => (setting? "Depth" cs).bind number? with
  | none => some { pages, depth := defaultDepth }
  | some digits => (Number.ofDigits? digits).map fun depth => { pages, depth }

/-- Whether a page is covered: it is one of the pages or ends with one after a slash. -/
def covers (o : ListingOptions) (path : String) : Bool :=
  o.pages.isEmpty || o.pages.any fun p => path = p || endsWith path ("/" ++ p)

end ListingOptions

end Folio
