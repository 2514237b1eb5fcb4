import Folio.Preamble
import Folio.Text.Blank
import Folio.Text.Cut
import Folio.Text.Line

/-!
# Templates

The template engine that the program runs with. A name between double braces stands for its value,
which is inserted as it is and not looked into again; there is nothing else to a template.
-/

namespace Folio

open Text

/-- A part of a template. -/
inductive TemplatePart
  | literal (text : String)
  | name (name : String)
deriving DecidableEq

/-- The parts of a template; the fuel bounds the number of names. -/
def templateParts : Nat → List Char → List TemplatePart
  | 0, cs => [.literal (String.ofList cs)]
  | fuel + 1, cs =>
    match cut? ['\x7b', '\x7b'] cs with
    | none => [.literal (String.ofList cs)]
    | some (before, rest) =>
      match cut? ['\x7d', '\x7d'] rest with
      | none => [.literal (String.ofList cs)]
      | some (inside, rest) =>
        .literal (String.ofList before) :: .name (String.ofList (trimmed inside)) ::
          templateParts fuel rest

/-- The parts of a template, with every line end as a line feed. -/
def TemplatePart.ofText (template : String) : List TemplatePart :=
  let cs := plainLineEnds template.toList
  templateParts cs.length cs

/-- The text of parts with values for their names; a name without a value is wrong. -/
def fillTemplate (values : String → Option String) : List TemplatePart → Except String String
  | [] => .ok ""
  | .literal text :: rest => (fillTemplate values rest).map (text ++ ·)
  | .name name :: rest =>
    match values name with
    | none => .error ("'" ++ name ++ "' is undefined")
    | some value => (fillTemplate values rest).map (value ++ ·)

/-- The engine that puts in the values of names. -/
def TemplatePart.engine : TemplateEngine := fun template values =>
  fillTemplate values (ofText template)

end Folio
