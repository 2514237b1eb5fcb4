import Folio.Date
import Folio.Markup.Escape
import Folio.Style

/-!
# The preamble

The head of a book comes from a template, which names the values that a template engine puts in. The
title, version and authors are running text; the date has the short name of its month.
-/

namespace Folio

open Markup

/-- A template engine: a template with the values of its names put in, or what is wrong with it. -/
abbrev TemplateEngine : Type := String → (String → Option String) → Except String String

/-- What stands for the project's own style where it has none. -/
def noCustomStyle : String := "// No custom.typ found\n"

/-- What the head of a book says. -/
structure Imprint where
  sitename : String
  version : String
  authors : String
  /-- The project's own style. -/
  customStyle : Option String
  date : Date

/-- The values for the names of a template. -/
def Imprint.value? (i : Imprint) (name : String) : Option String :=
  if name = "style_asset" then some Style.fileName
  else if name = "custom_style" then some (i.customStyle.getD noCustomStyle)
  else if name = "title" then some (escapeContent i.sitename)
  else if name = "date" then some i.date.text
  else if name = "version" then some (escapeContent i.version)
  else if name = "authors" then some (escapeContent i.authors)
  else none

/-- The preamble of a book from a template, or what is wrong with the template. -/
def preamble (engine : TemplateEngine) (template : String) (imprint : Imprint) :
    Except String String :=
  engine template imprint.value?

end Folio
