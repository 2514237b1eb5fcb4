import Folio.Value.Basic
import Folio.Yaml.Cursor

/-!
# Faults of a configuration

Why a configuration cannot be used.
-/

namespace Folio

/-- Why a configuration cannot be used. -/
inductive ConfigFault
  | missingFile (path : String)
  /-- The text of the file cannot be read. -/
  | unreadable (trouble : Yaml.Trouble)
  /-- A number too long to be shown. -/
  | unshowable
  | notMapping
  | missingSitename
  | noPages
  /-- A titled entry of the page list with neither a path nor a list of pages. -/
  | titleWithoutPage (title : String)
  /-- An entry of the page list of any other form. -/
  | unknownEntry (entry : Value)
  | unknownBackend (name : String)
  /-- Settings of the compiler that are no mapping. -/
  | settingsNotMapping
  /-- Font directories that are no list. -/
  | fontsNotList

/-- The wording of a fault; some have none. -/
def ConfigFault.message? : ConfigFault → Option String
  | missingFile path => some ("Configuration file '" ++ path ++ "' not found.")
  | unreadable _ => none
  | unshowable => none
  | notMapping => some "Top-level YAML structure must be a mapping."
  | missingSitename => some "Configuration is missing 'sitename'."
  | noPages => some "No pages defined in build configuration."
  | titleWithoutPage title =>
    some ("Page '" ++ title ++ "' must map to a file path or a list of pages.")
  | unknownEntry entry => some ("Unsupported page list entry: " ++ entry.shown)
  | unknownBackend name =>
    some ("Unknown compile backend '" ++ name ++ "'. Expected one of: bundled, system, none")
  | settingsNotMapping => none
  | fontsNotList => none

/-- The plain form of a value, if it can be shown. -/
def Value.plainText (v : Value) : Except ConfigFault String :=
  if v.isShowable then .ok v.plain else .error .unshowable

/-- The plain form of a key, if it can be shown. -/
def Key.plainText (k : Key) : Except ConfigFault String :=
  if k.isShowable then .ok k.plain else .error .unshowable

end Folio
