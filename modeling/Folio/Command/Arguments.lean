import Folio.Table
import Folio.Text.Cut
import Folio.Text.Lower

/-!
# Arguments of a command

What stands behind the name of a command: options with a value, which follows them or an equals
sign, switches, which are turned off by `no` in front of their name, and other arguments. Case does
not matter in the name of an option, and a low line stands for a dash. Everything behind a bare
double dash is an argument of its own. An option that is not given takes its value from the
environment.
-/

namespace Folio

open Text

/-- The variable of the environment that tells what is not said otherwise. -/
def variableOf (name : String) : String :=
  "TYPST_PAGES_" ++ String.ofList (name.toList.map fun c => if c = '-' then '_' else c.toUpper)

/-- The options that a command knows. -/
structure OptionNames where
  /-- The options with a value. -/
  valued : List String
  switches : List String

/-- Why arguments cannot be used. -/
inductive UsageFault
  | unknownCommand (name : String)
  | noCommand
  | unknownOption (name : String)
  | missingValue (option : String)
  | missingArgument (name : String)
  | unusedArgument (value : String)

/-- The wording of a fault. -/
def UsageFault.message : UsageFault → String
  | unknownCommand name => "Unknown command \"" ++ name ++ "\"."
  | noCommand => "No command given."
  | unknownOption name => "Unknown option: \"" ++ name ++ "\"."
  | missingValue option => "Option \"" ++ option ++ "\" requires an argument."
  | missingArgument name => "Argument \"" ++ name ++ "\" is missing."
  | unusedArgument value => "Unused argument: \"" ++ value ++ "\"."

/-- Arguments sorted into options and others. -/
structure Arguments where
  options : Table String String
  others : List String

namespace Arguments

/-- No arguments. -/
def empty : Arguments := ⟨[], []⟩

/-- What a switch that is turned on has for a value. -/
def on : String := "true"

/-- What a switch that is turned off has for a value. -/
def off : String := "false"

/-- Gives an option a value. -/
def set (a : Arguments) (name value : String) : Arguments :=
  { a with options := a.options.put name value }

/-- Adds another argument. -/
def add (a : Arguments) (value : String) : Arguments := { a with others := a.others ++ [value] }

/-- The name of an option, however it is written. -/
def optionName (cs : List Char) : String :=
  String.ofList (cs.map fun c => if c = '_' then '-' else c.toLower)

/-- An option as it is written: its name without the dashes, and the value behind an equals sign. -/
def optionOf? (argument : String) : Option (String × Option String) :=
  match after? ['-', '-'] argument.toList with
  | none => none
  | some cs =>
    match cut? ['='] cs with
    | some (name, value) => some (optionName name, some (String.ofList value))
    | none => some (optionName cs, none)

/-- Whether the value of a switch turns it on. -/
def isOn (value : String) : Bool :=
  !(["", "0", "f", "false", "n", "no", "off"].contains (lower value))

/-- Sorts arguments. -/
def sort (known : OptionNames) (a : Arguments) : List String → Except UsageFault Arguments
  | [] => .ok a
  | argument :: rest =>
    match optionOf? argument with
    | none => sort known (a.add argument) rest
    | some (name, value) =>
      if argument = "--" then .ok (rest.foldl add a)
      else if known.switches.contains name then sort known (a.set name (value.getD on)) rest
      else if known.switches.any fun s => "no-" ++ s = name then
        let turned := if isOn (value.getD on) then off else on
        sort known (a.set (String.ofList (name.toList.drop 3)) turned) rest
      else if known.valued.contains name then
        match value, rest with
        | some value, rest => sort known (a.set name value) rest
        | none, value :: rest => sort known (a.set name value) rest
        | none, [] => .error (.missingValue argument)
      else .error (.unknownOption argument)

/-- The value of an option: as it is given, or else from the environment. -/
def option? (a : Arguments) (environment : String → Option String) (name : String) :
    Option String :=
  a.options.get? name <|> environment (variableOf name)

/-- Whether a switch is turned on. -/
def switch (a : Arguments) (environment : String → Option String) (name : String) : Bool :=
  ((a.option? environment name).map isOn).getD false

end Arguments

end Folio
