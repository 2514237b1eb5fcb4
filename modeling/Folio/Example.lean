import Folio.Fault
import Folio.Text.Blank
import Folio.Value.Basic

/-!
# Examples

What running a piece of example code gives, and what is shown of it: the printed output if there is
any, or else the value of the last expression. An error of the code is shown as well; but a value
that cannot be shown, and whatever ends the code and is no error, end the page.
-/

namespace Folio

open Text

/-- The outcome of an example. -/
inductive Outcome
  /-- The printed output, and the value of the last expression or null. -/
  | returned (output : String) (value : Value)
  /-- The kind of an error with its message. -/
  | raised (error message : String)
  /-- The code is ended by something that is no error, such as an interrupt. -/
  | interrupted (kind : String)

/-- Whoever runs examples. -/
abbrev Evaluator : Type := String → Outcome

/-- What is shown under an example that printed something or has a value; empty if neither. -/
def shownResult (output : String) (value : Value) : Except Fault String :=
  if trim output ≠ "" then .ok (String.ofList (dropEndWhile (· = '\n') output.toList))
  else match value with
    | .scalar .null => .ok ""
    | value => if value.isShowable then .ok value.shown else .error .unshowable

end Folio
