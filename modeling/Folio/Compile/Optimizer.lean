import Folio.Compile.Machine

/-!
# Optimisers

An optimiser makes a PDF smaller in place and answers whether it could. When the external program is
missing, cannot be started or ends badly, or when there is no file to measure, a notice says so and
the work goes on; it fails only where no file can have the name, or when it is interrupted.
-/

namespace Folio

/-- Why an optimiser fails. -/
inductive OptimizerFault
  | disk (fault : DiskFault)
  | interrupted (kind : String)

/-- An optimiser. -/
abbrev Optimizer : Type := Location → Job OptimizerFault Bool

namespace Optimizer

/-- The size of a file. -/
def size (pdf : Location) : Job ToolFault Nat := Job.read .disk fun disk => disk.size pdf

/-- Has a program optimise a PDF. -/
def shrink (m : Machine) (verbose : Bool) (executable : String) (pdf : Location) :
    Job ToolFault Unit := do
  let before ← size pdf
  Job.notice (.optimizing before)
  m.run ⟨[executable, "optimize", pdf.toString], .none, if verbose then .shown else .discarded⟩
  let after ← size pdf
  Job.notice (.optimized before after)

/-- What a failed attempt comes to: a notice, unless no file can have the name or it is
interrupted. -/
def failed : ToolFault → Job OptimizerFault Bool
  | .disk ⟨.unnameable, place⟩ => throw (.disk ⟨.unnameable, place⟩)
  | .interrupted kind => throw (.interrupted kind)
  | fault => do
    Job.notice (.optimizationFailed fault.message)
    return false

/-- The optimiser that runs an external program. -/
def external (m : Machine) (verbose : Bool) (executable : Option String) : Optimizer :=
  fun pdf desk =>
    match m.program? executable "pdfcpu" with
    | none => (Job.notice .optimizerMissing *> pure false) desk
    | some executable =>
      match shrink m verbose executable pdf desk with
      | .ok () desk => .ok true desk
      | .error fault desk => failed fault desk

end Optimizer

end Folio
