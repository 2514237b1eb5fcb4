import Folio.Compile.Compiler
import Folio.Compile.Optimizer

/-!
# Compiling a book

A book is compiled, and its PDF optimised where that is wanted. When the compiler fails, everything
in the directory of the source is first copied to a directory that is kept. An interrupt is no
failure: it passes through, and nothing is kept.
-/

namespace Folio

/-- A failed compilation. -/
structure CompilationFault where
  file : String
  compiler : String
  reason : ToolFault

/-- The wording of a failed compilation. -/
def CompilationFault.message (f : CompilationFault) : String :=
  "Compiling " ++ f.file ++ " with the " ++ f.compiler ++ " backend failed: " ++ f.reason.message

/-- Why a book is not compiled. -/
inductive CompileFault
  | failed (fault : CompilationFault)
  /-- What a failed compilation leaves cannot be kept, or the PDF cannot be looked for. -/
  | disk (fault : DiskFault)
  | interrupted (kind : String)

/-- A fault of the optimiser as one of the compilation. -/
def CompileFault.ofOptimizer : OptimizerFault → CompileFault
  | .disk fault => disk fault
  | .interrupted kind => interrupted kind

namespace Compile

/-- Copies a directory to one that is kept, and says so. -/
def preserve (directory kept : Location) : Job CompileFault Unit := do
  Job.copyTree .disk directory kept
  Job.notice (.compilationFailed kept.toString)

/-- What comes of a compiler that does not succeed: an interrupt passes through, and any other fault
fails the compilation, once everything is kept. -/
def failed (compiler : Compiler) (kept source : Location) :
    ToolFault → Job CompileFault (Option Location)
  | .interrupted kind => throw (.interrupted kind)
  | reason => do
    preserve source.parent kept
    throw (.failed ⟨source.name, compiler.name, reason⟩)

/-- Whether a PDF is to be optimised: it is wanted, and the PDF is there. -/
def optimizes (settings : CompileSettings) (pdf : Location) (disk : Disk) : Except DiskFault Bool :=
  if settings.optimize && settings.backend ≠ .none then disk.isFile pdf else .ok false

/-- Optimises a PDF where that is wanted. -/
def optimized (optimizer : Optimizer) (settings : CompileSettings) (pdf : Location) :
    Job CompileFault Unit := do
  if ← Job.read .disk (optimizes settings pdf) then
    let _ ← EStateM.adaptExcept .ofOptimizer (optimizer pdf)

/-- Compiles a source file. -/
def book (compiler : Compiler) (optimizer : Optimizer) (kept : Location)
    (settings : CompileSettings) (source : Location) : Job CompileFault (Option Location) :=
  fun desk =>
    match compiler.compile settings source desk with
    | .error reason desk => failed compiler kept source reason desk
    | .ok none desk => .ok none desk
    | .ok (some pdf) desk => (optimized optimizer settings pdf *> pure (some pdf)) desk

end Compile

end Folio
