import Folio.Number.Fixed

/-!
# Notices

What is reported while a book is written, compiled and published, apart from the results.
-/

namespace Folio

/-- How much a notice matters. -/
inductive Severity
  | info
  | warning
  | error
deriving DecidableEq

/-- The name of a severity. -/
def Severity.name : Severity → String
  | info => "INFO"
  | warning => "WARNING"
  | error => "ERROR"

/-- One report. -/
inductive Notice
  /-- An image given by an address on the network. -/
  | remoteImage (page address : String)
  | missingImage (path page : String)
  | missingFootnote (id page : String)
  /-- A page at a depth for which there is no heading. -/
  | depthOutOfRange (name : String) (depth : Int)
  | emptyPage (path : String)
  | undocumented (name page : String)
  | unterminatedExample (page : String)
  | exampleFailed (page error message : String)
  | converting (count : Nat)
  | converted
  | debugCopy (place : String)
  | compiling (compiler : String)
  | compiled
  | compilationSkipped (file : String)
  | compilationFailed (place : String)
  | optimizerMissing
  | optimizing (size : Nat)
  | optimized (before after : Nat)
  | optimizationFailed (reason : String)

namespace Notice

/-- How much a notice matters. -/
def severity : Notice → Severity
  | converting _ | converted | debugCopy _ | compiling _ | compiled | compilationSkipped _
  | optimizing _ | optimized .. => .info
  | compilationFailed _ => .error
  | _ => .warning

/-- A size in megabytes. -/
def megabytes (size : Nat) : String := Number.fixed 2 false size (1024 * 1024) ++ " MB"

/-- The wording of a notice. Running times are left at zero. -/
def message : Notice → String
  | remoteImage page address =>
    "images with absolute URLs are not supported in Typst output in " ++ page ++ ": " ++ address
  | missingImage path page => "image " ++ path ++ " referenced in " ++ page ++ " not found"
  | missingFootnote id page => "footnote definition not found for [^" ++ id ++ "] in " ++ page
  | depthOutOfRange name depth =>
    "skipping " ++ name ++ ": nesting depth " ++ toString depth ++ " is too deep"
  | emptyPage path => "skipping " ++ path ++ ": page has no parsed content"
  | undocumented name page => "no documentation found for " ++ name ++ " in " ++ page
  | unterminatedExample page =>
    "unterminated @typst-example in " ++ page ++ "; closing at end of file"
  | exampleFailed page error message =>
    "example in " ++ page ++ " failed: " ++ error ++ ": " ++ message
  | converting count => "converting " ++ toString count ++ " pages to Typst"
  | converted => "Typst conversion completed in 0.00s"
  | debugCopy place => "Typst sources copied for debugging to " ++ place
  | compiling compiler => "compiling Typst to PDF (" ++ compiler ++ ")"
  | compiled => "Typst compilation completed in 0.00s"
  | compilationSkipped file => "skipping compilation (backend=none) for " ++ file
  | compilationFailed place =>
    "compilation failed; logs and partial output can be found in " ++ place
  | optimizerMissing => "PDF optimisation skipped: pdfcpu not found"
  | optimizing size => "optimizing PDF with pdfcpu (" ++ megabytes size ++ ")"
  | optimized before after =>
    "PDF optimization completed: " ++ megabytes after ++ ", " ++
      Number.percentSmaller before after ++ "% smaller in 0.00s"
  | optimizationFailed reason =>
    "PDF optimization failed, using unoptimized version: " ++ reason

/-- The line of a notice in a log. -/
def line (n : Notice) : String := n.severity.name ++ ": " ++ n.message

end Notice

end Folio
