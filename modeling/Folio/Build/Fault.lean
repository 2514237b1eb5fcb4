import Folio.Compile
import Folio.Fault
import Folio.Markdown.Convert

/-!
# Faults of a build

What stops the build of a book.
-/

namespace Folio

/-- Why a book cannot be built. -/
inductive BuildFault
  | missingSource (directory : Location)
  | missingPage (path : String) (directory : Location)
  /-- A page whose text has no syntax tree. -/
  | unreadablePage (path : String)
  /-- A page whose syntax tree has no document tree. -/
  | conversion (fault : Markdown.ConversionFault)
  | page (fault : Fault)
  /-- The template of the preamble cannot be filled. -/
  | template (reason : String)
  /-- A number in the version has too many digits. -/
  | versionTooLong
  | compilation (fault : CompilationFault)
  /-- The compilation is interrupted. -/
  | interrupted (kind : String)
  | disk (fault : DiskFault)

/-- The wording of a fault; some have none. -/
def BuildFault.message? : BuildFault → Option String
  | missingSource directory => some ("Source directory '" ++ directory.toString ++ "' not found.")
  | missingPage path directory =>
    some ("Page '" ++ path ++ "' not found in '" ++ directory.toString ++ "'.")
  | unreadablePage _ | conversion _ | versionTooLong | interrupted _ => none
  | page fault => fault.message?
  | template reason => some reason
  | compilation fault => some fault.message
  | disk fault => some fault.message

end Folio
