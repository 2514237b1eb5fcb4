import Folio.Disk
import Folio.Node.Describe

/-!
# Faults

What stops the writing of a page. Whatever was written before a fault stays written.
-/

namespace Folio

/-- Why a page cannot be written. -/
inductive Fault
  /-- A link to a fragment that the page does not have. -/
  | unresolved (fragment page : String)
  /-- A node that has no markup of its own. -/
  | unsupported (node : Node)
  /-- Kinds of nodes that no rule covers. -/
  | uncovered (kinds : List String)
  /-- A node that cannot stand where it is: at the root of a tree, or inside a list, a listing or a
  documentation block. -/
  | misplaced
  /-- The depth of a table of contents with too many digits. -/
  | depthTooLong
  /-- Footnotes that refer to each other in a circle. -/
  | circularFootnote
  /-- The value of an example that cannot be shown, since a number in it has too many digits. -/
  | unshowable
  /-- An example that is ended by something that is no error. -/
  | interrupted (kind : String)
  /-- A hand-written page without its file. -/
  | missingRawPage (file : String)
  /-- A file that cannot be looked for. -/
  | disk (fault : DiskFault)

/-- The wording of a fault; some have none. -/
def Fault.message? : Fault → Option String
  | unresolved fragment page => some ("No anchor '" ++ fragment ++ "' in page '" ++ page ++ "'")
  | unsupported node => some (node.kind ++ " not implemented: " ++ node.describe)
  | uncovered kinds => some ("No Typst handler for node kinds: " ++ Text.joinWith ", " kinds)
  | misplaced | depthTooLong | circularFootnote | unshowable | interrupted _ => none
  | missingRawPage file => some ("Typst file not found: " ++ file)
  | disk fault => some fault.message

end Folio
