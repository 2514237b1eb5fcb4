import Folio.Book.InPlace
import Folio.Directive

/-!
# Expanding hand-written pages in place

One session serves for all hand-written pages of a book. Expanding a page starts it in the session,
which clears what the page before has left in the surroundings; documentation adds its footnotes to
those of the page and is written apart, and everything else is put together beside the session. A
page that cannot be expanded leaves the session as it was when it failed, and the next page starts
from there.
-/

namespace Folio

/-- Whom hand-written pages are expanded with, apart from the one who writes nodes. -/
structure Collaborators where
  lookup : Lookup
  evaluator : Evaluator
  /-- The language of examples. -/
  language : String

/-- What hand-written pages are expanded with, the writer of nodes included. -/
def Collaborators.expander (k : Collaborators) (r : Renderer) : Expander :=
  ⟨r, k.lookup, k.evaluator, k.language⟩

namespace Writing

open Draft Text Directive

/-- The text of a draft that is written nowhere; what is noticed is reported. -/
def spelled (d : Draft) : Writing String := fun s =>
  let s := { s with notices := s.notices ++ d.notices }
  match d.fault with
  | none => .ok d.text s
  | some f => .error f s

variable (k : Collaborators) (page : String) (names : List String)

/-- The documentation of a binding, written apart, without line ends behind it. -/
def documentation (name : String) : Writing String := do
  match k.lookup.find? name with
  | none =>
    spelled (notice (.undocumented name page) >>
      markup "#text(fill: red)[Missing documentation: #raw(" >> literal name >>
      markup ", block: false)]")
  | some found =>
    let n := Node.binding name found.category found.bodies page
    collectFootnotes n
    let text ← renderFragment [n]
    return String.ofList (dropEndWhile (· = '\n') text.toList)

/-- Expands a segment. -/
def segment (segment : Segment) : Writing String := do
  let x := k.expander (← get).renderer
  match segment with
  | .sample lines closed => spelled (x.sample page lines closed)
  | .docs name => documentation k page name
  | .comment line => return line
  | .plain line => spelled (x.line page names (Directive.parts line))

/-- Expands segments in order. -/
def segments : List Segment → Writing (List String)
  | [] => return []
  | s :: rest => do
    let text ← segment k page names s
    return text :: (← segments rest)

/-- Expands a page: each segment stands on a line of its own. -/
def expandPage (text : String) : Writing String := do
  startPage page 1
  let ls := lines text
  let texts ← segments k page (ls.filterMap documented?) (Segment.ofLines ls)
  return joinWith "\n" texts ++ if endsWith text "\n" then "\n" else ""

/-- Expands pages one after the other, also behind one that cannot be expanded: what comes of each
of them, and the session behind the last. -/
def expandEach : List (String × String) → Session → List (Except Fault String) × Session
  | [], s => ([], s)
  | (page, text) :: rest, s =>
    match expandPage k page text s with
    | .ok expanded s =>
      let (outcomes, s) := expandEach rest s
      (.ok expanded :: outcomes, s)
    | .error fault s =>
      let (outcomes, s) := expandEach rest s
      (.error fault :: outcomes, s)

end Writing

end Folio
