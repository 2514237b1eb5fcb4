import Folio.Directive.Line
import Folio.Documentation
import Folio.Example
import Folio.Render
import Folio.Text.Line

/-!
# Expanding hand-written pages

Every segment of a hand-written page is expanded by itself: an example to its code and what it
shows, a documentation directive to the documentation of its binding, references to links, and
anything else to itself. Footnotes of documentation hold for the rest of the page. The expanded
lines are joined by line feeds, and a line feed at the very end is kept.
-/

namespace Folio

open Draft Text

/-- What hand-written pages are expanded with. -/
structure Expander where
  renderer : Renderer
  lookup : Lookup
  evaluator : Evaluator
  /-- The language of examples. -/
  language : String

/-- The expansion of a page so far. -/
structure Expansion where
  draft : Draft
  /-- The footnotes met. -/
  notes : Footnotes
  /-- The bindings asked for. -/
  lookups : List String
  /-- The examples run. -/
  evaluated : List String

namespace Expander

open Directive

/-- A block of verbatim text. -/
def verbatim (language text : String) : Draft :=
  markup "#raw(" >> literal text >> markup (", block: true, lang: \"" ++ language ++ "\")")

/-- The code of an example. -/
def sampleCode (lines : List String) : String :=
  String.ofList (trimWhile (· = '\n') (joinWith "\n" lines).toList)

/-- An example: its code, and on the next line what it shows, if that can be shown. -/
def sample (x : Expander) (page : String) (lines : List String) (closed : Bool) : Draft :=
  let code := sampleCode lines
  when (!closed) (notice (.unterminatedExample page)) >> verbatim x.language code >>
    match x.evaluator code with
    | .returned output value =>
      ofExcept (shownResult output value) fun shown =>
        when (shown ≠ "") (markup "\n" >> verbatim "text" shown)
    | .raised error message =>
      notice (.exampleFailed page error message) >> markup "\n" >>
        verbatim "text" ("Error: " ++ error ++ ": " ++ message)
    | .interrupted kind => stop (.interrupted kind)

/-- The binding documented on the page that a reference names, whatever its case: the first one. -/
def localBinding? (target : String) (names : List String) : Option String :=
  names.find? fun name => lower name = lower target

/-- A reference: to the documentation on the page, or else to any label of the page. -/
def reference (x : Expander) (page : String) (names : List String) (target : String) : Draft :=
  let id := match localBinding? target names with
    | some name => .ok (x.renderer.labels.id page name)
    | none => x.renderer.labels.resolve page target
  ofExcept id fun id => ofPiece (.link (.label id)) >> markup "[" >> inlineCode target >> markup "]"

/-- A line with its references. -/
def line (x : Expander) (page : String) (names : List String) : List Part → Draft
  | [] => empty
  | .char c :: rest => markup (String.singleton c) >> line x page names rest
  | .reference target :: rest =>
    reference x page names (String.ofList target) >> line x page names rest

/-- A segment, with the footnotes of the segments before it. -/
def segment (x : Expander) (page : String) (names : List String) (notes : Footnotes) :
    Segment → Expansion
  | .sample lines closed => ⟨x.sample page lines closed, notes, [], [sampleCode lines]⟩
  | .docs name =>
    match x.lookup.find? name with
    | none =>
      ⟨notice (.undocumented name page) >>
        markup "#text(fill: red)[Missing documentation: #raw(" >> literal name >>
        markup ", block: false)]", notes, [name], []⟩
    | some found =>
      let node := Node.binding name found.category found.bodies page
      let notes := node.collectFootnotes notes
      ⟨searched node >> x.renderer.binding (Context.atPage page 1 notes)
        ⟨name, found.category, found.bodies, page⟩, notes, [name], []⟩
  | .comment line => ⟨markup line, notes, [], []⟩
  | .plain line => ⟨x.line page names (parts line), notes, [], []⟩

/-- Segments in order, each on a line of its own. -/
def segments (x : Expander) (page : String) (names : List String) (notes : Footnotes) :
    List Segment → Expansion
  | [] => ⟨empty, notes, [], []⟩
  | [s] => x.segment page names notes s
  | s :: t :: rest =>
    let first := x.segment page names notes s
    if first.draft.fault.isSome then first
    else
      let others := segments x page names first.notes (t :: rest)
      ⟨first.draft >> markup "\n" >> others.draft, others.notes, first.lookups ++ others.lookups,
        first.evaluated ++ others.evaluated⟩

/-- Segments are drafted one after the other, each with the footnotes that the one before leaves. -/
theorem draft_segments_cons (x : Expander) (page : String) (names : List String)
    (notes : Footnotes) (s t : Segment) (rest : List Segment) :
    (x.segments page names notes (s :: t :: rest)).draft =
      (x.segment page names notes s).draft >> markup "\n" >>
        (x.segments page names (x.segment page names notes s).notes (t :: rest)).draft := by
  rw [segments]
  cases hfault : (x.segment page names notes s).draft.fault with
  | some f => exact (andThen_of_fault hfault _).symm
  | none => rfl

/-- Nothing behind a segment that cannot be expanded is looked at. -/
theorem segments_of_fault {x : Expander} {page : String} {names : List String} {notes : Footnotes}
    {s : Segment} (h : (x.segment page names notes s).draft.fault ≠ none) (rest : List Segment) :
    x.segments page names notes (s :: rest) = x.segment page names notes s := by
  cases rest with
  | nil => rfl
  | cons t rest => rw [segments, if_pos (Option.isSome_iff_ne_none.mpr h)]

/-- Segments leave the footnotes that the last of them leaves. -/
theorem notes_segments_cons {x : Expander} {page : String} {names : List String}
    {notes : Footnotes} {s : Segment} (h : (x.segment page names notes s).draft.fault = none)
    (t : Segment) (rest : List Segment) :
    (x.segments page names notes (s :: t :: rest)).notes =
      (x.segments page names (x.segment page names notes s).notes (t :: rest)).notes := by
  rw [segments, h]
  rfl

/-- The expansion of a page. -/
def expand (x : Expander) (page text : String) : Expansion :=
  let ls := lines text
  let e := x.segments page (ls.filterMap documented?) [] (Segment.ofLines ls)
  { e with draft := e.draft >> when (endsWith text "\n") (markup "\n") }

end Expander

end Folio
