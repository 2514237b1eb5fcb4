import Folio.Text.Cut

/-!
# Paths

Page paths are relative to the source directory, with slashes between their segments.
-/

namespace Folio.Path

open Text

/-- Every backslash becomes a slash. -/
def withSlashes (cs : List Char) : List Char := cs.map fun c => if c = '\\' then '/' else c

/-- Removes every leading `./`. -/
def dropHere : List Char → List Char
  | '.' :: '/' :: rest => dropHere rest
  | cs => cs

/-- A page path with slashes, without leading `./` and without the build directory in front. -/
def normalChars (base path : List Char) : List Char :=
  let path := dropHere (withSlashes path)
  let base := (((withSlashes base).reverse.dropWhile (· = '/'))).reverse
  if base.isEmpty then path else (after? (base ++ ['/']) path).getD path

/-- A page path as it is used in labels, for books built in the directory `base`. -/
def normal (base path : String) : String := String.ofList (normalChars base.toList path.toList)

/-- The segments between slashes. -/
def segments (cs : List Char) : List (List Char) := splitAt '/' cs

/-- Takes one segment into the reversed list of segments already walked: a double dot leaves the
last one, unless there is none to leave. -/
def step (rooted : Bool) (walked : List (List Char)) (segment : List Char) : List (List Char) :=
  if segment = [] ∨ segment = ['.'] then walked
  else if segment = ['.', '.'] then
    match walked with
    | [] => if rooted then [] else [segment]
    | last :: rest => if last = ['.', '.'] then segment :: walked else rest
  else segment :: walked

/-- The slashes a path starts with: none, one, or exactly two; three or more count as one. -/
def root : List Char → List Char
  | '/' :: '/' :: '/' :: _ => ['/']
  | '/' :: '/' :: _ => ['/', '/']
  | '/' :: _ => ['/']
  | _ => []

/-- A path with its dots and double slashes resolved. -/
def collapse (cs : List Char) : List Char :=
  let start := root cs
  let walked := (segments cs).foldl (step (!start.isEmpty)) []
  let path := start ++ ['/'].intercalate walked.reverse
  if path.isEmpty then ['.'] else path

/-- The directory of a path: everything before the last slash, without slashes at its end unless
it has nothing else. -/
def folder (cs : List Char) : List Char :=
  let head := (cs.reverse.dropWhile (· ≠ '/')).reverse
  if head.all (· = '/') then head else (head.reverse.dropWhile (· = '/')).reverse

/-- A path seen from a directory. -/
def join (directory path : List Char) : List Char :=
  match path with
  | '/' :: _ => path
  | _ =>
    if directory.isEmpty || directory.getLast? = some '/' then directory ++ path
    else directory ++ '/' :: path

/-- The path that a link or image on a page leads to. -/
def resolve (page target : List Char) : List Char := collapse (join (folder page) target)

end Folio.Path
