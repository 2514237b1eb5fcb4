import Folio.Render.Context

/-!
# Addresses and image paths

An address with a scheme is taken over as it stands. The path of any other image is resolved
against the page that shows it, or against the source directory if it starts with a slash.
-/

namespace Folio

open Text

/-- Whether a character may stand in a scheme. -/
def isSchemeChar (c : Char) : Bool :=
  ('A' ≤ c && c ≤ 'Z') || ('a' ≤ c && c ≤ 'z') || c = '+' || c = '-' || c = '.'

/-- Whether an address names its scheme. -/
def isAbsoluteUrl (s : String) : Bool :=
  let (scheme, rest) := s.toList.span isSchemeChar
  !scheme.isEmpty && (after? "://".toList rest).isSome

/-- The path under which an image is included. -/
def imagePath (page destination : String) (isLocal : Bool) : String :=
  let target := Path.withSlashes destination.toList
  let shown := String.ofList target
  if isLocal || isAbsoluteUrl shown then shown
  else
    String.ofList (match target with
      | '/' :: _ => Path.collapse (target.dropWhile (· = '/'))
      | _ => Path.resolve (Path.withSlashes page.toList) target)

/-- What is noticed about the path of an image. -/
def imageCheck (r : Renderer) (page destination : String) (isLocal : Bool) : Draft :=
  let shown := String.ofList (Path.withSlashes destination.toList)
  if isLocal then .empty
  else if isAbsoluteUrl shown then .notice (.remoteImage page shown)
  else match r.assets with
    | none => .empty
    | some folder =>
      let path := imagePath page destination isLocal
      .ofExcept (folder.hasFile path) fun found =>
        .when (!found) (.notice (.missingImage path page))

end Folio
