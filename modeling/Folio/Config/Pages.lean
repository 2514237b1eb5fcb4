import Folio.Config.Fault

/-!
# Page lists

The page list of a configuration is nested: an entry is a path, a title with a path, a title with a
list of pages below it, or a bare list of pages. It is flattened in order; what stands in a list
inside the list is one level deeper, and a title with a list gives an entry of its own before the
pages below it.
-/

namespace Folio

/-- One entry of a flattened page list. -/
structure PageEntry where
  title : String
  /-- The path of the page; empty for a title with pages below it. -/
  path : String
  depth : Int
deriving DecidableEq

mutual

/-- The entries that one entry of a nested page list gives. -/
def flattenEntry (depth : Int) : Value → Except ConfigFault (List PageEntry)
  | .scalar (.text path) => .ok [⟨"", path, depth⟩]
  | .list entries => flattenPages (depth + 1) entries
  | .map [(title, .scalar (.text path))] => title.plainText.map fun title => [⟨title, path, depth⟩]
  | .map [(title, .list entries)] =>
    match title.plainText with
    | .error f => .error f
    | .ok title => (flattenPages (depth + 1) entries).map (⟨title, "", depth⟩ :: ·)
  | .map [(title, _)] => title.plainText.bind fun title => .error (.titleWithoutPage title)
  | entry => if entry.isShowable then .error (.unknownEntry entry) else .error .unshowable

/-- The entries of a nested page list from a depth on. -/
def flattenPages (depth : Int) : List Value → Except ConfigFault (List PageEntry)
  | [] => .ok []
  | entry :: rest =>
    match flattenEntry depth entry with
    | .error f => .error f
    | .ok first => (flattenPages depth rest).map (first ++ ·)

end

end Folio
