import Folio.Moment
import Folio.Number.Integer
import Folio.Number.Shortest
import Folio.Text.Cut
import Folio.Text.Quoted

/-!
# Values

The values of configuration files, syntax attributes and evaluated examples: scalars, lists, and
mappings in order of appearance, whose keys are scalars or groups of scalars. A value has a shown
form, in which texts are quoted, and a plain form, in which a text stands for itself.
-/

namespace Folio

open Text

/-- A value without parts. -/
inductive Scalar
  | null
  | bool (b : Bool)
  | int (n : Int)
  | float (x : Number.Binary64)
  | text (s : String)
  | date (d : Date)
  | moment (m : Moment)
deriving DecidableEq

/-- The key of an entry of a mapping. -/
inductive Key
  | scalar (s : Scalar)
  | group (parts : List Scalar)
deriving DecidableEq

/-- A value. -/
inductive Value
  | scalar (s : Scalar)
  | list (items : List Value)
  | map (entries : List (Key × Value))

namespace Scalar

/-- The shown form of a scalar. -/
def shown : Scalar → String
  | null => "None"
  | bool b => if b then "True" else "False"
  | int n => toString n
  | float x => x.text
  | text s => quoted s
  | date d =>
    "datetime.date(" ++ joinWith ", " (([d.year, d.month, d.day] : List Nat).map toString) ++ ")"
  | moment m => m.shown

/-- The plain form of a scalar. -/
def plain : Scalar → String
  | text s => s
  | date d => d.iso
  | moment m => m.iso
  | s => s.shown

/-- A scalar is filled unless it is null, false, zero or empty. -/
def isFilled : Scalar → Bool
  | null => false
  | bool b => b
  | int n => n != 0
  | float x => !x.isZero
  | text s => s != ""
  | date _ => true
  | moment _ => true

/-- Whether a scalar can be shown: an integer with too many digits cannot. -/
def isShowable : Scalar → Bool
  | int n => n.natAbs < Number.pow10 Number.mostDigits
  | _ => true

/-- The integer that a number or truth value equals. -/
def toInt? : Scalar → Option Int
  | bool b => some (if b then 1 else 0)
  | int n => some n
  | float x => x.toInt?
  | _ => none

/-- Whether two scalars are the same in a key: numbers are compared by what they amount to, and
moments by when they are. -/
def isSame (a b : Scalar) : Bool :=
  match a, b with
  | moment m, moment n => m.isSame n
  | a, b =>
    match a.toInt?, b.toInt? with
    | some m, some n => m == n
    | none, none => a == b
    | _, _ => false

end Scalar

namespace Key

/-- A text key. -/
abbrev text (s : String) : Key := scalar (.text s)

/-- The shown form of a key. -/
def shown : Key → String
  | scalar s => s.shown
  | group parts => grouped (parts.map Scalar.shown)

/-- The plain form of a key. -/
def plain : Key → String
  | scalar s => s.plain
  | k => k.shown

/-- Whether a key can be shown. -/
def isShowable : Key → Bool
  | scalar s => s.isShowable
  | group parts => parts.all Scalar.isShowable

/-- Whether two keys cannot stand in one mapping. -/
def isSame : Key → Key → Bool
  | scalar a, scalar b => a.isSame b
  | group as, group bs => as.length == bs.length && (as.zip bs).all fun (a, b) => a.isSame b
  | _, _ => false

end Key

namespace Value

/-- The scalar that a value is. -/
def scalar? : Value → Option Scalar
  | scalar s => some s
  | _ => none

/-- The null value. -/
abbrev null : Value := scalar .null

/-- A text value. -/
abbrev text (s : String) : Value := scalar (.text s)

/-- An integer value. -/
abbrev int (n : Int) : Value := scalar (.int n)

/-- A truth value. -/
abbrev bool (b : Bool) : Value := scalar (.bool b)

mutual

/-- The shown form of a value. -/
def shown : Value → String
  | scalar s => s.shown
  | list items => "[" ++ joinWith ", " (shownItems items) ++ "]"
  | map entries => "\x7b" ++ joinWith ", " (shownEntries entries) ++ "\x7d"

/-- The shown forms of the items of a list. -/
def shownItems : List Value → List String
  | [] => []
  | v :: rest => v.shown :: shownItems rest

/-- The shown forms of the entries of a mapping. -/
def shownEntries : List (Key × Value) → List String
  | [] => []
  | (k, v) :: rest => (k.shown ++ ": " ++ v.shown) :: shownEntries rest

end

/-- The plain form of a value. -/
def plain : Value → String
  | scalar s => s.plain
  | v => v.shown

mutual

/-- Whether a value can be shown. -/
def isShowable : Value → Bool
  | scalar s => s.isShowable
  | list items => areShowable items
  | map entries => entriesShowable entries

/-- Whether the items of a list can be shown. -/
def areShowable : List Value → Bool
  | [] => true
  | v :: rest => v.isShowable && areShowable rest

/-- Whether the entries of a mapping can be shown. -/
def entriesShowable : List (Key × Value) → Bool
  | [] => true
  | (k, v) :: rest => k.isShowable && v.isShowable && entriesShowable rest

end

/-- A value is filled unless it is null, false, zero or empty. -/
def isFilled : Value → Bool
  | scalar s => s.isFilled
  | list items => !items.isEmpty
  | map entries => !entries.isEmpty

/-- The value of a text key among the entries of a mapping. -/
def lookup? (key : String) : List (Key × Value) → Option Value
  | [] => none
  | (k, v) :: rest => if k = .text key then some v else lookup? key rest

/-- The value of a text key of a mapping. -/
def get? (v : Value) (key : String) : Option Value :=
  match v with
  | map entries => lookup? key entries
  | _ => none

end Value

end Folio
