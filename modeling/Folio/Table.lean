/-!
# Ordered tables

A table gives values to keys and remembers the order in which the keys were first put. Putting a
key again replaces its value and keeps its place.
-/

namespace Folio

/-- Keys with their values, in the order of the first putting. -/
abbrev Table (κ α : Type) := List (κ × α)

namespace Table

variable {κ α : Type}

/-- The value of a key. -/
def get? [DecidableEq κ] (key : κ) : Table κ α → Option α
  | [] => none
  | (k, v) :: rest => if k = key then some v else get? key rest

/-- Gives a key a value. -/
def put [DecidableEq κ] (key : κ) (value : α) : Table κ α → Table κ α
  | [] => [(key, value)]
  | (k, v) :: rest => if k = key then (key, value) :: rest else (k, v) :: put key value rest

/-- Gives a key a value unless it has one. -/
def putNew [DecidableEq κ] (key : κ) (value : α) (table : Table κ α) : Table κ α :=
  if (table.get? key).isSome then table else table.put key value

/-- Puts all entries of the second table, in order. -/
def putAll [DecidableEq κ] (table entries : Table κ α) : Table κ α :=
  entries.foldl (fun t (k, v) => t.put k v) table

/-- Whether a key has a value. -/
def has [DecidableEq κ] (key : κ) (table : Table κ α) : Bool := (table.get? key).isSome

/-- The keys in order. -/
def keys (table : Table κ α) : List κ := table.map Prod.fst

theorem get?_put [DecidableEq κ] (table : Table κ α) (key other : κ) (value : α) :
    (table.put key value).get? other = if key = other then some value else table.get? other := by
  induction table with
  | nil => simp [put, get?]
  | cons entry rest ih =>
    obtain ⟨k, v⟩ := entry
    simp only [put]
    split
    · next h => subst h; simp only [get?]; split <;> rfl
    · next h =>
      simp only [get?, ih]
      by_cases hk : k = other
      · simp [hk, show key ≠ other from fun e => h (hk.trans e.symm)]
      · simp [hk]

theorem get?_putNew [DecidableEq κ] (table : Table κ α) (key other : κ) (value : α) :
    (table.putNew key value).get? other =
      if key = other then some ((table.get? key).getD value) else table.get? other := by
  simp only [putNew]
  split
  · next h =>
    obtain ⟨v, hv⟩ := Option.isSome_iff_exists.mp h
    split
    · next he => subst he; simp [hv]
    · rfl
  · next h =>
    rw [get?_put]
    split
    · simp [Option.not_isSome_iff_eq_none.mp h]
    · rfl

/-- Keeping the entries of some keys keeps their values. -/
theorem get?_filter [DecidableEq κ] (table : Table κ α) (keep : κ → Bool) (key : κ) :
    Table.get? key (table.filter fun (k, _) => keep k) =
      if keep key then table.get? key else none := by
  induction table with
  | nil => simp [get?]
  | cons entry rest ih =>
    obtain ⟨k, v⟩ := entry
    by_cases hk : k = key
    · subst hk
      by_cases hp : keep k <;> simp [hp, get?, ih]
    · by_cases hp : keep k <;> simp [hp, get?, hk, ih]

/-- A key that is put again keeps its place; a new one comes last. -/
theorem keys_put [DecidableEq κ] (table : Table κ α) (key : κ) (value : α) :
    (table.put key value).keys = if key ∈ table.keys then table.keys else table.keys ++ [key] := by
  induction table with
  | nil => simp [put, keys]
  | cons entry rest ih =>
    obtain ⟨k, v⟩ := entry
    simp only [keys] at ih ⊢
    simp only [put]
    by_cases h : k = key
    · simp [h]
    · simp only [if_neg h, List.map_cons, ih, List.mem_cons, show key ≠ k from Ne.symm h, false_or]
      by_cases hm : key ∈ rest.map Prod.fst <;> simp [hm]

end Table

end Folio
