import Folio.Table

/-!
# Filling tables

A table filled from a list of entries answers like the list itself. When every entry is put, the
last one with a key decides; when entries never replace each other, the first one does. The keys
and values of the entries are functions of whatever the list holds.
-/

namespace Folio.Table

variable {κ α ι : Type} [DecidableEq κ]

/-- The value of a key stands in the table under the key. -/
theorem mem_of_get?_eq_some {table : Table κ α} {key : κ} {value : α}
    (h : table.get? key = some value) : (key, value) ∈ table := by
  induction table with
  | nil => cases h
  | cons entry rest ih =>
    obtain ⟨k, v⟩ := entry
    rw [get?] at h
    split at h
    · next hk =>
      subst hk
      cases h
      exact List.mem_cons_self
    · exact List.mem_cons_of_mem _ (ih h)

/-- In a table that lists no key twice, the value of a key is the one that stands under it. -/
theorem get?_eq_some_iff {table : Table κ α} (hkeys : table.keys.Nodup) {key : κ} {value : α} :
    table.get? key = some value ↔ (key, value) ∈ table := by
  refine ⟨mem_of_get?_eq_some, fun hmem => ?_⟩
  induction table with
  | nil => cases hmem
  | cons entry rest ih =>
    obtain ⟨k, v⟩ := entry
    obtain ⟨hk, hrest⟩ := List.nodup_cons.mp hkeys
    rcases List.mem_cons.mp hmem with hsame | hmem
    · cases hsame
      rw [get?, if_pos rfl]
    · have hne : k ≠ key := by
        rintro rfl
        exact hk (List.mem_map.mpr ⟨_, hmem, rfl⟩)
      rw [get?, if_neg hne]
      exact ih hrest hmem

theorem get?_eq_none_iff {table : Table κ α} {key : κ} :
    table.get? key = none ↔ key ∉ table.keys := by
  induction table with
  | nil => exact iff_of_true rfl nofun
  | cons entry rest ih =>
    obtain ⟨k, v⟩ := entry
    rw [get?, keys, List.map_cons, List.mem_cons, not_or, ← keys, ← ih]
    by_cases h : k = key
    · simp [h]
    · simp [h, Ne.symm h]

theorem get?_append (table others : Table κ α) (key : κ) :
    get? key (table ++ others) = (table.get? key).or (others.get? key) := by
  induction table with
  | nil => rfl
  | cons entry rest ih =>
    obtain ⟨k, v⟩ := entry
    rw [List.cons_append, get?, get?, ih]
    split <;> rfl

omit [DecidableEq κ] in
theorem keys_concat (table : Table κ α) (key : κ) (value : α) :
    keys (table ++ [(key, value)]) = table.keys ++ [key] := List.map_append

/-- A key that is put replaces its value in the first part that has one. -/
theorem put_append (table others : Table κ α) (key : κ) (value : α) :
    put key value (table ++ others) =
      if key ∈ table.keys then table.put key value ++ others else table ++
        others.put key value := by
  induction table with
  | nil => rfl
  | cons entry rest ih =>
    obtain ⟨k, v⟩ := entry
    have hkeys : key ∈ keys ((k, v) :: rest) ↔ key = k ∨ key ∈ keys rest := List.mem_cons
    rw [List.cons_append, put, put, ih]
    by_cases h : k = key
    · rw [if_pos h, if_pos h, if_pos (hkeys.mpr (.inl h.symm)), List.cons_append]
    · simp only [if_neg h, hkeys, Ne.symm h, false_or]
      split <;> rfl

/-- After putting a list of entries, a key has the value of its last entry, if it has one. -/
theorem get?_foldl_put (key : ι → κ) (value : ι → α) (entries : List ι) (table : Table κ α)
    (k : κ) :
    (entries.foldl (fun t e => t.put (key e) (value e)) table).get? k =
      ((entries.filter fun e => key e = k).getLast?.map value).or (table.get? k) := by
  induction entries generalizing table with
  | nil => rfl
  | cons e rest ih =>
    rw [List.foldl_cons, ih, get?_put]
    by_cases h : key e = k
    · rw [List.filter_cons_of_pos (by simpa using h), List.getLast?_cons]
      cases (rest.filter fun e => key e = k).getLast? <;> simp [h]
    · rw [List.filter_cons_of_neg (by simpa using h), if_neg h]

/-- After putting a list of entries, a key has the value of the last entry with this key. -/
theorem get?_foldl_put_of_split {key : ι → κ} {value : ι → α} {entries before after : List ι}
    {e : ι} (hsplit : entries = before ++ e :: after) (hafter : ∀ x ∈ after, key x ≠ key e)
    (table : Table κ α) :
    (entries.foldl (fun t e => t.put (key e) (value e)) table).get? (key e) = some (value e) := by
  have hnone : (after.filter fun x => key x = key e) = [] :=
    List.filter_eq_nil_iff.mpr fun x hx => by simpa using hafter x hx
  rw [get?_foldl_put, hsplit, List.filter_append, List.filter_cons_of_pos (by simp), hnone,
    List.getLast?_concat]
  rfl

/-- After offering a list of entries, a key keeps its value or has that of its first entry. -/
theorem get?_foldl_putNew (key : ι → κ) (value : ι → α) (entries : List ι) (table : Table κ α)
    (k : κ) :
    (entries.foldl (fun t e => t.putNew (key e) (value e)) table).get? k =
      (table.get? k).or ((entries.find? fun e => key e = k).map value) := by
  induction entries generalizing table with
  | nil => simp
  | cons e rest ih =>
    rw [List.foldl_cons, ih, get?_putNew]
    by_cases h : key e = k
    · subst h
      cases table.get? (key e) <;> simp
    · simp [h]

/-- After putting a list of entries, the keys are those from before and behind them the new ones, in
the order in which they are first met. -/
theorem keys_foldl_put (key : ι → κ) (value : ι → α) (entries : List ι) (table : Table κ α) :
    (entries.foldl (fun t e => t.put (key e) (value e)) table).keys =
      table.keys ++ ((entries.map key).filter fun k => k ∉ table.keys).eraseDups := by
  induction entries generalizing table with
  | nil => simp
  | cons e rest ih =>
    rw [List.foldl_cons, ih, keys_put, List.map_cons]
    by_cases h : key e ∈ table.keys
    · rw [if_pos h, List.filter_cons_of_neg (by simpa using h)]
    · rw [if_neg h, List.filter_cons_of_pos (by simpa using h), List.eraseDups_cons,
        List.filter_filter, List.append_assoc, List.singleton_append]
      congr 4
      funext k
      rw [Bool.eq_iff_iff]
      simp [and_comm]

/-- A table is another one brought up to date: every key has the value of its last entry, or else
its value from before, and the new keys come behind those from before in the order of their first
entries. -/
structure Updates (entries before after : Table κ α) : Prop where
  get? (key : κ) : after.get? key =
    ((entries.filter fun e => e.1 = key).getLast?.map Prod.snd).or (before.get? key)
  keys : after.keys = before.keys ++
    ((entries.map Prod.fst).filter fun key => key ∉ before.keys).eraseDups

theorem updates_putAll (entries table : Table κ α) : Updates entries table (table.putAll entries) :=
  ⟨get?_foldl_put Prod.fst Prod.snd entries table, keys_foldl_put Prod.fst Prod.snd entries table⟩

end Folio.Table
