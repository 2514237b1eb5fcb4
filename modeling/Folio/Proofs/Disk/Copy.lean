import Folio.Proofs.Disk.Files
import Folio.Proofs.Table

/-!
# What a copied directory holds

A directory that is copied whole into a fresh one is found there entry by entry, provided that the
disk lists no place twice: each entry is put at a place of its own, where nothing was before.
-/

namespace Folio.Disk

open Location

variable {d d' made : Disk} {place source target : Location} {names : List String}
  {entries : List (List String × Entry)} {entry : Entry}

theorem mem_below (hnames : names ≠ []) :
    (names, entry) ∈ d.below place ↔ (place.below ⟨"", names⟩, entry) ∈ d := by
  unfold below
  rw [List.mem_filterMap]
  constructor
  · rintro ⟨⟨l, e⟩, hmem, hfound⟩
    simp only at hfound
    split at hfound
    · next name rest hfrom =>
      cases hfound
      rwa [from?_eq_some_iff.mp hfrom] at hmem
    · cases hfound
  · intro hmem
    obtain ⟨name, rest, rfl⟩ := List.exists_cons_of_ne_nil hnames
    exact ⟨_, hmem, by simp only [from?_below]⟩

theorem ne_nil_of_mem_below (h : (names, entry) ∈ d.below place) : names ≠ [] := by
  obtain ⟨⟨l, e⟩, -, hfound⟩ := List.mem_filterMap.mp h
  simp only at hfound
  split at hfound
  · cases hfound
    exact List.cons_ne_nil _ _
  · cases hfound

/-- What is below a place is listed once if the disk lists everything once. -/
theorem nodup_below (h : d.keys.Nodup) (place : Location) :
    ((d.below place).map Prod.fst).Nodup := by
  induction d with
  | nil => exact List.nodup_nil
  | cons e rest ih =>
    obtain ⟨l, entry⟩ := e
    obtain ⟨hl, hrest⟩ := List.nodup_cons.mp h
    have hbelow := ih hrest
    rcases hfrom : place.from? l with _ | _ | ⟨name, names⟩
    · simpa only [Disk.below, List.filterMap_cons, hfrom] using hbelow
    · simpa only [Disk.below, List.filterMap_cons, hfrom] using hbelow
    · simp only [Disk.below, List.filterMap_cons, hfrom, List.map_cons]
      refine List.nodup_cons.mpr ⟨fun hmem => ?_, hbelow⟩
      obtain ⟨⟨_, other⟩, hother, rfl⟩ := List.mem_map.mp hmem
      have hplace := (mem_below (List.cons_ne_nil _ _)).mp hother
      rw [from?_eq_some_iff.mp hfrom] at hl
      exact hl (List.mem_map.mpr ⟨_, hplace, rfl⟩)

/-- What is copied to a place where nothing is stands there afterwards, and nothing else changes. -/
theorem at?_putCopy (h : d.putCopy place entry = .ok d') (hplace : d.at? place = none)
    (other : Location) : d'.at? other = if place = other then some entry else d.at? other := by
  have hroot := names_ne_nil_of_none hplace
  have hput : d' = d.put place entry := by
    unfold putCopy putFile at h
    split at h
    · cases h
    split at h
    · cases h
    · cases entry with
      | directory =>
        simp only [hplace] at h
        exact (Except.ok.inj h).symm
      | file content =>
        simp only [hplace] at h
        exact (Except.ok.inj h).symm
  rw [hput, at?_put_place hroot]

/-- Entries that are all copied, each to a place of its own where nothing is, stand there
afterwards, and nothing else changes. -/
theorem at?_putCopies (h : d.putCopies place entries = (d', true))
    (hkeys : (entries.map Prod.fst).Nodup)
    (hfresh : ∀ e ∈ entries, d.at? (place.below ⟨"", e.1⟩) = none) :
    (∀ e ∈ entries, d'.at? (place.below ⟨"", e.1⟩) = some e.2) ∧
      ∀ other, (∀ e ∈ entries, place.below ⟨"", e.1⟩ ≠ other) → d'.at? other = d.at? other := by
  induction entries generalizing d with
  | nil =>
    cases h
    exact ⟨nofun, fun _ _ => rfl⟩
  | cons e rest ih =>
    obtain ⟨names, entry⟩ := e
    obtain ⟨hnames, hrest⟩ := List.nodup_cons.mp hkeys
    obtain ⟨hplace, hothers⟩ := List.forall_mem_cons.mp hfresh
    rw [putCopies] at h
    split at h
    · next mid hcopy =>
      have hmid := at?_putCopy hcopy hplace
      have hapart : ∀ e ∈ rest, place.below ⟨"", names⟩ ≠ place.below ⟨"", e.1⟩ := by
        intro e he hsame
        exact hnames (List.mem_map.mpr ⟨e, he, (below_injective hsame).symm⟩)
      have hstill : ∀ e ∈ rest, mid.at? (place.below ⟨"", e.1⟩) = none := by
        intro e he
        rw [hmid, if_neg (hapart e he)]
        exact hothers e he
      obtain ⟨hthere, hkept⟩ := ih h hrest hstill
      refine ⟨List.forall_mem_cons.mpr ⟨?_, hthere⟩, fun other hother => ?_⟩
      · rw [hkept _ fun e he => (hapart e he).symm, hmid, if_pos rfl]
      · obtain ⟨hfirst, hother⟩ := List.forall_mem_cons.mp hother
        rw [hkept other hother, hmid, if_neg hfirst]
    · cases h

/-- Making a directory changes nothing but on the way to it. -/
theorem at?_makeAlong {whole other : Location} (h : d.makeAlong whole place names = .ok d')
    (hstraight : ".." ∉ names) (hother : ¬other.Contains (place.below ⟨"", names⟩)) :
    d'.at? other = d.at? other := by
  induction names generalizing d place with
  | nil => rw [Except.ok.inj h]
  | cons name rest ih =>
    obtain ⟨hname, hrest⟩ := List.ne_and_not_mem_of_not_mem_cons hstraight
    rw [below_cons] at hother
    simp only [makeAlong, enter, if_neg (Ne.symm hname)] at h
    split at h
    · cases h
    · split at h
      · exact ih h hrest hother
      · cases h
      · next hnone =>
        have hroot := names_ne_nil_of_none hnone
        have hne : place.child name ≠ other := by
          rintro rfl
          exact hother (contains_below ..)
        rw [ih h hrest hother, at?_put_place hroot, if_neg hne]

theorem at?_makeDirectory {other : Location} (h : d.makeDirectory target = .ok made)
    (hstraight : ".." ∉ target.names) (hother : ¬other.Contains target) :
    made.at? other = d.at? other := by
  obtain ⟨_, -, h⟩ := bind_ok h
  exact at?_makeAlong h hstraight hother

/-- A directory that is made is a directory. -/
theorem at?_makeAlong_end {whole : Location} (h : d.makeAlong whole place names = .ok d')
    (hstraight : ".." ∉ names) (hplace : d.at? place = some .directory) :
    d'.at? (place.below ⟨"", names⟩) = some .directory := by
  induction names generalizing d place with
  | nil => rw [← Except.ok.inj h, below_nil, hplace]
  | cons name rest ih =>
    obtain ⟨hname, hrest⟩ := List.ne_and_not_mem_of_not_mem_cons hstraight
    rw [below_cons]
    simp only [makeAlong, enter, if_neg (Ne.symm hname)] at h
    split at h
    · cases h
    · split at h
      · next hnext => exact ih h hrest hnext
      · cases h
      · next hnone =>
        refine ih h hrest ?_
        rw [at?_put_place (names_ne_nil_of_none hnone), if_pos rfl]

theorem at?_makeDirectory_end (h : d.makeDirectory target = .ok made)
    (hstraight : ".." ∉ target.names) : made.at? target = some .directory := by
  obtain ⟨_, -, h⟩ := bind_ok h
  have hroot : d.at? ⟨target.root, []⟩ = some .directory := by rw [at?, if_pos rfl]
  simpa only [Location.below, if_true, List.nil_append] using at?_makeAlong_end h hstraight hroot

/-- Making a directory changes what is on the way to it only, so nothing is below it yet. -/
theorem at?_makeDirectory_below (h : d.makeDirectory target = .ok made)
    (hstraight : ".." ∉ target.names)
    (hfresh : ∀ name names, d.at? (target.below ⟨"", name :: names⟩) = none) :
    ∀ names ≠ [], made.at? (target.below ⟨"", names⟩) = none := by
  intro names hnames
  obtain ⟨name, rest, rfl⟩ := List.exists_cons_of_ne_nil hnames
  have hbeyond : ¬(target.below ⟨"", name :: rest⟩).Contains target := by
    intro hcontains
    rw [below_cons] at hcontains
    exact not_contains_child target name ((contains_below _ rest).trans hcontains)
  rw [at?_makeDirectory h hstraight hbeyond, hfresh name rest]

/-- What can be read below a place, all copied into a fresh directory, is found there entry by
entry, and nothing else is. -/
theorem at?_putCopies_below (hmade : d.makeDirectory target = .ok made) (hkeys : d.keys.Nodup)
    (hstraight : ".." ∉ target.names)
    (hfresh : ∀ name names, d.at? (target.below ⟨"", name :: names⟩) = none)
    (h : made.putCopies target ((d.below place).filter fun e => e.2.isReadable) = (d', true)) :
    d'.at? target = some .directory ∧
      ∀ names ≠ [], d'.at? (target.below ⟨"", names⟩) =
        (d.at? (place.below ⟨"", names⟩)).filter Entry.isReadable := by
  have hnothing := at?_makeDirectory_below hmade hstraight hfresh
  have hfresh : ∀ e ∈ (d.below place).filter fun e => e.2.isReadable,
      made.at? (target.below ⟨"", e.1⟩) = none :=
    fun e he => hnothing _ (ne_nil_of_mem_below (List.mem_of_mem_filter he))
  obtain ⟨hthere, hkept⟩ := at?_putCopies h
    ((nodup_below hkeys place).sublist (List.filter_sublist.map Prod.fst)) hfresh
  refine ⟨?_, fun names hnames => ?_⟩
  · rw [hkept, at?_makeDirectory_end hmade hstraight]
    intro e he hsame
    have hnone := hfresh e he
    rw [hsame, at?_makeDirectory_end hmade hstraight] at hnone
    cases hnone
  have hlisted (entry : Entry) :
      (d.at? (place.below ⟨"", names⟩)).filter Entry.isReadable = some entry ↔
        (names, entry) ∈ (d.below place).filter fun e => e.2.isReadable := by
    have hroot : (place.below ⟨"", names⟩).names ≠ [] := by simp [Location.below, hnames]
    rw [Option.filter_eq_some_iff, List.mem_filter, mem_below hnames, at?, if_neg hroot,
      Table.get?_eq_some_iff hkeys]
  cases hfound : (d.at? (place.below ⟨"", names⟩)).filter Entry.isReadable with
  | some entry => exact hthere _ ((hlisted entry).mp hfound)
  | none =>
    rw [hkept, hnothing names hnames]
    intro e he hsame
    obtain rfl := below_injective hsame
    have hentry := (hlisted e.2).mpr he
    rw [hfound] at hentry
    cases hentry

/-- What cannot be read is left out of a copy, which is not whole then. -/
theorem putCopies_eq (d : Disk) (place : Location) (entries : List (List String × Entry)) :
    d.putCopies place entries =
      ((d.putCopies place (entries.filter fun e => e.2.isReadable)).1,
        (d.putCopies place (entries.filter fun e => e.2.isReadable)).2 &&
          entries.all fun e => e.2.isReadable) := by
  induction entries generalizing d with
  | nil => rfl
  | cons e rest ih =>
    obtain ⟨names, entry⟩ := e
    rw [List.all_cons, List.filter_cons, putCopies]
    cases hreadable : entry.isReadable with
    | true =>
      simp only [if_true, putCopies, Bool.true_and]
      split
      · exact ih _
      · rw [ih]
        rfl
    | false =>
      have hcopy : d.putCopy (place.below ⟨"", names⟩) entry =
          .error ⟨.denied, place.below ⟨"", names⟩⟩ := by
        unfold putCopy
        simp [hreadable]
      rw [hcopy, ih]
      simp

/-- A directory that is copied whole into a fresh one is found there entry by entry. -/
theorem at?_copyTree (h : d.copyTree source target = .ok (d', true)) (hkeys : d.keys.Nodup)
    (hstraight : ".." ∉ target.names)
    (hfresh : ∀ name names, d.at? (target.below ⟨"", name :: names⟩) = none) :
    d'.at? target = some .directory ∧
      ∀ names ≠ [], d'.at? (target.below ⟨"", names⟩) =
        d.at? (source.resolved.below ⟨"", names⟩) := by
  obtain ⟨made, hmade, hcopies⟩ := copyTree_ok h
  rw [resolved_of_not_mem hstraight, putCopies_eq, Prod.mk.injEq, Bool.and_eq_true,
    List.all_eq_true] at hcopies
  obtain ⟨hdisk, hwhole, hreadable⟩ := hcopies
  obtain ⟨hdirectory, hcontents⟩ := at?_putCopies_below hmade hkeys hstraight hfresh
    (Prod.ext hdisk hwhole)
  refine ⟨hdirectory, fun names hnames => ?_⟩
  rw [hcontents names hnames]
  cases hentry : d.at? (source.resolved.below ⟨"", names⟩) with
  | none => rfl
  | some entry =>
    have hroot : (source.resolved.below ⟨"", names⟩).names ≠ [] := by simp [Location.below, hnames]
    rw [at?, if_neg hroot, Table.get?_eq_some_iff hkeys, ← mem_below hnames] at hentry
    exact if_pos (hreadable _ hentry)

end Folio.Disk
