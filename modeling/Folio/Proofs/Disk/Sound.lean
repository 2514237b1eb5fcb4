import Folio.Proofs.Disk.Copy
import Mathlib.Data.List.Nodup

/-!
# Sound disks

A disk is sound if it lists every place once, and behind the directory that the place is in. Writing
a file keeps a disk sound, and every directory where it is. On a sound disk everything in a
directory that can be read can be copied into a fresh one.
-/

namespace Folio.Disk

open Location

variable {d d' made : Disk} {l place source target : Location} {names : List String}
  {entry : Entry} {entries : List (List String × Entry)}

/-- Every place is listed once, and behind the directory that it is in. -/
inductive IsSound : Disk → Prop
  | nil : IsSound []
  | concat {d : Disk} {place : Location} (entry : Entry) (h : IsSound d) (hnew : place ∉ d.keys)
    (hparent : d.at? place.parent = some .directory) : IsSound (d ++ [(place, entry)])

/-- A place is listed once on a sound disk. -/
theorem IsSound.nodup (h : d.IsSound) : d.keys.Nodup := by
  induction h with
  | nil => exact List.nodup_nil
  | @concat d place entry _ hnew _ ih =>
    rw [Table.keys_concat, ← List.concat_eq_append]
    exact List.Nodup.concat hnew ih

/-! ### Directories stay where they are -/

/-- Every directory of a disk is one of another disk too. -/
def KeepsDirectories (d d' : Disk) : Prop :=
  ∀ p, d.at? p = some .directory → d'.at? p = some .directory

theorem KeepsDirectories.refl (d : Disk) : KeepsDirectories d d := fun _ => id

/-- Names lead to the same place while their directories are kept. -/
theorem KeepsDirectories.follow (h : KeepsDirectories d d') {whole : Location}
    (hfollow : d.follow whole place names = .ok l) : d'.follow whole place names = .ok l := by
  induction names generalizing place with
  | nil => exact hfollow
  | cons name rest ih =>
    rw [Disk.follow] at hfollow ⊢
    split at hfollow
    · next hplace =>
      rw [h place hplace]
      split at hfollow
      · cases hfollow
      · next hname => simpa only [if_neg hname] using ih hfollow
    · cases hfollow
    · cases hfollow

/-- A path is found at the same place while directories are kept. -/
theorem KeepsDirectories.find (h : KeepsDirectories d d') (hfind : d.find l = .ok place) :
    d'.find l = .ok place := by
  obtain ⟨u, hcheck, hfollow⟩ := bind_ok hfind
  unfold Disk.find
  rw [hcheck]
  exact h.follow hfollow

/-- A path is a directory if it is found and one stands there. -/
theorem isDirectory_iff : d.isDirectory l = .ok true ↔
    d.find l = .ok l.resolved ∧ d.at? l.resolved = some .directory := by
  unfold isDirectory look
  cases hfind : d.find l with
  | ok place =>
    obtain rfl := find_eq hfind
    simp [Except.map]
  | error f =>
    refine iff_of_false ?_ nofun
    by_cases hlong : f.trouble = .tooLong
    · simp [hlong, Except.map]
    · simp [hlong, Except.map]

/-- Directories remain directories. -/
theorem KeepsDirectories.isDirectory (h : KeepsDirectories d d') (hl : d.isDirectory l = .ok true) :
    d'.isDirectory l = .ok true := by
  obtain ⟨hfind, hplace⟩ := isDirectory_iff.mp hl
  exact isDirectory_iff.mpr ⟨h.find hfind, h _ hplace⟩

/-- A directory is found in front of what is added behind it. -/
theorem at?_append_directory (h : d.at? place = some .directory) (more : Disk) :
    Disk.at? (d ++ more) place = some .directory := by
  unfold at? at h ⊢
  split at h
  · next hroot => rw [if_pos hroot]
  · next hroot => rw [if_neg hroot, Table.get?_append, h, Option.some_or]

/-- Putting something where no directory is keeps all directories. -/
theorem keepsDirectories_put (h : d.at? place ≠ some .directory) (entry : Entry) :
    KeepsDirectories d (d.put place entry) := by
  intro p hp
  have hne : place ≠ p := fun hsame => h (hsame ▸ hp)
  rw [at?_put_place (names_ne_nil_of_at? h), if_neg hne, hp]

/-! ### A disk stays sound -/

/-- Something may be put where no directory is, in a directory that there is. -/
theorem IsSound.put (h : d.IsSound) (hplace : d.at? place ≠ some .directory)
    (hparent : d.at? place.parent = some .directory) (entry : Entry) :
    IsSound (d.put place entry) := by
  have hroot := names_ne_nil_of_at? hplace
  by_cases hmem : place ∈ d.keys
  · clear hparent
    induction h with
    | nil => cases hmem
    | @concat d p e h hnew hparent ih =>
      rw [Table.put_append]
      by_cases hfirst : place ∈ d.keys
      · have hsome : (d.get? place).isSome := by
          rw [Option.isSome_iff_ne_none]
          exact fun hnone => Table.get?_eq_none_iff.mp hnone hfirst
        have hthere : d.at? place ≠ some .directory := by
          intro hdirectory
          exact hplace (at?_append_directory hdirectory _)
        rw [if_pos hfirst]
        refine .concat e (ih hthere hfirst) ?_ (keepsDirectories_put hthere entry _ hparent)
        rwa [Table.keys_put, if_pos hfirst]
      · have hsame : place = p := by
          rw [Table.keys_concat, List.mem_append] at hmem
          exact List.mem_singleton.mp (hmem.resolve_left hfirst)
        subst hsame
        rw [if_neg hfirst, Table.put, if_pos rfl]
        exact .concat entry h hfirst hparent
  · have hput : d.put place entry = d ++ [(place, entry)] := by
      have happend := Table.put_append d [] place entry
      rwa [List.append_nil, if_neg hmem] at happend
    rw [hput]
    exact .concat entry h hmem hparent

/-- What is found on a sound disk has directories above it. -/
theorem stands_of_find (h : d.find l = .ok place) : d.Stands place := by
  obtain ⟨u, -, hfollow⟩ := bind_ok h
  refine stands_of_follow ?_ hfollow
  rintro ⟨_, _⟩ ⟨rfl, hl⟩ hne
  obtain rfl := List.prefix_nil.mp hl
  exact absurd rfl hne

/-- A place with a name is not its own parent. -/
theorem parent_ne (h : place.names ≠ []) : place.parent ≠ place := by
  intro hsame
  have hlength := congrArg (fun l => l.names.length) hsame
  have hpos := List.length_pos_iff.mpr h
  simp only [Location.parent, List.length_dropLast] at hlength
  omega

/-- A file is written where no directory is, in a directory that there is. -/
theorem place_of_write {content : Content} (h : d.write l content = .ok d') :
    d.at? l.resolved ≠ some .directory ∧ d.at? l.resolved.parent = some .directory := by
  unfold write at h
  split at h
  · cases h
  · next place hfind =>
    obtain rfl := find_eq hfind
    split at h
    · cases h
    · next hplace =>
      have hroot := names_ne_nil_of_at? hplace
      exact ⟨hplace, stands_of_find hfind _ (contains_parent _) (parent_ne hroot)⟩

/-- Whether a disk is sound and has a directory where a location leads to. -/
structure Hosts (d : Disk) (l : Location) : Prop where
  sound : d.IsSound
  directory : d.isDirectory l = .ok true

/-- Writing a file keeps a disk sound and its directories where they are. -/
theorem Hosts.write (h : d.Hosts source) {content : Content} (hwrite : d.write l content = .ok d') :
    d'.Hosts source := by
  obtain ⟨hplace, hparent⟩ := place_of_write hwrite
  obtain ⟨-, rfl⟩ := write_ok hwrite
  exact ⟨h.sound.put hplace hparent _, (keepsDirectories_put hplace _).isDirectory h.directory⟩

/-! ### Directories that are made and copied -/

/-- Making directories along the way keeps those that are there. -/
theorem keepsDirectories_makeAlong {whole : Location}
    (h : d.makeAlong whole place names = .ok d') : KeepsDirectories d d' := by
  induction names generalizing d place with
  | nil => exact Except.ok.inj h ▸ .refl d
  | cons name rest ih =>
    simp only [makeAlong] at h
    split at h
    · cases h
    · split at h
      · exact ih h
      · cases h
      · next hnone =>
        have hother : d.at? (place.enter name) ≠ some .directory := by simp [hnone]
        exact fun p hp => ih h p (keepsDirectories_put hother _ p hp)

/-- A directory that is made can be walked to. -/
theorem follow_of_makeAlong {whole : Location} (h : d.makeAlong whole place names = .ok made)
    (hplace : d.at? place = some .directory) :
    made.follow whole place names = .ok (names.foldl enter place) := by
  induction names generalizing d place with
  | nil => rfl
  | cons name rest ih =>
    have hthere := keepsDirectories_makeAlong h place hplace
    simp only [makeAlong] at h
    split at h
    · cases h
    · next hname =>
      simp only [Disk.follow, hthere, if_neg hname, List.foldl_cons]
      split at h
      · next hnext => exact ih h hnext
      · cases h
      · next hnone =>
        refine ih h ?_
        rw [at?_put_place (names_ne_nil_of_none hnone), if_pos rfl]

/-- A directory that was made is found. -/
theorem find_of_makeDirectory (h : d.makeDirectory l = .ok made) :
    made.find l = .ok l.resolved := by
  obtain ⟨u, hcheck, hmade⟩ := bind_ok h
  have hroot : d.at? ⟨l.root, []⟩ = some .directory := by rw [at?, if_pos rfl]
  unfold Disk.find
  rw [hcheck]
  exact follow_of_makeAlong hmade hroot

/-- Entries of a directory, each of them once, and behind the directory that it is in unless that is
the whole. -/
inductive AreSound : List (List String × Entry) → Prop
  | nil : AreSound []
  | concat {entries : List (List String × Entry)} {names : List String} (entry : Entry)
    (h : AreSound entries) (hne : names ≠ []) (hnew : names ∉ entries.map Prod.fst)
    (hparent : names.dropLast = [] ∨ (names.dropLast, .directory) ∈ entries) :
    AreSound (entries ++ [(names, entry)])

/-- The parent of a place below is below by one name less. -/
theorem parent_below (hnames : names ≠ []) :
    (place.below ⟨"", names⟩).parent = place.below ⟨"", names.dropLast⟩ := by
  simp only [Location.below, if_true, Location.parent, List.dropLast_append_of_ne_nil hnames]

/-- What is below a place on a sound disk is listed as it is on the disk. -/
theorem areSound_below (h : d.IsSound) (place : Location) : AreSound (d.below place) := by
  induction h with
  | nil => exact .nil
  | @concat d l entry h hnew hparent ih =>
    have happend : Disk.below (d ++ [(l, entry)]) place =
        d.below place ++ Disk.below [(l, entry)] place := List.filterMap_append
    rw [happend]
    rcases hfrom : place.from? l with _ | _ | ⟨name, names⟩
    · simpa only [Disk.below, List.filterMap_cons, hfrom, List.filterMap_nil, List.append_nil]
        using ih
    · simpa only [Disk.below, List.filterMap_cons, hfrom, List.filterMap_nil, List.append_nil]
        using ih
    · have hl := from?_eq_some_iff.mp hfrom
      have hone : Disk.below [(l, entry)] place = [(name :: names, entry)] := by
        simp only [Disk.below, List.filterMap_cons, hfrom, List.filterMap_nil]
      rw [hone]
      refine .concat entry ih (List.cons_ne_nil _ _) (fun hmem => hnew ?_) ?_
      · obtain ⟨⟨_, other⟩, hother, rfl⟩ := List.mem_map.mp hmem
        have hplace := (mem_below (List.cons_ne_nil _ _)).mp hother
        exact List.mem_map.mpr ⟨_, hplace, hl.symm⟩
      · by_cases hfirst : (name :: names).dropLast = []
        · exact .inl hfirst
        · refine .inr ((mem_below hfirst).mpr ?_)
          have hbelow : l = place.below ⟨"", name :: names⟩ := hl
          rw [hbelow, parent_below (List.cons_ne_nil _ _), at?, if_neg] at hparent
          · exact Table.mem_of_get?_eq_some hparent
          · exact fun hroot => hfirst (List.append_eq_nil_iff.mp hroot).2

/-- Entries to be copied have different names. -/
theorem AreSound.nodup (h : AreSound entries) : (entries.map Prod.fst).Nodup := by
  induction h with
  | nil => exact List.nodup_nil
  | @concat entries names entry _ _ hnew _ ih =>
    rw [List.map_append, List.map_singleton, ← List.concat_eq_append]
    exact List.Nodup.concat hnew ih

/-- No entry to be copied is the directory itself. -/
theorem AreSound.ne_nil (h : AreSound entries) : ∀ e ∈ entries, e.1 ≠ [] := by
  induction h with
  | nil => exact nofun
  | concat entry _ hne _ _ ih =>
    exact List.forall_mem_append.mpr ⟨ih, List.forall_mem_singleton.mpr hne⟩

/-- Entries are copied one after the other, and all of them if each part is. -/
theorem putCopies_append (d : Disk) (place : Location) (es fs : List (List String × Entry)) :
    d.putCopies place (es ++ fs) =
      (((d.putCopies place es).1.putCopies place fs).1,
        (d.putCopies place es).2 && ((d.putCopies place es).1.putCopies place fs).2) := by
  induction es generalizing d with
  | nil => simp [putCopies]
  | cons e rest ih =>
    obtain ⟨names, entry⟩ := e
    rw [List.cons_append, putCopies, putCopies]
    split
    · exact ih _
    · simp [ih]

/-- Leaving out what cannot be read leaves every directory. -/
theorem AreSound.readable (h : AreSound entries) :
    AreSound (entries.filter fun e => e.2.isReadable) := by
  induction h with
  | nil => exact .nil
  | @concat entries names entry _ hne hnew hparent ih =>
    rw [List.filter_append]
    cases hreadable : entry.isReadable with
    | false => simpa [hreadable] using ih
    | true =>
      have hnew : names ∉ (entries.filter fun e => e.2.isReadable).map Prod.fst :=
        fun hmem => hnew ((List.filter_sublist.map Prod.fst).subset hmem)
      simpa [hreadable] using ih.concat entry hne hnew
        (hparent.imp_right fun hmem => List.mem_filter.mpr ⟨hmem, rfl⟩)

/-- What can be read can be copied to a place in a directory where nothing is. -/
theorem exists_putCopy (hparent : d.at? place.parent = some .directory)
    (hplace : d.at? place = none)
    (hreadable : entry.isReadable) : ∃ d', d.putCopy place entry = .ok d' := by
  unfold putCopy putFile
  rw [if_neg (by simp [hreadable]), if_neg (by simp [hparent])]
  cases entry <;> simp [hplace]

/-- Sound entries that can be read can all be copied into a directory with nothing in it. -/
theorem putCopies_whole (hplace : d.at? place = some .directory) (hentries : AreSound entries)
    (hreadable : ∀ e ∈ entries, e.2.isReadable)
    (hfresh : ∀ names ≠ [], d.at? (place.below ⟨"", names⟩) = none) :
    ∃ d', d.putCopies place entries = (d', true) := by
  induction hentries with
  | nil => exact ⟨d, rfl⟩
  | @concat entries names entry h hne hnew hparent ih =>
    obtain ⟨hothers, hentry⟩ := List.forall_mem_append.mp hreadable
    obtain ⟨mid, hmid⟩ := ih hothers
    have hnothing : ∀ e ∈ entries, d.at? (place.below ⟨"", e.1⟩) = none := fun e he =>
      hfresh e.1 (h.ne_nil e he)
    obtain ⟨hthere, hkept⟩ := at?_putCopies hmid h.nodup hnothing
    have hdirectory : mid.at? (place.below ⟨"", names⟩).parent = some .directory := by
      rw [parent_below hne]
      rcases hparent with hfirst | hparent
      · rw [hfirst, below_nil, hkept, hplace]
        intro e he hsame
        have hnone := hnothing e he
        rw [hsame, hplace] at hnone
        cases hnone
      · exact hthere _ hparent
    have hfree : mid.at? (place.below ⟨"", names⟩) = none := by
      rw [hkept, hfresh names hne]
      intro e he hsame
      exact hnew (below_injective hsame ▸ List.mem_map_of_mem he)
    obtain ⟨d', hcopy⟩ := exists_putCopy hdirectory hfree (hentry _ List.mem_cons_self)
    refine ⟨d', ?_⟩
    rw [putCopies_append, hmid]
    simp only [putCopies, hcopy, Bool.and_self]

/-- Whether everything below a place can be read. -/
def isReadableBelow (d : Disk) (place : Location) : Bool :=
  (d.below place).all fun e => e.2.isReadable

/-- Everything in a directory of a sound disk that can be read is copied into a fresh one that can
be made, and the copy is whole if that is everything. -/
theorem copyTree_fresh (h : d.Hosts source) (hfresh : d.IsFresh target)
    (hmade : d.makeDirectory target = .ok made) :
    ∃ d', d.copyTree source target = .ok (d', d.isReadableBelow source.resolved) ∧
      ∀ names ≠ [], d'.at? (target.below ⟨"", names⟩) =
        (d.at? (source.resolved.below ⟨"", names⟩)).filter Entry.isReadable := by
  obtain ⟨hfind, hdirectory⟩ := isDirectory_iff.mp h.directory
  have htarget := find_of_makeDirectory hmade
  rw [hfresh.resolved_eq] at htarget
  obtain ⟨d', hcopies⟩ := putCopies_whole (at?_makeDirectory_end hmade hfresh.straight)
    (areSound_below h.sound source.resolved).readable (fun e he => (List.mem_filter.mp he).2)
    (at?_makeDirectory_below hmade hfresh.straight hfresh.empty)
  have hwhole := putCopies_eq made target (d.below source.resolved)
  rw [hcopies, Bool.true_and] at hwhole
  refine ⟨d', ?_, (at?_putCopies_below hmade h.sound.nodup hfresh.straight hfresh.empty hcopies).2⟩
  simp only [copyTree, bind, Except.bind, hfind, hdirectory, hmade, htarget, hwhole]
  rfl

end Folio.Disk
