import Folio.Proofs.Disk.Places
import Folio.Proofs.Results

/-!
# The files that an operation leaves alone

Writing a file changes the file at its place, making a directory changes no file, and copying
changes files only below the directory that it copies into. Two disks agree on a set of places when
the files there are the same; an operation agrees with the disk before it on every set of places
that keeps clear of where it writes.
-/

namespace Folio.Disk

open Location

variable {d d' d'' : Disk} {l place other : Location} {content : Content} {S T : Location → Prop}

/-- What the file at a place holds, if there is one. -/
def file? (d : Disk) (place : Location) : Option Content :=
  match d.at? place with
  | some (.file content) => some content
  | _ => none

/-- A place has a text if a file with it is there. -/
theorem file?_eq_some_iff : d.file? place = some content ↔ d.at? place = some (.file content) := by
  unfold file?
  split
  · next h => simp [h]
  · next h => exact ⟨nofun, fun hfile => absurd hfile (h content)⟩

/-- What is read depends on the entry only. -/
theorem file?_congr (h : d'.at? other = d.at? place) : d'.file? other = d.file? place := by
  rw [file?, file?, h]

/-- What is no directory has a name. -/
theorem names_ne_nil_of_at? (h : d.at? place ≠ some .directory) : place.names ≠ [] := by
  intro hroot
  rw [at?, if_pos hroot] at h
  exact h rfl

/-- Where nothing is, a name is wanted. -/
theorem names_ne_nil_of_none (h : d.at? place = none) : place.names ≠ [] := by
  have hplace : d.at? place ≠ some .directory := by rw [h]; nofun
  exact names_ne_nil_of_at? hplace

/-- What is put at a place that is no root stands there, and nothing else changes. -/
theorem at?_put_place (hplace : place.names ≠ []) (entry : Entry) (other : Location) :
    Disk.at? (d.put place entry) other = if place = other then some entry else d.at? other := by
  by_cases hother : other.names = []
  · have hne : place ≠ other := fun h => hplace (h ▸ hother)
    rw [at?, at?, if_pos hother, if_pos hother, if_neg hne]
  · exact at?_put d place other entry hother

/-- A file that is put is the only one to change. -/
theorem file?_put (hplace : place.names ≠ []) (content : Content) (other : Location) :
    Disk.file? (d.put place (.file content)) other =
      if place = other then some content else d.file? other := by
  by_cases hsame : place = other
  · simp only [file?, at?_put_place hplace, if_pos hsame]
  · simp only [file?, at?_put_place hplace, if_neg hsame]

/-- A directory that is put where nothing was changes no file. -/
theorem file?_put_directory (h : d.at? place = none) (other : Location) :
    Disk.file? (d.put place .directory) other = d.file? other := by
  have hplace := names_ne_nil_of_none h
  by_cases hsame : place = other
  · subst hsame
    simp only [file?, at?_put_place hplace, if_true, h]
  · simp only [file?, at?_put_place hplace, if_neg hsame]

/-- A file that is written is put at its place. -/
theorem write_ok (h : d.write l content = .ok d') :
    l.resolved.names ≠ [] ∧ d' = d.put l.resolved (.file content) := by
  unfold write at h
  split at h
  · cases h
  · next place hfind =>
    obtain rfl := find_eq hfind
    split at h
    · cases h
    · next hplace =>
      cases h
      exact ⟨names_ne_nil_of_at? hplace, rfl⟩

/-- Writing changes the file that is written to only. -/
theorem file?_write (h : d.write l content = .ok d') (other : Location) :
    d'.file? other = if l.resolved = other then some content else d.file? other := by
  obtain ⟨hplace, rfl⟩ := write_ok h
  exact file?_put hplace content other

/-- A file that is read is the one at its place. -/
theorem read_ok (h : d.read l = .ok content) : d.file? l.resolved = some content := by
  unfold read at h
  split at h
  · cases h
  · next place hfind =>
    obtain rfl := find_eq hfind
    split at h
    · next hplace =>
      split at h
      · cases h
      · cases h
        exact file?_eq_some_iff.mpr hplace
    · cases h
    · cases h

/-- A text that is read is that of the file at its place, with line feeds at the ends of lines. -/
theorem readText_ok {text : String} (h : d.readText l = .ok text) :
    ∃ s, d.file? l.resolved = some (.text s) ∧
      text = String.ofList (Text.plainLineEnds s.toList) := by
  unfold readText at h
  split at h
  · next s hread =>
    cases h
    exact ⟨s, read_ok hread, rfl⟩
  · cases h
  · cases h

/-- Making directories changes no file. -/
theorem file?_makeAlong {whole : Location} {names : List String}
    (h : d.makeAlong whole place names = .ok d') (other : Location) :
    d'.file? other = d.file? other := by
  induction names generalizing d place with
  | nil => rw [Except.ok.inj h]
  | cons name rest ih =>
    simp only [makeAlong] at h
    split at h
    · cases h
    · split at h
      · exact ih h
      · cases h
      · next hnone => exact (ih h).trans (file?_put_directory hnone other)

/-- Making a directory changes no file. -/
theorem file?_makeDirectory (h : d.makeDirectory l = .ok d') (other : Location) :
    d'.file? other = d.file? other := by
  unfold makeDirectory at h
  cases hcheck : check l with
  | error f => rw [hcheck] at h; cases h
  | ok u =>
    rw [hcheck] at h
    exact file?_makeAlong h other

/-- Whether the files at some places are the same on two disks. -/
def Agree (S : Location → Prop) (d d' : Disk) : Prop :=
  ∀ place, S place → d'.file? place = d.file? place

/-- Whether places keep clear of what is below a place. -/
def Clear (S : Location → Prop) (place : Location) : Prop := ∀ p, S p → ¬place.Contains p

namespace Agree

theorem refl (S : Location → Prop) (d : Disk) : Agree S d d := fun _ _ => rfl

/-- Disks that agree with a third one agree. -/
theorem trans (h : Agree S d d') (h' : Agree S d' d'') : Agree S d d'' := fun p hp =>
  (h' p hp).trans (h p hp)

/-- Disks that agree on many places agree on fewer. -/
theorem mono (h : Agree T d d') (hST : ∀ p, S p → T p) : Agree S d d' := fun p hp =>
  h p (hST p hp)

end Agree

/-- What is inside a place that is clear is clear. -/
theorem Clear.of_contains (h : Clear S place) (hother : place.Contains other) : Clear S other :=
  fun p hp hcontains => h p hp (hother.trans hcontains)

/-- Putting a file outside of the places changes none of them. -/
theorem agree_of_put (hplace : place.names ≠ []) (content : Content) (h : Clear S place) :
    Agree S d (d.put place (.file content)) := fun p hp => by
  have hne : place ≠ p := fun hsame => h p hp (hsame ▸ Contains.refl place)
  rw [file?_put hplace, if_neg hne]

/-- Writing outside of the places changes none of them. -/
theorem agree_of_write (h : d.write l content = .ok d') (hS : Clear S l.resolved) :
    Agree S d d' := by
  obtain ⟨hplace, rfl⟩ := write_ok h
  exact agree_of_put hplace content hS

/-- Making a directory changes no file at any place. -/
theorem agree_of_makeDirectory (h : d.makeDirectory l = .ok d') : Agree S d d' := fun p _ =>
  file?_makeDirectory h p

/-- Putting a file, with its directories, outside of the places changes none of them. -/
theorem agree_of_putFile (h : d.putFile place content = .ok d') (hS : Clear S place) :
    Agree S d d' := by
  unfold putFile at h
  split at h
  · next hplace =>
    cases h
    exact agree_of_put (names_ne_nil_of_at? hplace) content hS
  · simp only at h
    split at h
    · cases h
    · next hinside =>
      cases h
      exact agree_of_put (names_ne_nil_of_at? hinside) content (hS.of_contains (contains_child ..))

/-- Copying an entry to where none of the places is changes none of them. -/
theorem agree_of_putCopy {entry : Entry} (h : d.putCopy place entry = .ok d')
    (hS : Clear S place) : Agree S d d' := by
  unfold putCopy at h
  split at h
  · cases h
  split at h
  · cases h
  · split at h
    · exact agree_of_putFile h hS
    · cases h
      exact .refl S d
    · cases h
    · next hnone _ =>
      cases h
      exact fun p _ => file?_put_directory hnone p

/-- Copying entries to where none of the places is changes none of them. -/
theorem agree_putCopies (entries : List (List String × Entry)) (hS : Clear S place) :
    Agree S d (d.putCopies place entries).1 := by
  induction entries generalizing d with
  | nil => exact .refl S d
  | cons entry rest ih =>
    obtain ⟨names, entry⟩ := entry
    rw [putCopies]
    split
    · next d' hcopy =>
      exact (agree_of_putCopy hcopy (hS.of_contains (contains_below place names))).trans ih
    · exact ih

/-- A directory that is copied is copied entry by entry into a directory that is made if need be. -/
theorem copyTree_ok {source target : Location} {whole : Bool}
    (h : d.copyTree source target = .ok (d', whole)) :
    ∃ made, d.makeDirectory target = .ok made ∧
      made.putCopies target.resolved (d.below source.resolved) = (d', whole) := by
  unfold copyTree at h
  obtain ⟨place, hsource, h⟩ := bind_ok h
  obtain rfl := find_eq hsource
  split at h
  · cases h
  · cases h
  · obtain ⟨made, hmade, h⟩ := bind_ok h
    obtain ⟨there, hthere, h⟩ := bind_ok h
    obtain rfl := find_eq hthere
    exact ⟨made, hmade, Except.ok.inj h⟩

/-- Copying a directory changes files only below the directory that it is copied into. -/
theorem agree_of_copyTree {source target : Location} {whole : Bool}
    (h : d.copyTree source target = .ok (d', whole)) (hS : Clear S target.resolved) :
    Agree S d d' := by
  obtain ⟨made, hmade, hcopies⟩ := copyTree_ok h
  have hagree := agree_putCopies (S := S) (d := made) (d.below source.resolved) hS
  rw [hcopies] at hagree
  exact (agree_of_makeDirectory hmade).trans hagree

/-- Copying a file changes files only below the directory that it is copied into. -/
theorem agree_of_copyFile {source directory : Location} (h : d.copyFile source directory = .ok d')
    (hS : Clear S directory.resolved) : Agree S d d' := by
  unfold copyFile at h
  obtain ⟨content, hread, h⟩ := bind_ok h
  obtain ⟨there, hthere, h⟩ := bind_ok h
  obtain rfl := find_eq hthere
  rw [resolved_child (name_ne_of_read hread)] at h
  exact agree_of_putFile h (hS.of_contains (contains_child ..))

/-- What is removed is at a place or below it. -/
theorem file?_remove (d : Disk) (place other : Location) :
    (d.remove place).file? other = if place.Contains other then none else d.file? other := by
  by_cases hother : other.names = []
  · simp only [file?, at?, if_pos hother, ite_self]
  · simp only [file?, at?_remove d place other hother, Location.contains_iff_from?]
    cases place.from? other <;> rfl

/-- Whether a place is fresh: it is no file, there is nothing below it, and it is written without
double dots. -/
structure IsFresh (d : Disk) (place : Location) : Prop where
  straight : ".." ∉ place.names
  noFile : d.file? place = none
  empty : ∀ name names, d.at? (place.below ⟨"", name :: names⟩) = none

/-- A fresh place is what its path says. -/
theorem IsFresh.resolved_eq (h : d.IsFresh place) : place.resolved = place :=
  resolved_of_not_mem h.straight

/-- At a fresh place and inside it there is no file. -/
theorem IsFresh.file?_eq_none (h : d.IsFresh place) (hother : place.Contains other) :
    d.file? other = none := by
  obtain ⟨names, rfl⟩ := contains_iff.mp hother
  cases names with
  | nil => rw [below_nil, h.noFile]
  | cons name names => rw [file?, h.empty]

end Folio.Disk
