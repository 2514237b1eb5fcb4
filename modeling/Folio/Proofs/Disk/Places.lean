import Folio.Disk

/-!
# Places

The place that a location leads to is found by its names alone, and following the location on a disk
leads there or nowhere. A place contains another if it is on the way to it; of two places on the way
to a third, one contains the other. A path that stays inside the directory that it is seen from
leads to a place below that directory.
-/

namespace Folio

namespace Location

variable {a b l place : Location} {name : String} {names : List String}

/-- The place that a location leads to, if it leads anywhere. -/
def resolved (l : Location) : Location := l.names.foldl enter ⟨l.root, []⟩

/-- Whether a place is another one or on the way to it. -/
def Contains (a b : Location) : Prop := a.root = b.root ∧ a.names <+: b.names

instance (a b : Location) : Decidable (Contains a b) := inferInstanceAs (Decidable (_ ∧ _))

/-- Two places, neither of which is on the way to the other. -/
def Apart (a b : Location) : Prop := ¬a.Contains b ∧ ¬b.Contains a

instance (a b : Location) : Decidable (Apart a b) := inferInstanceAs (Decidable (_ ∧ _))

theorem Contains.refl (a : Location) : a.Contains a := ⟨rfl, List.prefix_rfl⟩

/-- What is inside a place that is inside another one is inside the outer one. -/
theorem Contains.trans (h : a.Contains b) (hb : b.Contains l) : a.Contains l :=
  ⟨h.1.trans hb.1, h.2.trans hb.2⟩

/-- A place holds whatever is below it. -/
theorem contains_below (a : Location) (names : List String) : a.Contains (a.below ⟨"", names⟩) :=
  ⟨rfl, List.prefix_append ..⟩

/-- A directory holds its entries. -/
theorem contains_child (a : Location) (name : String) : a.Contains (a.child name) :=
  contains_below a [name]

/-- A place holds another one if names lead down to it. -/
theorem contains_iff : a.Contains b ↔ ∃ names, b = a.below ⟨"", names⟩ := by
  constructor
  · rintro ⟨hroot, names, hnames⟩
    exact ⟨names, by rw [below, if_pos rfl, hnames, hroot]⟩
  · rintro ⟨names, rfl⟩
    exact contains_below a names

/-- The names that lead down to a place can be computed. -/
theorem contains_iff_from? : a.Contains b ↔ (a.from? b).isSome := by
  simp only [contains_iff, Option.isSome_iff_exists, from?_eq_some_iff]
  rfl

/-- Of two places on the way to a third, one is on the way to the other. -/
theorem Contains.total (ha : a.Contains l) (hb : b.Contains l) : a.Contains b ∨ b.Contains a :=
  (List.prefix_or_prefix_of_prefix ha.2 hb.2).imp (⟨ha.1.trans hb.1.symm, ·⟩)
    (⟨hb.1.trans ha.1.symm, ·⟩)

/-- Nothing is below each of two places that are apart. -/
theorem Apart.not_contains (h : Apart a b) (hb : b.Contains l) : ¬a.Contains l := fun ha =>
  (ha.total hb).elim h.1 h.2

/-- No names lead to the place itself. -/
@[simp] theorem below_nil (a : Location) : a.below ⟨"", []⟩ = a := by simp [below]

/-- Names lead down one after the other. -/
theorem below_cons (a : Location) (name : String) (names : List String) :
    a.below ⟨"", name :: names⟩ = (a.child name).below ⟨"", names⟩ := by
  simp [below, child]

/-- Different names lead to different places. -/
theorem below_injective {others : List String}
    (h : a.below ⟨"", names⟩ = a.below ⟨"", others⟩) : names = others :=
  List.append_cancel_left (congrArg Location.names h)

/-- Entries of one directory with different names are at different places. -/
theorem child_injective {other : String} (h : a.child name = a.child other) : name = other :=
  List.singleton_inj.mp (below_injective h)

/-- An entry does not hold its directory. -/
theorem not_contains_child (a : Location) (name : String) : ¬(a.child name).Contains a := by
  intro h
  have hlength := h.2.length_le
  simp only [child, List.length_append, List.length_singleton] at hlength
  omega

/-- The places on the way to a child are the child and the places on the way to its directory. -/
theorem contains_child_iff : b.Contains (a.child name) ↔ b = a.child name ∨ b.Contains a := by
  obtain ⟨root, names⟩ := b
  simp only [Contains, child, mk.injEq, List.prefix_concat_iff, ← and_or_left]

/-- The place above another is on the way to it. -/
theorem contains_parent (a : Location) : a.parent.Contains a := ⟨rfl, List.dropLast_prefix _⟩

/-- An entry is in the directory that it is an entry of. -/
theorem parent_child (a : Location) (name : String) : (a.child name).parent = a := by
  simp [child, parent]

/-- A name other than the parent's does not change how the directory resolves. -/
theorem resolved_child (h : name ≠ "..") : (l.child name).resolved = l.resolved.child name := by
  simp only [resolved, child, List.foldl_append, List.foldl_cons, List.foldl_nil, enter, if_neg h]

/-- Names other than the parent's lead straight down. -/
theorem foldl_enter_of_not_mem (h : ".." ∉ names) (place : Location) :
    names.foldl enter place = place.below ⟨"", names⟩ := by
  induction names generalizing place with
  | nil => exact (below_nil place).symm
  | cons name rest ih =>
    obtain ⟨hname, hrest⟩ := List.ne_and_not_mem_of_not_mem_cons h
    rw [List.foldl_cons, ih hrest, enter, if_neg (Ne.symm hname), below_cons]

/-- A location without double dots is a place. -/
theorem resolved_of_not_mem (h : ".." ∉ l.names) : l.resolved = l := foldl_enter_of_not_mem h _

/-- Where names lead to from a directory that is walked to, as long as the walk stays in the
directory that it begins in. -/
def walk? (walked : List String) : List String → Option (List String)
  | [] => some walked
  | name :: rest =>
    if name = ".." then if walked = [] then none else walk? walked.dropLast rest
    else walk? (walked ++ [name]) rest

/-- The names that lead straight to where a path leads, if the path stays inside the directory that
it is seen from. -/
def inside? (path : Location) : Option (List String) :=
  if path.root = "" then walk? [] path.names else none

/-- Whether a path stays inside the directory that it is seen from. -/
def StaysInside (path : Location) : Prop := path.inside?.isSome

instance (path : Location) : Decidable path.StaysInside := inferInstanceAs (Decidable (_ = _))

/-- Names that can be walked lead to the place that the walk ends at. -/
theorem foldl_enter_of_walk? {walked names out : List String} (h : walk? walked names = some out)
    (base : Location) :
    names.foldl enter (base.below ⟨"", walked⟩) = base.below ⟨"", out⟩ := by
  induction names generalizing walked with
  | nil =>
    cases h
    rfl
  | cons name rest ih =>
    rw [walk?] at h
    rw [List.foldl_cons, enter]
    split at h
    · next hname =>
      split at h
      · cases h
      · next hwalked =>
        have hparent : (base.below ⟨"", walked⟩).parent = base.below ⟨"", walked.dropLast⟩ := by
          simp only [below, if_true, parent, List.dropLast_append_of_ne_nil hwalked]
        rw [if_pos hname, hparent]
        exact ih h
    · next hname =>
      have hchild : (base.below ⟨"", walked⟩).child name = base.below ⟨"", walked ++ [name]⟩ := by
        simp only [below, if_true, child, List.append_assoc]
      rw [if_neg hname, hchild]
      exact ih h

/-- A path that stays inside a directory leads to a place below it. -/
theorem resolved_below {base path : Location} (h : path.inside? = some names) :
    (base.below path).resolved = base.resolved.below ⟨"", names⟩ := by
  unfold inside? at h
  split at h
  · next hroot =>
    rw [below, if_pos hroot, ← foldl_enter_of_walk? h base.resolved, below_nil, resolved, resolved,
      List.foldl_append]
  · cases h

/-- A path that stays inside leads to a place inside its base. -/
theorem contains_resolved_below {base path : Location} (h : path.StaysInside) :
    base.resolved.Contains (base.below path).resolved := by
  obtain ⟨names, hnames⟩ := Option.isSome_iff_exists.mp h
  rw [resolved_below hnames]
  exact contains_below ..

end Location

namespace Disk

open Location

variable {d : Disk} {l whole place : Location} {names : List String}

/-- Following names, if every step is there, enters one after the other. -/
theorem follow_eq (h : d.follow whole place names = .ok l) : l = names.foldl enter place := by
  induction names generalizing place with
  | nil => exact (Except.ok.inj h).symm
  | cons name rest ih =>
    rw [follow] at h
    split at h
    · split at h
      · cases h
      · exact ih h
    · cases h
    · cases h

/-- A location leads to its place or nowhere. -/
theorem find_eq (h : d.find l = .ok place) : place = l.resolved := by
  unfold find at h
  cases hcheck : check l with
  | error f => rw [hcheck] at h; cases h
  | ok u =>
    rw [hcheck] at h
    exact follow_eq h

/-- Whether every place above a place is a directory. -/
def Stands (d : Disk) (place : Location) : Prop :=
  ∀ l, l.Contains place → l ≠ place → d.at? l = some .directory

/-- Where a directory stands, its parent is a directory. -/
theorem Stands.parent (h : d.Stands place) (hplace : d.at? place = some .directory) :
    d.at? place.parent = some .directory := by
  by_cases hroot : place.parent = place
  · rw [hroot, hplace]
  · exact h _ (contains_parent place) hroot

/-- What is entered from a directory that stands has directories above it. -/
theorem Stands.enter (h : d.Stands place) (hplace : d.at? place = some .directory)
    (name : String) : d.Stands (place.enter name) := by
  intro l hl hne
  unfold Location.enter at hl hne
  split at hl
  · next hname =>
    rw [if_pos hname] at hne
    by_cases hsame : l = place
    · rw [hsame, hplace]
    · exact h l (hl.trans (contains_parent place)) hsame
  · next hname =>
    rw [if_neg hname] at hne
    rcases contains_child_iff.mp hl with rfl | hl
    · exact absurd rfl hne
    · by_cases hsame : l = place
      · rw [hsame, hplace]
      · exact h l hl hsame

/-- Only directories are walked through. -/
theorem stands_of_follow (hplace : d.Stands place) (h : d.follow whole place names = .ok l) :
    d.Stands l := by
  induction names generalizing place with
  | nil =>
    cases h
    exact hplace
  | cons name rest ih =>
    rw [follow] at h
    split at h
    · next hdirectory =>
      split at h
      · cases h
      · exact ih (hplace.enter hdirectory name) h
    · cases h
    · cases h

/-- Following names up to the last one leads to a directory. -/
theorem follow_concat {name : String} (h : d.follow whole place (names ++ [name]) = .ok l) :
    ∃ mid, d.follow whole place names = .ok mid ∧ d.at? mid = some .directory ∧
      l = mid.enter name := by
  induction names generalizing place with
  | nil =>
    rw [List.nil_append, follow] at h
    split at h
    · next hdirectory =>
      split at h
      · cases h
      · cases h
        exact ⟨place, rfl, hdirectory, rfl⟩
    · cases h
    · cases h
  | cons first rest ih =>
    rw [List.cons_append, follow] at h
    rw [follow]
    split at h
    · split at h
      · cases h
      · next hname => simpa only [if_neg hname] using ih h
    · cases h
    · cases h

/-- A location that ends in a double dot leads to a directory. -/
theorem at?_of_find_parent (h : d.find l = .ok place) (hname : l.name = "..") :
    d.at? place = some .directory := by
  unfold find at h
  cases hcheck : check l with
  | error f => rw [hcheck] at h; cases h
  | ok u =>
    rw [hcheck] at h
    obtain ⟨root, names⟩ := l
    rcases List.eq_nil_or_concat names with rfl | ⟨before, last, rfl⟩
    · exact absurd hname (show "" ≠ ".." by decide)
    · rw [List.concat_eq_append] at h hname
      obtain rfl : last = ".." := by simpa [name] using hname
      have hroot : d.Stands ⟨root, []⟩ := by
        rintro ⟨_, _⟩ ⟨rfl, hl⟩ hne
        obtain rfl := List.prefix_nil.mp hl
        exact absurd rfl hne
      obtain ⟨mid, hmid, hdirectory, rfl⟩ := follow_concat h
      exact (stands_of_follow hroot hmid).parent hdirectory

/-- The name of a file that can be read is its own. -/
theorem name_ne_of_read {content : Content} (h : d.read l = .ok content) : l.name ≠ ".." := by
  intro hname
  unfold read at h
  cases hfind : d.find l with
  | error f => rw [hfind] at h; cases h
  | ok place =>
    rw [hfind] at h
    simp only [at?_of_find_parent hfind hname] at h
    cases h

end Disk

end Folio
