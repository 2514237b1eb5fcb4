import Folio.Config.Pages
import Mathlib.Data.List.Lex
import Mathlib.Data.List.Sort

/-!
# Nested page lists, place by place

An entry of a nested page list stands at a place: the numbers of the entries that lead to it, from
the outermost list inwards. In the lexicographic order of their places the entries come depth first,
each of them in front of those inside it. Flattening meets them in this order: the first entry that
cannot be listed is the fault of the whole list, and where there is none every path and every title
gives one entry, as deep as its place is long.
-/

namespace Folio

namespace Value

/-- The entries inside an entry of a page list, which stand in a bare list or below a title. -/
def nested : Value → List Value
  | list entries => entries
  | map [(_, list entries)] => entries
  | _ => []

/-- The entry at a place inside an entry, which is itself at the empty place. -/
def at? (v : Value) : List Nat → Option Value
  | [] => some v
  | i :: place => (v.nested[i]?).bind fun entry => entry.at? place

/-- Whether an entry is a path, a list, or a title with a path or a list. -/
def isPageEntry : Value → Bool
  | scalar (.text _) | list _ | map [(_, scalar (.text _))] | map [(_, list _)] => true
  | _ => false

/-- The fault that names an entry of any other form. -/
def misfit : Value → ConfigFault
  | map [(title, _)] => .titleWithoutPage title.plain
  | v => .unknownEntry v

/-- Whether an entry can be named: by its title, if it is titled. An entry of an unknown form is
named as a whole, and the others need no name. -/
def isNameable : Value → Bool
  | map [(title, _)] => title.isShowable
  | v => v.isPageEntry || v.isShowable

/-- The fault of an entry that cannot be listed. -/
def obstacle? (v : Value) : Option ConfigFault :=
  if v.isNameable = false then some .unshowable
  else if v.isPageEntry then none
  else some v.misfit

/-- What an entry itself adds to a flattened page list. -/
def page? (depth : Int) : Value → Option PageEntry
  | scalar (.text path) => some ⟨"", path, depth⟩
  | map [(title, scalar (.text path))] => some ⟨title.plain, path, depth⟩
  | map [(title, list _)] => some ⟨title.plain, "", depth⟩
  | _ => none

mutual

/-- The entries inside an entry and the entry itself, with their places, depth first. -/
def places : Value → List (List Nat × Value)
  | list entries => ([], list entries) :: placesFrom 0 entries
  | map [(title, list entries)] => ([], map [(title, list entries)]) :: placesFrom 0 entries
  | v => [([], v)]

/-- The entries of a list and those inside them, when the first one has a certain number. -/
def placesFrom (number : Nat) : List Value → List (List Nat × Value)
  | [] => []
  | entry :: rest =>
    (entry.places.map fun p => (number :: p.1, p.2)) ++ placesFrom (number + 1) rest

end

/-- The places in an entry are its own and those in the entries below. -/
theorem places_eq (v : Value) : v.places = ([], v) :: placesFrom 0 v.nested := by
  unfold places nested
  split <;> simp_all [placesFrom]

/-- An entry that is nested is smaller. -/
theorem sizeOf_nested_lt (v : Value) {entry : Value} (h : entry ∈ v.nested) :
    sizeOf entry < sizeOf v := by
  have hlt := List.sizeOf_lt_of_mem h
  revert hlt h
  unfold nested
  split
  · simp only [list.sizeOf_spec]
    omega
  · simp only [map.sizeOf_spec, List.cons.sizeOf_spec, Prod.mk.sizeOf_spec, list.sizeOf_spec]
    omega
  · exact fun h => absurd h List.not_mem_nil

/-- What holds of an entry whenever it holds of the entries inside it holds of every entry. -/
theorem induction_nested {p : Value → Prop} (h : ∀ v, (∀ entry ∈ v.nested, p entry) → p v)
    (v : Value) : p v :=
  h v fun entry _ => induction_nested h entry
termination_by sizeOf v
decreasing_by exact sizeOf_nested_lt v ‹_›

/-! ### Places -/

/-- An entry stands at every place that a list leads to, and at no other. -/
theorem mem_placesFrom_iff {entries : List Value} {v : Value}
    (h : ∀ entry ∈ entries, ∀ place, (place, v) ∈ entry.places ↔ entry.at? place = some v)
    (number : Nat) (place : List Nat) :
    (place, v) ∈ placesFrom number entries ↔
      ∃ i rest, place = (number + i) :: rest ∧
        (entries[i]?).bind (fun entry => entry.at? rest) = some v := by
  induction entries generalizing number with
  | nil => simp [placesFrom]
  | cons first others ih =>
    obtain ⟨hfirst, hothers⟩ := List.forall_mem_cons.mp h
    rw [placesFrom, List.mem_append, ih hothers, List.mem_map]
    constructor
    · rintro (⟨⟨rest, w⟩, hmem, heq⟩ | ⟨i, rest, rfl, hat⟩)
      · obtain ⟨rfl, rfl⟩ := Prod.mk.inj heq
        exact ⟨0, rest, rfl, (hfirst rest).mp hmem⟩
      · exact ⟨i + 1, rest, by rw [Nat.add_right_comm, Nat.add_assoc], hat⟩
    · rintro ⟨_ | i, rest, rfl, hat⟩
      · exact .inl ⟨(rest, v), (hfirst rest).mpr hat, rfl⟩
      · exact .inr ⟨i, rest, by rw [Nat.add_right_comm, Nat.add_assoc], hat⟩

/-- The places of an entry are those at which an entry stands inside it. -/
theorem mem_places_iff (v : Value) {w : Value} (place : List Nat) :
    (place, w) ∈ v.places ↔ v.at? place = some w := by
  induction v using induction_nested generalizing place with
  | h v ih =>
    have hinside := mem_placesFrom_iff (fun entry hentry place => ih entry hentry place) 0 place
    rw [places_eq, List.mem_cons, hinside]
    cases place with
    | nil => simp [at?, eq_comm]
    | cons i rest => simp [at?]

/-- A place in a list starts with the number of one of its entries. -/
theorem exists_of_mem_placesFrom {entries : List Value} {number : Nat} {place : List Nat}
    (h : place ∈ (placesFrom number entries).map Prod.fst) :
    ∃ i rest, place = i :: rest ∧ number ≤ i := by
  induction entries generalizing number with
  | nil => simp [placesFrom] at h
  | cons first others ih =>
    rw [placesFrom, List.map_append, List.mem_append] at h
    rcases h with h | h
    · rw [List.map_map] at h
      obtain ⟨⟨rest, v⟩, -, rfl⟩ := List.mem_map.mp h
      exact ⟨number, rest, rfl, Nat.le_refl number⟩
    · obtain ⟨i, rest, rfl, hle⟩ := ih h
      exact ⟨i, rest, rfl, by omega⟩

/-- The entries of a list come in the order of their places if those of each of them do. -/
theorem pairwise_placesFrom {entries : List Value}
    (h : ∀ entry ∈ entries, (entry.places.map Prod.fst).Pairwise (· < ·)) (number : Nat) :
    ((placesFrom number entries).map Prod.fst).Pairwise (· < ·) := by
  induction entries generalizing number with
  | nil => exact List.Pairwise.nil
  | cons first others ih =>
    obtain ⟨hfirst, hothers⟩ := List.forall_mem_cons.mp h
    rw [placesFrom, List.map_append, List.map_map, List.pairwise_append]
    refine ⟨?_, ih hothers (number + 1), ?_⟩
    · have hbelow := List.pairwise_map.mp hfirst
      have hcons {place late : List Nat} (hlt : place < late) : number :: place < number :: late :=
        List.cons_lt_cons_iff.mpr (.inr ⟨rfl, hlt⟩)
      exact List.pairwise_map.mpr (hbelow.imp hcons)
    · intro early hearly late hlate
      obtain ⟨⟨rest, v⟩, -, rfl⟩ := List.mem_map.mp hearly
      obtain ⟨i, rest, rfl, hle⟩ := exists_of_mem_placesFrom hlate
      exact List.cons_lt_cons_iff.mpr (.inl hle)

/-- Entries come in the order of their places. -/
theorem pairwise_places (v : Value) : (v.places.map Prod.fst).Pairwise (· < ·) := by
  induction v using induction_nested with
  | h v ih =>
    rw [places_eq, List.map_cons, List.pairwise_cons]
    refine ⟨fun place hplace => ?_, pairwise_placesFrom ih 0⟩
    obtain ⟨i, rest, rfl, -⟩ := exists_of_mem_placesFrom hplace
    exact List.nil_lt_cons i rest

/-! ### What flattening makes of the places -/

/-- What comes of entries at places: the fault of the first one that cannot be listed, or else what
each of them adds. -/
def listed (depth : Int) (entries : List (List Nat × Value)) :
    Except ConfigFault (List PageEntry) :=
  match entries.findSome? fun p => p.2.obstacle? with
  | some f => .error f
  | none => .ok (entries.filterMap fun p => p.2.page? (depth + p.1.length))

/-- Entries in two parts are listed one part after the other, up to the first fault. -/
theorem listed_append (depth : Int) (entries others : List (List Nat × Value)) :
    listed depth (entries ++ others) =
      (listed depth entries).bind fun first => (listed depth others).map (first ++ ·) := by
  simp only [listed, List.findSome?_append, List.filterMap_append]
  cases entries.findSome? fun p => p.2.obstacle? with
  | some f => rfl
  | none => cases others.findSome? fun p => p.2.obstacle? <;> rfl

/-- The entries inside the entry of a certain number are one level deeper. -/
theorem listed_inside (depth : Int) (number : Nat) (entries : List (List Nat × Value)) :
    listed depth (entries.map fun p => (number :: p.1, p.2)) = listed (depth + 1) entries := by
  have hdepth (place : List Nat) :
      depth + ((number :: place).length : Int) = depth + 1 + (place.length : Int) := by
    rw [List.length_cons]
    omega
  simp only [listed, List.findSome?_map, List.filterMap_map, Function.comp_def, hdepth]

/-- An entry with an obstacle is not listed. -/
theorem listed_of_obstacle {v : Value} {f : ConfigFault} (h : v.obstacle? = some f) (depth : Int) :
    listed depth [([], v)] = .error f := by
  simp [listed, h]

/-- An entry without an obstacle is listed as its page, if it is one. -/
theorem listed_of_listable {v : Value} (h : v.obstacle? = none) (depth : Int) :
    listed depth [([], v)] = .ok (v.page? depth).toList := by
  cases hpage : v.page? depth <;> simp [listed, h, hpage]

/-- A titled entry is listed if its title can be shown and it has a path or a list. -/
theorem listed_titled (depth : Int) (title : Key) (v : Value) :
    listed depth [([], map [(title, v)])] =
      if title.isShowable then
        if (map [(title, v)]).isPageEntry then .ok ((map [(title, v)]).page? depth).toList
        else .error (.titleWithoutPage title.plain)
      else .error .unshowable := by
  have hname : (map [(title, v)]).isNameable = title.isShowable := rfl
  cases hshow : title.isShowable with
  | false =>
    rw [listed_of_obstacle (by rw [obstacle?, hname, if_pos hshow])]
    rfl
  | true =>
    cases hform : (map [(title, v)]).isPageEntry with
    | false =>
      rw [listed_of_obstacle (by rw [obstacle?, hname, hshow, hform]; rfl)]
      rfl
    | true =>
      rw [listed_of_listable (by rw [obstacle?, hname, hshow, hform]; rfl)]
      rfl

/-- An entry itself comes first, and what is inside it follows one level deeper. -/
theorem flattenEntry_eq (depth : Int) (v : Value) :
    flattenEntry depth v =
      (listed depth [([], v)]).bind fun first =>
        (flattenPages (depth + 1) v.nested).map (first ++ ·) := by
  unfold flattenEntry
  split
  · rw [listed_of_listable rfl]
    rfl
  · next entries =>
    rw [listed_of_listable rfl]
    change flattenPages (depth + 1) entries = (flattenPages (depth + 1) entries).map ([] ++ ·)
    cases flattenPages (depth + 1) entries <;> rfl
  · next title path =>
    rw [listed_titled, Key.plainText]
    cases title.isShowable <;> rfl
  · next title entries =>
    rw [listed_titled, Key.plainText]
    cases title.isShowable <;> rfl
  · next title w htext hlist =>
    have hform : (map [(title, w)]).isPageEntry = false := by
      unfold isPageEntry
      split <;> simp_all
    rw [listed_titled, hform, Key.plainText]
    cases title.isShowable <;> rfl
  · next htext hlist hpath hbelow htitle =>
    have hform : v.isPageEntry = false := by
      unfold isPageEntry
      split <;> simp_all
    have hname : v.isNameable = v.isShowable := by
      unfold isNameable
      split <;> simp_all
    have hmisfit : v.misfit = .unknownEntry v := by
      unfold misfit
      split <;> simp_all
    cases hshow : v.isShowable with
    | false => rw [listed_of_obstacle (by rw [obstacle?, hname, if_pos hshow])]; rfl
    | true => rw [listed_of_obstacle (by rw [obstacle?, hname, hshow, hform, hmisfit]; rfl)]; rfl

/-- The entries of a list are listed one after the other if each of them is. -/
theorem listed_placesFrom {depth : Int} {entries : List Value}
    (h : ∀ entry ∈ entries, flattenEntry (depth + 1) entry = listed (depth + 1) entry.places)
    (number : Nat) :
    flattenPages (depth + 1) entries = listed depth (placesFrom number entries) := by
  induction entries generalizing number with
  | nil => rfl
  | cons first others ih =>
    obtain ⟨hfirst, hothers⟩ := List.forall_mem_cons.mp h
    rw [flattenPages, hfirst, ih hothers (number + 1), placesFrom, listed_append, listed_inside]
    cases listed (depth + 1) first.places <;> rfl

/-- Flattening an entry meets the entries inside it in the order of their places. -/
theorem flattenEntry_eq_listed (depth : Int) (v : Value) :
    flattenEntry depth v = listed depth v.places := by
  induction v using induction_nested generalizing depth with
  | h v ih =>
    rw [flattenEntry_eq, listed_placesFrom (fun entry hentry => ih entry hentry (depth + 1)) 0,
      places_eq, ← listed_append, List.singleton_append]

end Value

/-- Flattening a page list meets the entries inside it in the order of their places. -/
theorem flattenPages_eq_listed (depth : Int) (entries : List Value) :
    flattenPages depth entries = Value.listed (depth - 1) (Value.list entries).places := by
  rw [← Value.flattenEntry_eq_listed, flattenEntry, Int.sub_add_cancel]

namespace Value

/-- The first of the entries at places with an obstacle gives the fault. -/
theorem listed_eq_error_iff {depth : Int} {entries : List (List Nat × Value)} {f : ConfigFault}
    (h : (entries.map Prod.fst).Pairwise (· < ·)) :
    listed depth entries = .error f ↔
      ∃ place v, (place, v) ∈ entries ∧ v.obstacle? = some f ∧
        ∀ earlier < place, ∀ w, (earlier, w) ∈ entries → w.obstacle? = none := by
  have hfirst : listed depth entries = .error f ↔
      entries.findSome? (fun p => p.2.obstacle?) = some f := by
    rw [listed]
    cases entries.findSome? fun p => p.2.obstacle? <;> simp
  rw [hfirst, List.findSome?_eq_some_iff]
  constructor
  · rintro ⟨front, ⟨place, v⟩, back, rfl, hv, hfront⟩
    refine ⟨place, v, by simp, hv, fun earlier hlt w hw => ?_⟩
    -- What comes earlier stands in front, since the places behind come later.
    rw [List.map_append, List.map_cons, List.pairwise_append, List.pairwise_cons] at h
    rcases List.mem_append.mp hw with hw | hw
    · exact hfront _ hw
    · rcases List.mem_cons.mp hw with heq | hw
      · obtain ⟨rfl, -⟩ := Prod.mk.inj heq
        exact absurd hlt (lt_irrefl _)
      · exact absurd hlt (h.2.1.1 earlier (List.mem_map_of_mem hw)).asymm
  · rintro ⟨place, v, hmem, hv, hearlier⟩
    obtain ⟨front, back, rfl⟩ := List.append_of_mem hmem
    rw [List.map_append, List.map_cons, List.pairwise_append] at h
    refine ⟨front, (place, v), back, rfl, hv, fun ⟨earlier, w⟩ hw => ?_⟩
    exact hearlier earlier (h.2.2 earlier (List.mem_map_of_mem hw) place List.mem_cons_self) w
      (List.mem_append_left _ hw)

/-- Entries are listed as their pages exactly if none has an obstacle. -/
theorem listed_eq_ok_iff {depth : Int} {entries : List (List Nat × Value)}
    {pages : List PageEntry} :
    listed depth entries = .ok pages ↔
      (∀ p ∈ entries, p.2.obstacle? = none) ∧
        pages = entries.filterMap fun p => p.2.page? (depth + p.1.length) := by
  rw [listed]
  cases hfound : entries.findSome? fun p => p.2.obstacle? with
  | none =>
    have hall := List.findSome?_eq_none_iff.mp hfound
    exact ⟨fun h => ⟨hall, (Except.ok.inj h).symm⟩, fun ⟨_, h⟩ => congrArg Except.ok h.symm⟩
  | some f =>
    obtain ⟨p, hp, hf⟩ := List.exists_of_findSome?_eq_some hfound
    refine ⟨nofun, fun ⟨hall, _⟩ => ?_⟩
    rw [hall p hp] at hf
    cases hf

/-- What the entries of a list add can be read off their places. -/
theorem filterMap_places (v : Value) (add : List Nat → Value → Option PageEntry) :
    v.places.filterMap (fun p => add p.1 p.2) =
      (v.places.map Prod.fst).filterMap fun place => (v.at? place).bind (add place) := by
  rw [List.filterMap_map]
  refine List.filterMap_congr fun ⟨place, w⟩ hp => ?_
  rw [Function.comp_apply, (mem_places_iff v place).mp hp, Option.bind_some]

/-- A place is one of an entry if something stands there. -/
theorem mem_map_places_iff (v : Value) (place : List Nat) :
    place ∈ v.places.map Prod.fst ↔ (v.at? place).isSome := by
  rw [Option.isSome_iff_exists, List.mem_map]
  constructor
  · rintro ⟨⟨_, w⟩, hw, rfl⟩
    exact ⟨w, (mem_places_iff v _).mp hw⟩
  · exact fun ⟨w, hw⟩ => ⟨(place, w), (mem_places_iff v place).mpr hw, rfl⟩

/-- Places that are in order and at which an entry stands, with no such place left out, are the
places of the entry. -/
theorem eq_places {v : Value} {places : List (List Nat)} (hsorted : places.Pairwise (· < ·))
    (hplaces : ∀ place, place ∈ places ↔ (v.at? place).isSome) :
    places = v.places.map Prod.fst :=
  hsorted.eq_of_mem_iff (pairwise_places v) fun place =>
    (hplaces place).trans (mem_map_places_iff v place).symm

/-- Starting deeper changes the depths only. -/
theorem listed_deeper (depth : Int) (levels : Nat) (entries : List (List Nat × Value)) :
    listed (depth + levels) entries =
      (listed depth entries).map
        (List.map fun page => { page with depth := page.depth + levels }) := by
  have hpage (v : Value) (place : List Nat) :
      v.page? (depth + levels + place.length) =
        (v.page? (depth + place.length)).map
          fun page => { page with depth := page.depth + levels } := by
    rw [Int.add_right_comm]
    unfold page?
    split <;> rfl
  rw [listed, listed]
  cases entries.findSome? fun p => p.2.obstacle? with
  | some f => rfl
  | none => simp only [hpage, Except.map, List.map_filterMap]

end Value

/-- Entries in two parts are flattened one part after the other, up to the first fault. -/
theorem flattenPages_append (depth : Int) (entries others : List Value) :
    flattenPages depth (entries ++ others) =
      (flattenPages depth entries).bind fun first =>
        (flattenPages depth others).map (first ++ ·) := by
  induction entries with
  | nil =>
    change flattenPages depth others = (flattenPages depth others).map ([] ++ ·)
    cases flattenPages depth others <;> rfl
  | cons entry rest ih =>
    rw [List.cons_append, flattenPages, flattenPages, ih]
    cases flattenEntry depth entry with
    | error f => rfl
    | ok first =>
      cases flattenPages depth rest with
      | error f => rfl
      | ok second =>
        cases flattenPages depth others with
        | error f => rfl
        | ok third => exact congrArg Except.ok (List.append_assoc first second third).symm

/-- A page list is flattened completely or rejected at its first fault. The entries of a list stand
at places; the lexicographic order of places is depth first. Flattening ends with a fault exactly if
an entry at some place cannot be listed, and then it is the fault of the first such entry; an entry
cannot be listed if it is neither a path, a list, nor a title with one of these, or if it has to be
named and cannot be. Otherwise the result has what the entries at all places add, in order, each as
deep below the starting depth as lists below the outermost one stand around it. Page lists are
flattened one after the other, and starting deeper makes all depths greater. -/
theorem flattened_or_rejected (depth : Int) (entries : List Value) :
    (∀ f, flattenPages depth entries = .error f ↔
      ∃ place v, (Value.list entries).at? place = some v ∧ v.obstacle? = some f ∧
        ∀ earlier < place, ∀ w, (Value.list entries).at? earlier = some w → w.obstacle? = none) ∧
    (∀ pages, flattenPages depth entries = .ok pages ↔
      (∀ place v, (Value.list entries).at? place = some v → v.obstacle? = none) ∧
      ∃ places : List (List Nat), places.Pairwise (· < ·) ∧
        (∀ place, place ∈ places ↔ ((Value.list entries).at? place).isSome) ∧
        pages = places.filterMap fun place =>
          ((Value.list entries).at? place).bind (Value.page? (depth - 1 + place.length))) ∧
    (∀ others, flattenPages depth (entries ++ others) =
      (flattenPages depth entries).bind fun first =>
        (flattenPages depth others).map (first ++ ·)) ∧
    ∀ levels : Nat, flattenPages (depth + levels) entries =
      (flattenPages depth entries).map
        (List.map fun page => { page with depth := page.depth + levels }) := by
  refine ⟨fun f => ?_, fun pages => ?_, flattenPages_append depth entries, fun levels => ?_⟩
  · simp only [flattenPages_eq_listed, Value.listed_eq_error_iff (Value.pairwise_places _),
      Value.mem_places_iff]
  · rw [flattenPages_eq_listed, Value.listed_eq_ok_iff, Value.filterMap_places _
      fun place v => v.page? (depth - 1 + place.length)]
    refine and_congr ?_ ?_
    · exact ⟨fun h place v hat => h (place, v) ((Value.mem_places_iff _ place).mpr hat),
        fun h p hp => h p.1 p.2 ((Value.mem_places_iff _ p.1).mp hp)⟩
    · constructor
      · rintro rfl
        exact ⟨_, Value.pairwise_places _, Value.mem_map_places_iff _, rfl⟩
      · rintro ⟨places, hsorted, hplaces, rfl⟩
        rw [Value.eq_places hsorted hplaces]
  · rw [flattenPages_eq_listed, flattenPages_eq_listed,
      show depth + levels - 1 = depth - 1 + levels by omega, Value.listed_deeper]

/-- A number with too many digits cannot be listed, and cannot be named either. -/
theorem Value.obstacle?_int {n : Nat} (h : Number.pow10 Number.mostDigits ≤ n) :
    (Value.int n).obstacle? = some .unshowable := by
  have hshow : (Value.int n).isShowable = false := by
    rw [Value.int, Value.isShowable, Scalar.isShowable, Int.natAbs_natCast, decide_eq_false_iff_not]
    exact Nat.not_lt.mpr h
  rw [Value.obstacle?, if_pos]
  rw [Value.isNameable, hshow]
  · rfl
  · exact nofun

/-- An entry with an obstacle ends the flattening, whatever follows. -/
theorem flattenPages_of_obstacle {v : Value} {f : ConfigFault} (h : v.obstacle? = some f)
    (depth : Int) (rest : List Value) : flattenPages depth (v :: rest) = .error f := by
  rw [flattenPages, Value.flattenEntry_eq, Value.listed_of_obstacle h]
  rfl

/-- The smallest number with too many digits. -/
def longNumber : Value := .int (Number.pow10 Number.mostDigits : Nat)

/-- A page list that holds such a number is rejected, but not with a fault that names the number. -/
theorem long_number_is_not_named :
    (Value.list [longNumber]).at? [0] = some longNumber ∧ longNumber.isPageEntry = false ∧
      flattenPages 1 [longNumber] = .error .unshowable ∧
      ConfigFault.unshowable.message? = none :=
  ⟨rfl, rfl, flattenPages_of_obstacle (Value.obstacle?_int (Nat.le_refl _)) 1 [], rfl⟩

end Folio
