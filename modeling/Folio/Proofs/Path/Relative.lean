import Folio.Path
import Folio.Proofs.Text.Split
import Mathlib.Data.List.Induction

/-!
# Relative paths

The path from one page to another climbs out of the folders that the two do not share and then
names the folders and the file below. Seen from the first page, such a path leads to the second one,
however deep the pages lie.
-/

namespace Folio.Path

open Text

/-- A name on a path: neither empty nor one of the dots that lead nowhere or up, and without
slashes. -/
structure IsName (name : List Char) : Prop where
  ne_nil : name ≠ []
  ne_dot : name ≠ ['.']
  ne_dots : name ≠ ['.', '.']
  slash : '/' ∉ name

instance (name : List Char) : Decidable (IsName name) :=
  decidable_of_iff (name ≠ [] ∧ name ≠ ['.'] ∧ name ≠ ['.', '.'] ∧ '/' ∉ name)
    ⟨fun ⟨hne, hdot, hdots, hslash⟩ => ⟨hne, hdot, hdots, hslash⟩,
      fun ⟨hne, hdot, hdots, hslash⟩ => ⟨hne, hdot, hdots, hslash⟩⟩

/-- The names that lead from a page that lies below some folders to another page that does not. -/
def climbing (folders below : List (List Char)) : List (List Char) :=
  List.replicate folders.length ['.', '.'] ++ below

variable {names folders below walked : List (List Char)} {name file : List Char} {rooted : Bool}

/-! ### Walking -/

theorem step_of_isName (h : IsName name) (walked : List (List Char)) :
    step rooted walked name = name :: walked := by
  simp [step, h.ne_nil, h.ne_dot, h.ne_dots]

/-- A walk along names keeps all of them. -/
theorem foldl_step_of_isName (h : ∀ name ∈ names, IsName name) :
    names.foldl (step rooted) walked = names.reverse ++ walked := by
  induction names generalizing walked with
  | nil => rfl
  | cons name names ih =>
    obtain ⟨hname, hnames⟩ := List.forall_mem_cons.mp h
    rw [List.foldl_cons, step_of_isName hname, ih hnames, List.reverse_cons, List.append_assoc,
      List.singleton_append]

/-- A double dot undoes the last step. -/
theorem step_up (h : IsName name) (walked : List (List Char)) :
    step rooted (name :: walked) ['.', '.'] = walked := by
  simp [step, h.ne_dots]

/-- As many double dots as there are folders lead out of all of them. -/
theorem foldl_step_up (h : ∀ name ∈ folders, IsName name) :
    (List.replicate folders.length ['.', '.']).foldl (step rooted) (folders.reverse ++ walked) =
      walked := by
  induction folders using List.reverseRecOn with
  | nil => rfl
  | append_singleton folders last ih =>
    obtain ⟨hfolders, hlast⟩ := List.forall_mem_append.mp h
    rw [List.length_append, List.length_singleton, List.replicate_succ, List.foldl_cons,
      List.reverse_append, List.reverse_singleton, List.append_assoc, List.singleton_append,
      step_up (List.forall_mem_singleton.mp hlast), ih hfolders]

/-! ### Folders -/

/-- Joined lists of names are joined by a slash. -/
theorem intercalate_append {others : List (List Char)} (h : names ≠ []) (hothers : others ≠ []) :
    ['/'].intercalate (names ++ others) =
      ['/'].intercalate names ++ '/' :: ['/'].intercalate others := by
  induction names with
  | nil => exact absurd rfl h
  | cons name names ih =>
    cases names with
    | nil =>
      rw [List.singleton_append, List.intercalate_cons_of_ne_nil hothers,
        List.intercalate_singleton, List.append_assoc, List.singleton_append]
    | cons next rest =>
      rw [List.cons_append, List.intercalate_cons_of_ne_nil (by simp), ih (List.cons_ne_nil _ _),
        List.intercalate_cons_cons]
      simp only [List.append_assoc]

/-- Whether a path may be cut at its slashes: it has parts, all of them filled. -/
def IsFilled (parts : List (List Char)) : Prop :=
  parts ≠ [] ∧ ∀ part ∈ parts, part ≠ [] ∧ '/' ∉ part

theorem isFilled_of_isName (hne : names ≠ []) (h : ∀ name ∈ names, IsName name) :
    IsFilled names :=
  ⟨hne, fun name hname => ⟨(h name hname).ne_nil, (h name hname).slash⟩⟩

namespace IsFilled

variable {parts : List (List Char)}

/-- A path of filled parts does not start with a slash. -/
theorem exists_first (h : IsFilled parts) :
    ∃ c rest, ['/'].intercalate parts = c :: rest ∧ c ≠ '/' := by
  obtain ⟨hne, hparts⟩ := h
  obtain ⟨first, others, rfl⟩ := List.exists_cons_of_ne_nil hne
  obtain ⟨hfirst, hslash⟩ := hparts first List.mem_cons_self
  obtain ⟨c, cs, rfl⟩ := List.exists_cons_of_ne_nil hfirst
  have hc : c ≠ '/' := fun hc => hslash (hc ▸ List.mem_cons_self)
  cases others with
  | nil => exact ⟨c, cs, List.intercalate_singleton .., hc⟩
  | cons next rest => exact ⟨c, _, List.intercalate_cons_cons, hc⟩

/-- A path of filled parts does not end with a slash. -/
theorem exists_last (h : IsFilled parts) :
    ∃ front c, ['/'].intercalate parts = front ++ [c] ∧ c ≠ '/' := by
  obtain ⟨hne, hparts⟩ := h
  obtain ⟨front, last, rfl⟩ := (List.eq_nil_or_concat' parts).resolve_left hne
  obtain ⟨hlast, hslash⟩ := hparts last (by simp)
  obtain ⟨cs, c, rfl⟩ := (List.eq_nil_or_concat' last).resolve_left hlast
  have hc : c ≠ '/' := fun hc => hslash (by simp [hc])
  obtain ⟨before, hbefore⟩ := (suffix_intercalate_iff hslash).mpr (List.suffix_refl _)
  exact ⟨before ++ cs, c, by rw [← hbefore, List.append_assoc], hc⟩

end IsFilled

/-- The folder of a page is the path of the names in front of its file. -/
theorem folder_intercalate (h : ∀ name ∈ names, IsName name) (hfile : '/' ∉ file) :
    folder (['/'].intercalate (names ++ [file])) = ['/'].intercalate names := by
  have hdrop (rest : List Char) :
      (file.reverse ++ rest).dropWhile (· ≠ '/') = rest.dropWhile (· ≠ '/') := by
    refine List.dropWhile_append_of_pos fun c hc => ?_
    have hne : c ≠ '/' := fun heq => hfile (heq ▸ List.mem_reverse.mp hc)
    simpa using hne
  rcases eq_or_ne names [] with rfl | hne
  · have hnone := hdrop []
    rw [List.append_nil] at hnone
    rw [List.nil_append, List.intercalate_singleton, folder, hnone]
    rfl
  · obtain ⟨front, c, hlast, hc⟩ := (isFilled_of_isName hne h).exists_last
    have hhead : ((['/'].intercalate (names ++ [file])).reverse.dropWhile (· ≠ '/')).reverse =
        ['/'].intercalate names ++ ['/'] := by
      rw [intercalate_append hne (by simp), List.intercalate_singleton, List.reverse_append,
        List.reverse_cons, List.append_assoc, hdrop]
      simp
    have hmixed : ¬((front ++ [c] ++ ['/']).all (· = '/') = true) := by simp [hc]
    rw [folder, hhead, hlast, if_neg hmixed]
    simp [hc]

/-- A path is put behind a folder with a slash between them, if the folder has a name. -/
theorem join_intercalate {parts : List (List Char)} (h : ∀ name ∈ names, IsName name)
    (hparts : IsFilled parts) :
    join (['/'].intercalate names) (['/'].intercalate parts) =
      ['/'].intercalate (names ++ parts) := by
  obtain ⟨d, rest, hfirst, hd⟩ := hparts.exists_first
  have hbehind (directory : List Char) : join directory (['/'].intercalate parts) =
      if directory.isEmpty || directory.getLast? = some '/' then
        directory ++ ['/'].intercalate parts
      else directory ++ '/' :: ['/'].intercalate parts := by
    rw [hfirst]
    unfold join
    split
    · next heq => exact absurd (List.cons.inj heq).1 hd
    · rfl
  rw [hbehind]
  rcases eq_or_ne names [] with rfl | hne
  · rfl
  · obtain ⟨front, c, hlast, hc⟩ := (isFilled_of_isName hne h).exists_last
    rw [intercalate_append hne hparts.1, hlast, if_neg (by simp [hc])]

/-- A path whose parts lead along some names is resolved to these names. -/
theorem collapse_intercalate {parts : List (List Char)} (hparts : IsFilled parts)
    (hnames : IsFilled names) (hwalk : parts.foldl (step false) [] = names.reverse) :
    collapse (['/'].intercalate parts) = ['/'].intercalate names := by
  obtain ⟨c, rest, hfirst, hc⟩ := hparts.exists_first
  obtain ⟨d, others, hpath, -⟩ := hnames.exists_first
  have hroot : root (['/'].intercalate parts) = [] := by
    rw [hfirst]
    unfold root
    split <;> simp_all
  have hsegments : segments (['/'].intercalate parts) = parts :=
    splitAt_intercalate (fun part hpart => (hparts.2 part hpart).2) hparts.1
  simp only [collapse, hroot, hsegments, List.isEmpty_nil, Bool.not_true, hwalk,
    List.reverse_reverse, List.nil_append, hpath]
  rfl

/-! ### From page to page -/

theorem isFilled_climbing (h : ∀ name ∈ below, IsName name) (hne : below ≠ []) :
    IsFilled (climbing folders below) := by
  refine ⟨by simp [climbing, hne], List.forall_mem_append.mpr ⟨?_, ?_⟩⟩
  · intro part hpart
    rw [List.eq_of_mem_replicate hpart]
    decide
  · exact (isFilled_of_isName hne h).2

/-- A climbing path, seen from a page, leads to the page that it was made for. -/
theorem resolve_climbing {common : List (List Char)} (hcommon : ∀ name ∈ common, IsName name)
    (hfolders : ∀ name ∈ folders, IsName name) (hbelow : ∀ name ∈ below, IsName name)
    (hfile : '/' ∉ file) (hne : below ≠ []) :
    resolve (['/'].intercalate (common ++ folders ++ [file]))
      (['/'].intercalate (climbing folders below)) = ['/'].intercalate (common ++ below) := by
  have hleft : ∀ name ∈ common ++ folders, IsName name :=
    List.forall_mem_append.mpr ⟨hcommon, hfolders⟩
  have htarget : ∀ name ∈ common ++ below, IsName name :=
    List.forall_mem_append.mpr ⟨hcommon, hbelow⟩
  have hclimbing : IsFilled (climbing folders below) := isFilled_climbing hbelow hne
  have hparts : IsFilled (common ++ folders ++ climbing folders below) := by
    refine ⟨by simp [hclimbing.1], List.forall_mem_append.mpr ⟨?_, hclimbing.2⟩⟩
    exact fun name hname => ⟨(hleft name hname).ne_nil, (hleft name hname).slash⟩
  -- The walk goes down to the folder of the page, up to the common folder and down to the target.
  have hwalk : (common ++ folders ++ climbing folders below).foldl (step false) [] =
      (common ++ below).reverse := by
    rw [climbing, List.foldl_append, List.foldl_append, foldl_step_of_isName hleft,
      List.append_nil, List.reverse_append, foldl_step_up hfolders, foldl_step_of_isName hbelow,
      List.reverse_append]
  rw [resolve, folder_intercalate hleft hfile, join_intercalate hleft hclimbing]
  exact collapse_intercalate hparts (isFilled_of_isName (by simp [hne]) htarget) hwalk

end Folio.Path
