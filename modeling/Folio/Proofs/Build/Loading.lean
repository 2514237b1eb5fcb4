import Folio.Build
import Folio.Proofs.Build.Pages
import Folio.Proofs.Text.Split

/-!
# What a build loads, and where it writes

Loading the pages of a book changes nothing on the disk, and gives pages with the paths of the page
list. The book is written to a file of the working copy itself when the name of the site has no
slash. So a build writes below its working copy when no page path leads out of it.
-/

namespace Folio

open Disk Job Text

/-- A path without slashes is relative. -/
theorem Path.root_of_not_mem {cs : List Char} (h : '/' ∉ cs) : Path.root cs = [] := by
  unfold root
  split <;> simp_all

/-- A name without slashes is a location of one name, unless it is empty or a dot. -/
theorem Location.ofString_of_not_mem {name : String} (h : '/' ∉ name.toList) (hempty : name ≠ "")
    (hdot : name ≠ ".") : Location.ofString name = ⟨"", [name]⟩ := by
  have hchars : name.toList ≠ [] ∧ name.toList ≠ ['.'] := by
    constructor
    · exact fun hlist => hempty (String.toList_inj.mp hlist)
    · exact fun hlist => hdot (String.toList_inj.mp hlist)
  rw [ofString, Path.root_of_not_mem h, Path.segments, splitAt_of_not_mem h]
  simp [hchars]

/-- A name with the suffix of the book is no dot, no double dot and not empty. -/
theorem typ_ne {stem s : String} (h : 't' ∉ s.toList) : stem ++ ".typ" ≠ s := by
  rintro rfl
  exact h (by simp)

/-- No digit is a slash. -/
theorem slash_not_mem_toDigits (n : Nat) : '/' ∉ Nat.toDigits 10 n := by
  intro hmem
  have hdigit : ('/' : Char).isDigit = true :=
    Nat.isDigit_of_mem_toDigits (by decide) (by decide) hmem
  exact absurd hdigit (by decide)

/-- The suffix for a version has no slash. -/
theorem slash_not_mem_versionSuffix {version suffix : String}
    (h : versionSuffix? version = some suffix) : '/' ∉ suffix.toList := by
  unfold versionSuffix? at h
  split at h
  · cases h
    decide
  · simp only [Option.bind_eq_bind, Option.bind_eq_some_iff, Option.some.injEq] at h
    obtain ⟨major, -, minor, -, patch, -, rfl⟩ := h
    simp [slash_not_mem_toDigits]

/-- The name of the artifact has no slash if the name of the site has none. -/
theorem slash_not_mem_artifactStem {sitename version stem : String}
    (hsite : '/' ∉ sitename.toList) (h : artifactStem? sitename version = some stem) :
    '/' ∉ stem.toList := by
  obtain ⟨suffix, hsuffix, rfl⟩ := Option.map_eq_some_iff.mp h
  rw [String.toList_ofList, String.toList_append]
  intro hmem
  rcases List.mem_append.mp (List.mem_of_mem_filter hmem) with hmem | hmem
  · exact hsite hmem
  · exact slash_not_mem_versionSuffix hsuffix hmem

namespace Manuscript

variable {m : Manuscript} {copy : Location} {desk desk' : Desk}

section Reading

variable {R : Disk → Disk → Prop} (hR : IsFrame R)

include hR

/-- Reading a tree changes nothing on the disk. -/
theorem tree_respects (path : String) : Respects R (m.tree copy path) := by
  unfold tree
  refine hR.bind (hR.read _ _) fun found => hR.refusing _ (hR.bind (hR.read _ _) fun text => ?_)
  split
  · split
    · exact hR.throw _
    · exact hR.bind (hR.notices _) fun _ => hR.bind (hR.modify fun _ => rfl) fun _ => hR.pure _
  · exact hR.throw _

/-- Reading a page changes nothing on the disk. -/
theorem page_respects (entry : PageEntry) : Respects R (m.page copy entry) := by
  unfold page
  simp only
  split
  · exact hR.pure _
  · exact hR.bind (tree_respects hR entry.path) fun _ => hR.pure _

/-- Reading the pages of a list changes nothing on the disk. -/
theorem bareEntries_respects (entries : List PageEntry) :
    Respects R (m.bareEntries copy entries) := by
  induction entries with
  | nil => exact hR.pure _
  | cons entry rest ih =>
    exact hR.bind (page_respects hR entry) fun _ => hR.bind ih fun _ => hR.pure _

/-- Loading the pages changes nothing. -/
theorem pages_respects : Respects R (m.pages copy) := by
  refine hR.bind (bareEntries_respects hR _) fun bare => ?_
  split
  · exact hR.pure _
  · exact hR.throw _

/-- Reading the style changes nothing on the disk. -/
theorem customStyle_respects : Respects R (customStyle copy) := by
  unfold customStyle
  refine hR.bind (hR.read _ _) fun found => ?_
  split
  · exact hR.bind (hR.read _ _) fun _ => hR.pure _
  · exact hR.pure _

/-- Naming the source changes nothing on the disk. -/
theorem source_respects : Respects R (m.source copy) := by
  unfold source
  split
  · exact hR.pure _
  · exact hR.throw _

end Reading

/-- The source is named after the artifact. -/
theorem source_ok {file : Location} (h : m.source copy desk = .ok file desk') :
    desk' = desk ∧ ∃ stem, artifactStem? m.config.sitename m.config.version = some stem ∧
      file = copy.below (.ofString (stem ++ ".typ")) := by
  unfold source at h
  cases hstem : artifactStem? m.config.sitename m.config.version with
  | none =>
    rw [hstem] at h
    cases h
  | some stem =>
    rw [hstem] at h
    cases h
    exact ⟨rfl, stem, rfl, rfl⟩

/-- The book is written to a file of the working copy itself. -/
theorem below_stem {stem : String} (hsite : '/' ∉ m.config.sitename.toList)
    (hstem : artifactStem? m.config.sitename m.config.version = some stem) (copy : Location) :
    copy.below (.ofString (stem ++ ".typ")) = copy.child (stem ++ ".typ") := by
  have hslash : '/' ∉ (stem ++ ".typ").toList := by
    have hstemSlash := slash_not_mem_artifactStem hsite hstem
    have hsuffix : '/' ∉ ".typ".toList := by decide
    simpa only [String.toList_append, List.mem_append, not_or] using ⟨hstemSlash, hsuffix⟩
  rw [Location.ofString_of_not_mem hslash (typ_ne (by decide)) (typ_ne (by decide))]
  rfl

/-- A page that is read has the path of its entry. -/
theorem page_path {entry : PageEntry} {p : Page} (h : m.page copy entry desk = .ok p desk') :
    p.path = entry.path := by
  simp only [page] at h
  split at h
  · cases h
    rfl
  · obtain ⟨nodes, mid, -, h⟩ := Job.bind_eq_ok.mp h
    cases h
    rfl

/-- A page keeps its path when its listings are filled in. -/
theorem listedPage_path {pages : List Page} {p q : Page} (h : listedPage pages p = .ok q) :
    q.path = p.path := by
  rcases Page.listedPage_eq_ok h with ⟨-, rfl⟩ | ⟨-, listed, -, rfl⟩ <;> rfl

/-- The pages that are loaded have the paths of the page list. -/
theorem pages_paths {ps : List Page} (h : m.pages copy desk = .ok ps desk') :
    ps.map Page.path = m.config.pages.map PageEntry.path := by
  obtain ⟨bare, mid, hbare, hlisted⟩ := pages_loaded h
  have hkept : ps.map Page.path = bare.map Page.path :=
    map_eq_map_of_forall₂ (forall₂_of_mapM_eq_ok hlisted) fun _ _ => listedPage_path
  rw [hkept]
  exact map_eq_map_of_forall₂ (bareEntries_loaded hbare) fun _ _ ⟨_, _, hpage⟩ => page_path hpage

/-- Hand-written pages stand in the page list. -/
theorem mem_of_mem_rawPaths {ps : List Page} (h : m.pages copy desk = .ok ps desk')
    {path : String} (hpath : path ∈ rawPaths ps) : ∃ entry ∈ m.config.pages, entry.path = path := by
  obtain ⟨p, hp, rfl⟩ := List.mem_map.mp hpath
  have hmem : p.path ∈ m.config.pages.map PageEntry.path := by
    rw [← pages_paths h]
    exact List.mem_map_of_mem (List.mem_of_mem_filter hp)
  exact List.mem_map.mp hmem

end Manuscript

end Folio
