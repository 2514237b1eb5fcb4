import Folio.Path
import Folio.Slug
import Mathlib.Data.List.Basic

/-!
# What texts are made of

Cutting a text gives parts of its own characters, and joining parts adds no character but the
separator. So a slug has no characters but those that slugs keep, and a path that is resolved has
none but those of the paths it comes from, slashes and dots.
-/

namespace Folio

open Text

namespace Text

/-- Words have the characters of the text. -/
theorem mem_of_mem_words {cs w : List Char} {c : Char} (hw : w ∈ words cs) (hc : c ∈ w) :
    c ∈ cs := by
  induction cs generalizing w with
  | nil => cases hw
  | cons d rest ih =>
    rw [words] at hw
    split at hw
    · exact List.mem_cons_of_mem _ (ih hw hc)
    · split at hw
      · rcases List.mem_cons.mp hw with rfl | hw
        · exact List.mem_singleton.mp hc ▸ List.mem_cons_self
        · exact List.mem_cons_of_mem _ (ih hw hc)
      · split at hw
        · exact List.mem_singleton.mp (List.mem_singleton.mp hw ▸ hc) ▸ List.mem_cons_self
        · next v vs hv =>
          rcases List.mem_cons.mp hw with rfl | hw
          · rcases List.mem_cons.mp hc with rfl | hc
            · exact List.mem_cons_self
            · exact List.mem_cons_of_mem _ (ih (hv ▸ List.mem_cons_self) hc)
          · exact List.mem_cons_of_mem _ (ih (hv ▸ List.mem_cons_of_mem _ hw) hc)

/-- The parts between separators have the characters of the text. -/
theorem mem_of_mem_splitAt {separator c : Char} {cs part : List Char}
    (hpart : part ∈ splitAt separator cs) (hc : c ∈ part) : c ∈ cs := by
  induction cs generalizing part with
  | nil =>
    rw [splitAt, List.mem_singleton] at hpart
    exact hpart ▸ hc
  | cons d rest ih =>
    rw [splitAt] at hpart
    split at hpart
    · rcases List.mem_cons.mp hpart with rfl | hpart
      · cases hc
      · exact List.mem_cons_of_mem _ (ih hpart hc)
    · split at hpart
      · exact List.mem_singleton.mp (List.mem_singleton.mp hpart ▸ hc) ▸ List.mem_cons_self
      · next front parts hparts =>
        rcases List.mem_cons.mp hpart with rfl | hpart
        · rcases List.mem_cons.mp hc with rfl | hc
          · exact List.mem_cons_self
          · exact List.mem_cons_of_mem _ (ih (hparts ▸ List.mem_cons_self) hc)
        · exact List.mem_cons_of_mem _ (ih (hparts ▸ List.mem_cons_of_mem _ hpart) hc)

/-- Joined parts have the characters of the parts and of the separator. -/
theorem mem_intercalate {separator : List Char} {parts : List (List Char)} {c : Char}
    (h : c ∈ separator.intercalate parts) : c ∈ separator ∨ ∃ part ∈ parts, c ∈ part := by
  induction parts with
  | nil => cases h
  | cons part rest ih =>
    cases rest with
    | nil => exact .inr ⟨part, List.mem_cons_self, by rwa [List.intercalate_singleton] at h⟩
    | cons next others =>
      rw [List.intercalate_cons_cons, List.mem_append, List.mem_append] at h
      rcases h with (h | h) | h
      · exact .inr ⟨part, List.mem_cons_self, h⟩
      · exact .inl h
      · exact (ih h).imp_right fun ⟨p, hp, hc⟩ => ⟨p, List.mem_cons_of_mem _ hp, hc⟩

/-- Joined parts have all their characters. -/
theorem mem_intercalate_of_mem {separator : List Char} {parts : List (List Char)} {part : List Char}
    {c : Char} (hpart : part ∈ parts) (hc : c ∈ part) : c ∈ separator.intercalate parts := by
  induction parts with
  | nil => cases hpart
  | cons first rest ih =>
    cases rest with
    | nil =>
      rw [List.mem_singleton] at hpart
      rwa [List.intercalate_singleton, ← hpart]
    | cons next others =>
      rw [List.intercalate_cons_cons, List.mem_append, List.mem_append]
      rcases List.mem_cons.mp hpart with rfl | hrest
      · exact .inl (.inl hc)
      · exact .inr (ih hrest)

end Text

/-- A slug is made of the characters that slugs keep. -/
theorem isSlugChar_of_mem_slug {s : String} {c : Char} (h : c ∈ (slug s).toList) :
    isSlugChar c = true := by
  rw [slug, String.toList_ofList, slugChars] at h
  rcases mem_intercalate h with hc | ⟨w, hw, hc⟩
  · rw [List.mem_singleton.mp hc]
    decide
  · have hkept := (List.mem_filter.mp (mem_of_mem_words hw hc)).2
    rwa [(of_mem_words hw).2 c hc, Bool.or_false] at hkept

namespace Path

/-- Other characters than slashes are those of the path. -/
theorem mem_withSlashes {cs : List Char} {c : Char} (h : c ∈ withSlashes cs) (hc : c ≠ '/') :
    c ∈ cs := by
  obtain ⟨d, hd, rfl⟩ := List.mem_map.mp h
  split at hc
  · exact absurd rfl hc
  · next hne => rwa [if_neg hne]

/-- Walking over a segment leaves no segment but those walked before and itself. -/
theorem mem_step {rooted : Bool} {walked : List (List Char)} {segment s : List Char}
    (h : s ∈ step rooted walked segment) : s ∈ walked ∨ s = segment := by
  unfold step at h
  split at h
  · exact .inl h
  · split at h
    · split at h
      · split at h
        · cases h
        · exact .inr (List.mem_singleton.mp h)
      · split at h
        · exact (List.mem_cons.mp h).symm
        · exact .inl (List.mem_cons_of_mem _ h)
    · exact (List.mem_cons.mp h).symm

/-- Walking adds no segment. -/
theorem mem_foldl_step {rooted : Bool} {segments walked : List (List Char)} {s : List Char}
    (h : s ∈ segments.foldl (step rooted) walked) : s ∈ walked ∨ s ∈ segments := by
  induction segments generalizing walked with
  | nil => exact .inl h
  | cons segment rest ih =>
    rcases ih h with hwalked | hrest
    · rcases mem_step hwalked with hbefore | rfl
      · exact .inl hbefore
      · exact .inr List.mem_cons_self
    · exact .inr (List.mem_cons_of_mem _ hrest)

/-- The root of a path is made of slashes. -/
theorem mem_root {cs : List Char} {c : Char} (h : c ∈ root cs) : c = '/' := by
  unfold root at h
  split at h <;> simp_all

/-- A path with its dots resolved has the characters of the path, slashes and dots. -/
theorem mem_collapse {cs : List Char} {c : Char} (h : c ∈ collapse cs) :
    c ∈ cs ∨ c = '/' ∨ c = '.' := by
  simp only [collapse] at h
  split at h
  · exact .inr (.inr (List.mem_singleton.mp h))
  · rcases List.mem_append.mp h with hroot | hwalked
    · exact .inr (.inl (mem_root hroot))
    · rcases mem_intercalate hwalked with hslash | ⟨s, hs, hc⟩
      · exact .inr (.inl (List.mem_singleton.mp hslash))
      · rcases mem_foldl_step (List.mem_reverse.mp hs) with hnone | hsegment
        · cases hnone
        · exact .inl (mem_of_mem_splitAt hsegment hc)

/-- The folder of a path has the characters of the path. -/
theorem mem_folder {cs : List Char} {c : Char} (h : c ∈ folder cs) : c ∈ cs := by
  have hhead : (cs.reverse.dropWhile (· ≠ '/')).reverse ⊆ cs := fun d hd =>
    List.mem_reverse.mp ((List.dropWhile_suffix _).subset (List.mem_reverse.mp hd))
  simp only [folder] at h
  split at h
  · exact hhead h
  · exact hhead (List.mem_reverse.mp
      ((List.dropWhile_suffix _).subset (List.mem_reverse.mp h)))

/-- A joined path has the characters of both parts and a slash. -/
theorem mem_join {directory path : List Char} {c : Char} (h : c ∈ join directory path) :
    c ∈ directory ∨ c ∈ path ∨ c = '/' := by
  unfold join at h
  split at h
  · exact .inr (.inl h)
  · split at h
    · exact (List.mem_append.mp h).imp_right .inl
    · rcases List.mem_append.mp h with h | h
      · exact .inl h
      · exact .inr ((List.mem_cons.mp h).symm)

/-- A path seen from a page has the characters of both, slashes and dots. -/
theorem mem_resolve {page target : List Char} {c : Char} (h : c ∈ resolve page target) :
    c ∈ page ∨ c ∈ target ∨ c = '/' ∨ c = '.' := by
  rcases mem_collapse h with hjoin | hsign
  · rcases mem_join hjoin with hpage | htarget | hslash
    · exact .inl (mem_folder hpage)
    · exact .inr (.inl htarget)
    · exact .inr (.inr (.inl hslash))
  · exact .inr (.inr hsign)

end Path

end Folio
