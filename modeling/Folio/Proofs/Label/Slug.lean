import Folio.Label
import Folio.Markdown.Convert
import Folio.Proofs.Text.Decimal
import Folio.Proofs.Text.Parts
import Folio.Proofs.Text.Words

/-!
# Slugs are canonical labels

A slug depends on the words that are left of a text and has no blanks itself, so that it is its own
slug, and none of its characters is escaped. It is found in steps as well: trimming, leaving out
characters, trimming again, since other blanks may have come to the ends, and putting hyphens.
-/

namespace Folio

open Text

variable {c : Char} {cs before gap after : List Char}

/-- Whether a character of a text stays when a slug is made of it, if only as a blank. -/
def staysInSlug (c : Char) : Bool := isSlugChar c || isBlank c

theorem slugChars_eq (cs : List Char) :
    slugChars cs = ['-'].intercalate (words (cs.filter staysInSlug)) := rfl

theorem filter_blanks (h : Blanks cs) : cs.filter staysInSlug = cs :=
  List.filter_eq_self.mpr fun c hc => by rw [staysInSlug, h c hc, Bool.or_true]

/-- Leaving out characters between the blanks at the ends. -/
theorem slugChars_between (hbefore : Blanks before) (hafter : Blanks after) (cs : List Char) :
    slugChars (before ++ cs ++ after) = slugChars cs := by
  rw [slugChars_eq, List.filter_append, List.filter_append, filter_blanks hbefore,
    filter_blanks hafter, words_between hbefore hafter, slugChars_eq]

/-- The slug of a text with a gap consists of the words on its sides. -/
theorem slugChars_gap (hgap : Blanks gap) (hne : gap ≠ []) (before after : List Char) :
    slugChars (before ++ gap ++ after) = ['-'].intercalate
      (words (before.filter staysInSlug) ++ words (after.filter staysInSlug)) := by
  rw [slugChars_eq, List.filter_append, List.filter_append, filter_blanks hgap, words_gap hgap hne]

/-- A slug in steps: trimming, leaving out characters, trimming again, and putting hyphens. -/
theorem slugChars_eq_hyphenated (cs : List Char) :
    slugChars cs = hyphenated false (trimmed ((trimmed cs).filter staysInSlug)) := by
  obtain ⟨before, after, hbefore, hafter, hcs⟩ := exists_trimmed cs
  rw [hyphenated_trimmed, ← slugChars_eq]
  conv_lhs => rw [hcs, slugChars_between hbefore hafter]

theorem isBlank_eq_false_of_isSlugChar (h : isSlugChar c = true) : isBlank c = false := by
  simp only [isSlugChar, Bool.or_eq_true, decide_eq_true_eq] at h
  rcases h with ((hword | rfl) | rfl) | rfl
  · exact isBlank_eq_false_of_isWord hword
  all_goals decide

/-- A text of the characters that slugs keep is its own slug. -/
theorem slug_eq_self {s : String} (h : ∀ c ∈ s.toList, isSlugChar c = true) : slug s = s := by
  have hfilter : s.toList.filter staysInSlug = s.toList :=
    List.filter_eq_self.mpr fun c hc => by rw [staysInSlug, h c hc, Bool.true_or]
  rw [slug, slugChars_eq, hfilter]
  by_cases hnone : s.toList = []
  · rw [hnone, String.toList_eq_nil_iff.mp hnone]
    rfl
  · rw [words_of_not_blank (fun c hc => isBlank_eq_false_of_isSlugChar (h c hc)) hnone,
      List.intercalate_singleton, String.ofList_toList]

/-- A text of the characters that slugs keep has nothing to escape. -/
theorem escapeString_eq_self {s : String} (h : ∀ c ∈ s.toList, isSlugChar c = true) :
    Markup.escapeString s = s := by
  have hplain (c : Char) (hc : c ∈ s.toList) : Markup.stringChar c = [c] := by
    rw [Markup.stringChar, if_neg]
    rintro (rfl | rfl) <;> exact absurd (h _ hc) (by decide)
  rw [Markup.escapeString, List.flatMap_congr hplain, List.flatMap_singleton', String.ofList_toList]

/-- The normal form of no path is no path, whatever a book is built in. -/
theorem Path.normal_empty (base : String) : Path.normal base "" = "" := by
  have hnone (mark : List Char) : (after? (mark ++ ['/']) []).getD [] = [] := by
    cases mark <;> rfl
  rw [Path.normal, Path.normalChars]
  simp only [String.toList_empty, Path.withSlashes, List.map_nil, Path.dropHere, hnone, ite_self]

/-- The label of no page is its name as it stands, if it is made of what slugs keep. -/
theorem Labels.escaped_id_of_no_page (labels : Labels) {name : String}
    (h : ∀ c ∈ name.toList, isSlugChar c = true) : (labels.id "" name).escaped = name := by
  rw [LabelId.escaped, LabelId.text, Labels.id, if_pos (Path.normal_empty _),
    escapeString_eq_self h]

theorem isSlugChar_of_isDigit (h : c.isDigit = true) : isSlugChar c = true := by
  have hdigits : ∀ n ∈ List.range' 48 10, covers wordRanges n = true := by decide
  have hword : isWord c = true := by
    refine hdigits c.toNat (List.mem_range'_1.mpr ?_)
    simpa [Char.isDigit, UInt32.le_iff_toNat_le, Nat.lt_succ_iff] using h
  rw [isSlugChar, hword, Bool.true_or, Bool.true_or, Bool.true_or]

/-- The anchor of a heading is made of what slugs keep, also with a number behind the slug. -/
theorem Markdown.isSlugChar_of_mem_freeLabel {s : String} {used : List String}
    (h : c ∈ (freeLabel (slug s) used).toList) : isSlugChar c = true := by
  have hroot : ∀ d ∈ (if slug s = "" then "section" else slug s).toList, isSlugChar d = true := by
    split
    · exact List.all_eq_true.mp (by decide)
    · exact fun d hd => isSlugChar_of_mem_slug hd
  rw [freeLabel] at h
  generalize (if slug s = "" then "section" else slug s) = root at hroot h
  split at h
  · simp only [numbered, String.toList_append, List.mem_append] at h
    rcases h with (hmem | hhyphen) | hdigit
    · exact hroot c hmem
    · rw [List.mem_singleton.mp hhyphen]
      decide
    · exact isSlugChar_of_isDigit (isDigit_of_mem_toString hdigit)
  · exact hroot c h

/-- A slug is a canonical label. It is found by trimming a text, leaving out characters, trimming
again and putting a hyphen in place of every run of blanks. It has word characters, full stops, plus
signs and hyphens only, so no blanks, and nothing in it is escaped, also where it is the whole label
because there is no page, or where a number is put behind it. It is its own slug. Blanks at the ends
of a text do not change its slug, and a run of blanks inside of it may be replaced by any other. -/
theorem slug_is_canonical (s : String) :
    (slug s).toList = hyphenated false (trimmed ((trimmed s.toList).filter staysInSlug)) ∧
    (∀ c ∈ (slug s).toList, (isWord c = true ∨ c = '.' ∨ c = '+' ∨ c = '-') ∧
      isBlank c = false ∧ c ∉ ['#', '"', '\'', '\\']) ∧
    Markup.escapeString (slug s) = slug s ∧
    (∀ (labels : Labels) (used : List String), (labels.id "" (slug s)).escaped = slug s ∧
      (labels.id "" (Markdown.freeLabel (slug s) used)).escaped =
        Markdown.freeLabel (slug s) used) ∧
    slug (slug s) = slug s ∧
    (∀ before after : String, Blanks before.toList → Blanks after.toList →
      slug (before ++ s ++ after) = slug s) ∧
    ∀ before gap gap' after : String, s = before ++ gap ++ after →
      Blanks gap.toList → gap ≠ "" → Blanks gap'.toList → gap' ≠ "" →
        slug (before ++ gap' ++ after) = slug s := by
  have hstays (c : Char) (hc : c ∈ (slug s).toList) : isSlugChar c = true :=
    isSlugChar_of_mem_slug hc
  refine ⟨?_, fun c hc => ⟨?_, isBlank_eq_false_of_isSlugChar (hstays c hc), ?_⟩,
    escapeString_eq_self hstays, fun labels used => ⟨labels.escaped_id_of_no_page hstays,
      labels.escaped_id_of_no_page fun c hc => Markdown.isSlugChar_of_mem_freeLabel hc⟩,
    slug_eq_self hstays, fun before after hbefore hafter => ?_, ?_⟩
  · rw [slug, String.toList_ofList, slugChars_eq_hyphenated]
  · simpa only [isSlugChar, Bool.or_eq_true, decide_eq_true_eq, or_assoc] using hstays c hc
  · intro hmem
    have hnone : ['#', '"', '\'', '\\'].all fun d => !isSlugChar d := by decide
    have hbad := List.all_eq_true.mp hnone c hmem
    rw [hstays c hc] at hbad
    exact Bool.false_ne_true hbad
  · rw [slug, String.toList_append, String.toList_append, slugChars_between hbefore hafter, slug]
  · rintro before gap gap' after rfl hgap hne hgap' hne'
    have hgaps (g : String) (hg : Blanks g.toList) (hne : g ≠ "") :
        slugChars (before ++ g ++ after).toList = ['-'].intercalate
          (words (before.toList.filter staysInSlug) ++
            words (after.toList.filter staysInSlug)) := by
      rw [String.toList_append, String.toList_append,
        slugChars_gap hg (mt String.toList_eq_nil_iff.mp hne)]
    rw [slug, slug, hgaps gap' hgap' hne', hgaps gap hgap hne]

/-- Blanks around a heading, and other blanks between its words. -/
theorem slug_is_canonical_spacedHeading :
    slug ("\t" ++ "Second, section" ++ "\u2003\n") = slug "Second, section" ∧
      slug ("Second," ++ "\u00a0\n" ++ "section") = slug "Second, section" := by
  obtain ⟨-, -, -, -, -, hends, hgap⟩ := slug_is_canonical "Second, section"
  exact ⟨hends "\t" "\u2003\n" (by decide) (by decide),
    hgap "Second," " " "\u00a0\n" "section" rfl (by decide) (by decide) (by decide) (by decide)⟩

end Folio
