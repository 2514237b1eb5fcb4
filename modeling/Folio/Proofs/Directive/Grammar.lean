import Folio.Directive.Line
import Folio.Proofs.Text.Lines

/-!
# The grammar of hand-written pages

A line is a directive by what it says behind the slashes of a comment, with blanks anywhere around.
The lines of a page fall into stretches: an example from the line that opens it to the first line
that closes it, or to the end of the page, and single lines. There is exactly one way to cut the
lines so, and it is the way in which the page is read.
-/

namespace Folio.Directive

open Text

/-- A line is a comment: blanks, two slashes and anything. -/
def Comments (line : String) : Prop :=
  ∃ before rest, Blanks before ∧ line.toList = before ++ '/' :: '/' :: rest

/-- A line is a comment of some words, with blanks around the slashes and behind the words. -/
def Says (line : String) (words : List Char) : Prop :=
  ∃ before gap after, Blanks before ∧ Blanks gap ∧ Blanks after ∧
    line.toList = before ++ '/' :: '/' :: (gap ++ words) ++ after

/-- A line opens an example. -/
def Opens (line : String) : Prop := Says line "@typst-example".toList

/-- A line closes an example. -/
def Closes (line : String) : Prop := Says line "@typst-example-end".toList

/-- The name of a binding: a letter or low line, and word characters and dots. -/
def IsName (name : String) : Prop :=
  ∃ c cs, name.toList = c :: cs ∧ isNameStart c = true ∧ ∀ d ∈ cs, isWord d = true ∨ d = '.'

/-- A line asks for the documentation of a binding. -/
def Documents (line name : String) : Prop :=
  ∃ gap, gap ≠ [] ∧ Blanks gap ∧ IsName name ∧
    Says line ("@typst-docs".toList ++ gap ++ name.toList)

/-- A line with the words of a directive is a comment. -/
theorem Says.comments {line : String} {words : List Char} (h : Says line words) :
    Comments line := by
  obtain ⟨before, gap, after, hbefore, -, -, hline⟩ := h
  exact ⟨before, gap ++ words ++ after, hbefore, by simp [hline]⟩

/-- Trimming a comment leaves the slashes in front. -/
theorem trimmed_comment {before : List Char} (h : Blanks before) (rest : List Char) :
    trimmed (before ++ '/' :: '/' :: rest) = '/' :: '/' :: dropEndWhile isBlank rest := by
  have hslash : isBlank '/' = false := by decide
  rw [trimmed, trimWhile, List.dropWhile_append_of_pos h,
    List.dropWhile_cons_of_neg (by simp [hslash]),
    dropEndWhile_cons_of_neg hslash, dropEndWhile_cons_of_neg hslash]

/-- The test for comments finds the comments. -/
theorem isComment_iff {line : String} : isComment line = true ↔ Comments line := by
  rw [isComment, comment?, Option.isSome_map, Option.isSome_iff_exists]
  constructor
  · rintro ⟨rest, hrest⟩
    obtain ⟨before, after, hbefore, -, hline⟩ := exists_trimmed line.toList
    rw [after?_eq_some_iff.mp hrest] at hline
    exact ⟨before, rest ++ after, hbefore, by simpa using hline⟩
  · rintro ⟨before, rest, hbefore, hline⟩
    rw [hline, trimmed_comment hbefore]
    exact ⟨_, after?_eq_some_iff.mpr rfl⟩

/-- A text with a first and a last character, neither of them a blank. -/
def Solid (cs : List Char) : Prop :=
  (∃ c rest, cs = c :: rest ∧ isBlank c = false) ∧ ∃ init c, cs = init ++ [c] ∧ isBlank c = false

/-- The words of a comment are what it says. -/
theorem comment?_eq_some_iff {line : String} {words : List Char} (hwords : Solid words) :
    comment? line = some words ↔ Says line words := by
  rw [comment?, Option.map_eq_some_iff]
  constructor
  · rintro ⟨rest, hrest, rfl⟩
    obtain ⟨before, after, hbefore, hafter, hline⟩ := exists_trimmed line.toList
    rw [after?_eq_some_iff.mp hrest] at hline
    refine ⟨before, rest.takeWhile isBlank, after, hbefore,
      fun c hc => List.mem_takeWhile_imp hc, hafter, ?_⟩
    rw [List.takeWhile_append_dropWhile]
    exact hline
  · rintro ⟨before, gap, after, hbefore, hgap, hafter, hline⟩
    obtain ⟨⟨first, others, hfirst, hsolid⟩, init, final, hfinal, hend⟩ := hwords
    refine ⟨gap ++ words, ?_, ?_⟩
    · rw [after?_eq_some_iff, hline, List.append_assoc, List.cons_append, List.cons_append,
        trimmed_comment hbefore, dropEndWhile_append hafter, hfinal, ← List.append_assoc,
        dropEndWhile_concat_of_neg hend]
      rfl
    · rw [List.dropWhile_append_of_pos hgap, hfirst, List.dropWhile_cons_of_neg (by simp [hsolid])]

/-- The test for openings finds the lines that open an example. -/
theorem opensExample_iff {line : String} : opensExample line = true ↔ Opens line := by
  rw [opensExample, decide_eq_true_iff]
  exact comment?_eq_some_iff
    ⟨⟨'@', _, rfl, by decide⟩, "@typst-exampl".toList, 'e', by decide, by decide⟩

/-- The test for closings finds the lines that close one. -/
theorem closesExample_iff {line : String} : closesExample line = true ↔ Closes line := by
  rw [closesExample, decide_eq_true_iff]
  exact comment?_eq_some_iff
    ⟨⟨'@', _, rfl, by decide⟩, "@typst-example-en".toList, 'd', by decide, by decide⟩

/-- No name starts with a blank. -/
theorem isBlank_eq_false_of_isNameStart {c : Char} (h : isNameStart c = true) :
    isBlank c = false := by
  have hnone : ∀ n ∈ List.range' 65 58, covers blankRanges n = false := by decide
  refine hnone c.toNat (List.mem_range'_1.mpr ?_)
  simp only [isNameStart, Bool.or_eq_true, Bool.and_eq_true, decide_eq_true_eq, Char.le_def,
    UInt32.le_iff_toNat_le] at h
  rcases h with (⟨hlow, hhigh⟩ | ⟨hlow, hhigh⟩) | rfl
  · change 65 ≤ c.toNat at hlow
    change c.toNat ≤ 90 at hhigh
    omega
  · change 97 ≤ c.toNat at hlow
    change c.toNat ≤ 122 at hhigh
    omega
  · decide

/-- What asks for documentation is a text without blanks at its ends. -/
theorem solid_documents {gap : List Char} {name : String} (hname : IsName name) :
    Solid ("@typst-docs".toList ++ gap ++ name.toList) := by
  obtain ⟨c, cs, hparts, hstart, hcs⟩ := hname
  have hsolid (d : Char) (hd : d ∈ name.toList) : isBlank d = false := by
    rw [hparts] at hd
    rcases List.mem_cons.mp hd with rfl | hd
    · exact isBlank_eq_false_of_isNameStart hstart
    · rcases hcs d hd with hword | rfl
      · exact isBlank_eq_false_of_isWord hword
      · decide
  have hne : name.toList ≠ [] := by simp [hparts]
  refine ⟨⟨'@', _, rfl, by decide⟩, "@typst-docs".toList ++ gap ++ name.toList.dropLast,
    name.toList.getLast hne, ?_, hsolid _ (List.getLast_mem hne)⟩
  rw [List.append_assoc _ _ [_], List.dropLast_concat_getLast]

/-- The test for documentation reads the name that a line documents. -/
theorem documented?_eq_some_iff {line name : String} :
    documented? line = some name ↔ Documents line name := by
  unfold documented?
  constructor
  · intro h
    split at h
    · next b rest hrest =>
      obtain ⟨words, hwords, hafter⟩ := Option.bind_eq_some_iff.mp hrest
      split at h
      · next c cs hrest =>
        split at h
        · next hchars =>
          simp only [Bool.and_eq_true, List.all_eq_true, Bool.or_eq_true,
            decide_eq_true_eq] at hchars
          obtain ⟨⟨hblank, hstart⟩, hcs⟩ := hchars
          obtain rfl := Option.some.inj h
          have hlist : (String.ofList (c :: cs)).toList = c :: cs := String.toList_ofList
          have hname : IsName (String.ofList (c :: cs)) := ⟨c, cs, hlist, hstart, hcs⟩
          have hgap : Blanks (b :: rest.takeWhile isBlank) :=
            List.forall_mem_cons.mpr ⟨hblank, fun d hd => List.mem_takeWhile_imp hd⟩
          have hparts : words = "@typst-docs".toList ++ b :: rest.takeWhile isBlank ++
              (String.ofList (c :: cs)).toList := by
            rw [after?_eq_some_iff.mp hafter, hlist, ← hrest, List.append_assoc,
              List.cons_append, List.takeWhile_append_dropWhile]
          refine ⟨b :: rest.takeWhile isBlank, nofun, hgap, hname, ?_⟩
          rw [← comment?_eq_some_iff (solid_documents hname), hwords, hparts]
        · cases h
      · cases h
    · cases h
  · rintro ⟨gap, hgap, hblanks, hname, hsays⟩
    have hcomment := (comment?_eq_some_iff (solid_documents hname)).mpr hsays
    obtain ⟨c, cs, hparts, hstart, hcs⟩ := hname
    obtain ⟨b, gap, rfl⟩ := List.exists_cons_of_ne_nil hgap
    obtain ⟨hblank, hrest⟩ := List.forall_mem_cons.mp hblanks
    have hdrop : (gap ++ name.toList).dropWhile isBlank = c :: cs := by
      have hsolid := isBlank_eq_false_of_isNameStart hstart
      rw [List.dropWhile_append_of_pos hrest, hparts, List.dropWhile_cons_of_neg (by simp [hsolid])]
    have hchars : (isBlank b && isNameStart c && cs.all fun d => isWord d || d = '.') = true := by
      simpa [hblank, hstart] using hcs
    rw [hcomment, Option.bind_some, List.append_assoc, after?_eq_some_iff.mpr rfl]
    simp only [List.cons_append, hdrop, hchars, if_true]
    rw [← hparts, String.ofList_toList]

/-- A line that opens an example documents nothing. -/
theorem Opens.not_documents {line : String} (h : Opens line) (name : String) :
    ¬Documents line name := by
  rw [← documented?_eq_some_iff, documented?]
  rw [← opensExample_iff, opensExample, decide_eq_true_iff] at h
  have hother : after? "@typst-docs".toList "@typst-example".toList = none := by decide
  rw [h, Option.bind_some, hother]
  nofun

/-- A line that closes an example opens none. -/
theorem Closes.not_opens {line : String} (h : Closes line) : ¬Opens line := by
  rw [← opensExample_iff, opensExample, decide_eq_true_iff]
  rw [← closesExample_iff, closesExample, decide_eq_true_iff] at h
  rw [h]
  decide

/-- A line that closes an example documents nothing. -/
theorem Closes.not_documents {line : String} (h : Closes line) (name : String) :
    ¬Documents line name := by
  rw [← documented?_eq_some_iff, documented?]
  rw [← closesExample_iff, closesExample, decide_eq_true_iff] at h
  have hother : after? "@typst-docs".toList "@typst-example-end".toList = none := by decide
  rw [h, Option.bind_some, hother]
  nofun

/-- A stretch of the lines of a page. -/
inductive Stretch
  /-- An example: the line that opens it, those inside, and the line that closes it, if one does. -/
  | sample (opening : String) (inside : List String) (closing : Option String)
  | docs (line name : String)
  | comment (line : String)
  | plain (line : String)

namespace Stretch

/-- The lines of a stretch. -/
def lines : Stretch → List String
  | sample opening inside closing => opening :: (inside ++ closing.toList)
  | docs line _ | comment line | plain line => [line]

/-- Whether a stretch goes to the end of the page. -/
def isOpenEnded : Stretch → Bool
  | sample _ _ none => true
  | _ => false

/-- What the lines of a stretch must be. -/
def Fits : Stretch → Prop
  | sample opening inside closing =>
    Opens opening ∧ (∀ line ∈ inside, ¬Closes line) ∧ ∀ line ∈ closing, Closes line
  | docs line name => Documents line name
  | comment line => Comments line ∧ ¬Opens line ∧ ∀ name, ¬Documents line name
  | plain line => ¬Comments line

/-- What is read of a stretch. -/
def segment : Stretch → Segment
  | sample _ inside closing => .sample (inside.map uncommented) closing.isSome
  | docs _ name => .docs name
  | comment line => .comment line
  | plain line => .plain line

/-- Outside of examples, a line that closes one is a comment like any other. -/
theorem fits_comment_of_closes {line : String} (h : Closes line) : (comment line).Fits :=
  ⟨h.comments, h.not_opens, h.not_documents⟩

/-- The stretch that a line is outside of examples, if it does not open one. -/
def single (line : String) : Stretch :=
  match documented? line with
  | some name => docs line name
  | none => if isComment line then comment line else plain line

/-- A line by itself makes the segment of its kind. -/
theorem segment_single (line : String) : (single line).segment = Segment.ofLine line := by
  unfold single Segment.ofLine
  cases documented? line with
  | some name => rfl
  | none => cases isComment line <;> rfl

/-- A line by itself is all of its lines. -/
theorem lines_single (line : String) : (single line).lines = [line] := by
  unfold single
  cases documented? line with
  | some name => rfl
  | none => cases isComment line <;> rfl

/-- A line by itself is not left open. -/
theorem isOpenEnded_single (line : String) : (single line).isOpenEnded = false := by
  unfold single
  cases documented? line with
  | some name => rfl
  | none => cases isComment line <;> rfl

/-- A line by itself fits unless it opens an example. -/
theorem fits_single {line : String} (h : ¬Opens line) : (single line).Fits := by
  unfold single
  cases hdocs : documented? line with
  | some name => exact documented?_eq_some_iff.mp hdocs
  | none =>
    have hname (name : String) : ¬Documents line name := by
      rw [← documented?_eq_some_iff, hdocs]
      exact nofun
    cases hcomment : isComment line with
    | true => exact ⟨isComment_iff.mp hcomment, h, hname⟩
    | false =>
      intro hcomments
      exact Bool.noConfusion (hcomment.symm.trans (isComment_iff.mpr hcomments))

/-- A stretch is an example, or it is what its only line makes of it. -/
theorem Fits.sample_or_single {s : Stretch} (h : s.Fits) :
    (∃ opening inside closing, s = sample opening inside closing) ∨
      ∃ line, ¬Opens line ∧ s = single line := by
  cases s with
  | sample opening inside closing => exact .inl ⟨opening, inside, closing, rfl⟩
  | docs line name =>
    refine .inr ⟨line, fun hopens => hopens.not_documents name h, ?_⟩
    rw [single, documented?_eq_some_iff.mpr h]
  | comment line =>
    obtain ⟨hcomments, hopens, hname⟩ := h
    have hdocs : documented? line = none :=
      Option.eq_none_iff_forall_ne_some.mpr fun name hdocs =>
        hname name (documented?_eq_some_iff.mp hdocs)
    refine .inr ⟨line, hopens, ?_⟩
    simp [single, hdocs, isComment_iff.mpr hcomments]
  | plain line =>
    have hdocs : documented? line = none :=
      Option.eq_none_iff_forall_ne_some.mpr fun name hdocs => by
        obtain ⟨gap, -, -, -, hsays⟩ := documented?_eq_some_iff.mp hdocs
        exact h hsays.comments
    have hcomment : isComment line = false := by
      rw [Bool.eq_false_iff, ne_eq, isComment_iff]
      exact h
    refine .inr ⟨line, fun hopens => h hopens.comments, ?_⟩
    simp [single, hdocs, hcomment]

end Stretch

/-- A way to cut lines into stretches, from the first line to the last one: nothing follows a
stretch that goes to the end of the page. -/
inductive CutInto : List String → List Stretch → Prop
  | nil : CutInto [] []
  | cons {s : Stretch} {ls : List String} {ss : List Stretch} (hs : s.Fits)
    (hopen : s.isOpenEnded = true → ss = []) (h : CutInto ls ss) :
    CutInto (s.lines ++ ls) (s :: ss)

/-- Any lines can be cut into stretches. -/
theorem exists_cutInto (ls : List String) : ∃ ss, CutInto ls ss := by
  induction hlength : ls.length using Nat.strong_induction_on generalizing ls with
  | _ n ih =>
    subst hlength
    cases ls with
    | nil => exact ⟨[], .nil⟩
    | cons line rest =>
      by_cases hopens : Opens line
      · rcases exists_first Closes rest with hinside | ⟨inside, closing, others, rfl, hinside, hc⟩
        · have hcut := CutInto.cons (s := .sample line rest none) ⟨hopens, hinside, nofun⟩
            (fun _ => rfl) .nil
          simp only [Stretch.lines, Option.toList_none, List.append_nil] at hcut
          exact ⟨_, hcut⟩
        · obtain ⟨ss, hss⟩ := ih others.length (by simp; omega) others rfl
          have hcut := CutInto.cons (s := .sample line inside (some closing))
            ⟨hopens, hinside, fun l hl => Option.some.inj hl ▸ hc⟩ nofun hss
          simp only [Stretch.lines, Option.toList_some, List.cons_append, List.append_assoc,
            List.nil_append] at hcut
          exact ⟨_, hcut⟩
      · obtain ⟨ss, hss⟩ := ih rest.length (Nat.lt_succ_self _) rest rfl
        have hclosed := Stretch.isOpenEnded_single line
        have hcut := CutInto.cons (Stretch.fits_single hopens)
          (fun hopen => absurd (hclosed.symm.trans hopen) nofun) hss
        rw [Stretch.lines_single] at hcut
        exact ⟨_, hcut⟩

namespace Stretch.Fits

/-- Examples that begin at the same line have the same lines. -/
theorem sample_unique {o o' : String} {a a' : List String} {c c' : Option String}
    (hs : (sample o a c).Fits) (ht : (sample o' a' c').Fits) {ls ms : List String}
    (hls : (sample o a c).isOpenEnded = true → ls = [])
    (hms : (sample o' a' c').isOpenEnded = true → ms = [])
    (h : (sample o a c).lines ++ ls = (sample o' a' c').lines ++ ms) :
    sample o a c = sample o' a' c' ∧ ls = ms := by
  obtain ⟨-, ha, hc⟩ := hs
  obtain ⟨-, ha', hc'⟩ := ht
  obtain ⟨rfl, hrest⟩ := List.cons.inj h
  simp only [List.append_eq, List.append_assoc] at hrest
  cases c with
  | none =>
    obtain rfl := hls rfl
    cases c' with
    | none =>
      obtain rfl := hms rfl
      simp only [Option.toList_none, List.append_nil] at hrest
      exact ⟨hrest ▸ rfl, rfl⟩
    | some x =>
      refine absurd (hc' x rfl) (ha x ?_)
      simp only [Option.toList_none, List.append_nil] at hrest
      simp [hrest]
  | some x =>
    cases c' with
    | none =>
      obtain rfl := hms rfl
      refine absurd (hc x rfl) (ha' x ?_)
      simp only [Option.toList_none, List.append_nil] at hrest
      simp [← hrest]
    | some x' =>
      obtain ⟨rfl, rfl, rfl⟩ := first_unique ha (hc x rfl) ha' (hc' x' rfl) hrest
      exact ⟨rfl, rfl⟩

/-- Stretches that begin at the same line have the same lines. -/
theorem unique {s t : Stretch} (hs : s.Fits) (ht : t.Fits) {ls ms : List String}
    (hls : s.isOpenEnded = true → ls = []) (hms : t.isOpenEnded = true → ms = [])
    (h : s.lines ++ ls = t.lines ++ ms) : s = t ∧ ls = ms := by
  rcases hs.sample_or_single with ⟨o, a, c, rfl⟩ | ⟨line, hline, rfl⟩ <;>
    rcases ht.sample_or_single with ⟨o', a', c', rfl⟩ | ⟨line', hline', rfl⟩
  · exact hs.sample_unique ht hls hms h
  · rw [lines_single] at h
    obtain ⟨rfl, -⟩ := List.cons.inj h
    exact absurd hs.1 hline'
  · rw [lines_single] at h
    obtain ⟨rfl, -⟩ := List.cons.inj h
    exact absurd ht.1 hline
  · rw [lines_single, lines_single] at h
    obtain ⟨rfl, hrest⟩ := List.cons.inj h
    exact ⟨rfl, hrest⟩

end Stretch.Fits

namespace CutInto

/-- No stretches make no lines. -/
theorem eq_nil_of_nil {ls : List String} (h : CutInto ls []) : ls = [] := by
  cases h
  rfl

/-- A stretch holds the line that it begins with. -/
theorem ne_nil_of_cons {ls : List String} {s : Stretch} {ss : List Stretch}
    (h : CutInto ls (s :: ss)) : ls ≠ [] := by
  cases h
  cases s <;> exact List.cons_ne_nil _ _

/-- Lines can be cut in one way only. -/
theorem unique {ls : List String} {ss ts : List Stretch} (hs : CutInto ls ss)
    (ht : CutInto ls ts) : ss = ts := by
  induction hs generalizing ts with
  | nil =>
    cases ts with
    | nil => rfl
    | cons t ts => exact absurd rfl ht.ne_nil_of_cons
  | @cons s ls ss hfits hopen h ih =>
    have hls (hs : s.isOpenEnded = true) : ls = [] := eq_nil_of_nil (hopen hs ▸ h)
    generalize hlines : s.lines ++ ls = ms at ht
    cases ht with
    | nil => exact absurd hlines (CutInto.cons hfits hopen h).ne_nil_of_cons
    | @cons t ms ts ht hopen' h' =>
      have hms (ht : t.isOpenEnded = true) : ms = [] := eq_nil_of_nil (hopen' ht ▸ h')
      obtain ⟨rfl, rfl⟩ := hfits.unique ht hls hms hlines
      rw [ih h']

/-- Inside an example, lines are read up to the first one that closes it. -/
theorem after_some {inside : List String} (h : ∀ line ∈ inside, ¬Closes line)
    (before rest : List String) :
    Segment.after (some before) (inside ++ rest) =
      Segment.after (some ((inside.map uncommented).reverse ++ before)) rest := by
  induction inside generalizing before with
  | nil => rfl
  | cons line inside ih =>
    have hline : ¬closesExample line = true := by
      rw [closesExample_iff]
      exact h line List.mem_cons_self
    simp only [List.cons_append, Segment.after, if_neg hline]
    rw [ih fun l hl => h l (List.mem_cons_of_mem _ hl), List.map_cons, List.reverse_cons,
      List.append_assoc]
    rfl

/-- The way in which lines are cut is the way in which they are read. -/
theorem ofLines_eq {ls : List String} {ss : List Stretch} (h : CutInto ls ss) :
    Segment.ofLines ls = ss.map Stretch.segment := by
  induction h with
  | nil => rfl
  | @cons s ls ss hs hopen h ih =>
    rcases hs.sample_or_single with ⟨o, a, c, rfl⟩ | ⟨line, hline, rfl⟩
    · obtain ⟨ho, ha, hc⟩ := hs
      have hread : Segment.ofLines ((Stretch.sample o a c).lines ++ ls) =
          Segment.after (some ((a.map uncommented).reverse ++ [])) (c.toList ++ ls) := by
        rw [Stretch.lines, Segment.ofLines, List.cons_append, List.append_assoc, ← after_some ha]
        simp only [Segment.after, if_pos (opensExample_iff.mpr ho)]
      rw [hread]
      cases c with
      | none =>
        obtain rfl := hopen rfl
        obtain rfl := h.eq_nil_of_nil
        simp [Segment.after, Stretch.segment]
      | some closing =>
        have hclosing := closesExample_iff.mpr (hc closing rfl)
        simp [Segment.after, Stretch.segment, hclosing, ← ih, Segment.ofLines]
    · have hopens : ¬opensExample line = true := by rwa [opensExample_iff]
      rw [Stretch.lines_single, List.map_cons, Stretch.segment_single, ← ih]
      simp only [Segment.ofLines, List.cons_append, List.nil_append, Segment.after, if_neg hopens]

end CutInto

end Folio.Directive
