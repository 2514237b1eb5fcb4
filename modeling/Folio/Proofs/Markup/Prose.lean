import Folio.Proofs.Markup.Brackets

/-!
# Running text as it is read

Whoever reads markup takes a character behind a backslash as it stands, and finds the end of a
content block at the first closing bracket that no bracket inside it has opened. Escapes are read
back to the text they stand for, but square brackets are not escaped: an escaped text leaves the
blocks around it alone exactly if its own brackets match each other. The markers of blocks are not
escaped either, so that a line begins with one exactly if the text on it does.
-/

namespace Folio.Markup

/-! ### Blocks -/

/-- What is known behind a part of a markup text. -/
structure Reading where
  /-- Whether the next character stands behind a backslash. -/
  escaped : Bool
  /-- How many blocks have been opened and not been closed. -/
  depth : Nat
deriving DecidableEq

/-- The reading at the start of a block. -/
def Reading.start : Reading := ⟨false, 0⟩

/-- What is known behind a further character; nothing if it closes a block that was open before. -/
def Reading.next (s : Reading) (c : Char) : Option Reading :=
  if s.escaped then some ⟨false, s.depth⟩
  else if c = '\\' then some ⟨true, s.depth⟩
  else if c = '[' then some ⟨false, s.depth + 1⟩
  else if c = ']' then if s.depth = 0 then none else some ⟨false, s.depth - 1⟩
  else some s

/-- What is known behind some characters. -/
def Reading.behind (s : Reading) (cs : List Char) : Option Reading := cs.foldlM Reading.next s

/-- The contents of a block up to the bracket that closes it, and what follows the bracket. -/
def block? (s : Reading) : List Char → Option (List Char × List Char)
  | [] => none
  | c :: rest =>
    match s.next c with
    | none => some ([], rest)
    | some s => (block? s rest).map fun (inside, after) => (c :: inside, after)

/-- Whether a block with these contents is closed by the bracket behind them, and by no other. -/
def Encloses (cs : List Char) : Prop :=
  ∀ after, block? .start (cs ++ ']' :: after) = some (cs, after)

namespace Reading

theorem behind_cons (s : Reading) (c : Char) (cs : List Char) :
    s.behind (c :: cs) = (s.next c).bind (behind · cs) := rfl

theorem behind_append (s : Reading) (a b : List Char) :
    s.behind (a ++ b) = (s.behind a).bind (behind · b) := List.foldlM_append

/-- Only a closing bracket outside of all blocks inside closes a block. -/
theorem next_eq_none_iff (s : Reading) : s.next ']' = none ↔ s = start := by
  obtain ⟨escaped, depth⟩ := s
  cases escaped <;> cases depth <;> simp [next, start]

end Reading

/-- A block is closed behind certain contents exactly if they leave no block open and no backslash
without its character. -/
theorem block?_eq_some_iff {s : Reading} {cs after : List Char} :
    block? s (cs ++ ']' :: after) = some (cs, after) ↔ s.behind cs = some .start := by
  induction cs generalizing s with
  | nil =>
    rw [List.nil_append, block?]
    cases hnext : s.next ']' with
    | none =>
      rw [s.next_eq_none_iff.mp hnext]
      exact iff_of_true rfl rfl
    | some s' =>
      have hs : s ≠ .start := fun hs => by simp [s.next_eq_none_iff.mpr hs] at hnext
      refine iff_of_false ?_ fun hbehind => hs (Option.some.inj hbehind)
      cases block? s' after <;> simp
  | cons c cs ih =>
    rw [List.cons_append, block?, Reading.behind_cons]
    cases s.next c with
    | none => exact iff_of_false (by simp) nofun
    | some s' =>
      rw [Option.bind_some]
      constructor
      · intro h
        obtain ⟨⟨inside, rest⟩, hblock, heq⟩ := Option.map_eq_some_iff.mp h
        cases heq
        exact ih.mp hblock
      · intro hbehind
        change (block? s' (cs ++ ']' :: after)).map _ = _
        rw [ih.mpr hbehind]
        rfl

theorem encloses_iff {cs : List Char} : Encloses cs ↔ Reading.start.behind cs = some .start :=
  ⟨fun h => block?_eq_some_iff.mp (h []), fun h _ => block?_eq_some_iff.mpr h⟩

/-! ### Brackets of a text -/

/-- Whether a character is a square bracket. -/
def isSquare (c : Char) : Bool := c = '[' || c = ']'

/-- Whether the square brackets of a text match each other. -/
def Matched (t : List Char) : Prop := WellNested (t.filter isSquare)

instance (t : List Char) : Decidable (Matched t) := inferInstanceAs (Decidable (WellNested _))

/-- A character of running text has a backslash in front, or it is none itself. -/
theorem contentChar_eq (c : Char) :
    contentSpecials.contains c = true ∧ contentChar c = ['\\', c] ∨
      c ≠ '\\' ∧ contentChar c = [c] := by
  rw [contentChar]
  by_cases hspecial : contentSpecials.contains c = true
  · exact .inl ⟨hspecial, if_pos hspecial⟩
  · refine .inr ⟨?_, if_neg hspecial⟩
    rintro rfl
    exact hspecial (by decide)

/-- Only brackets among the characters of running text change the depth. -/
theorem behind_contentChar_of_not_isSquare {c : Char} (hc : isSquare c = false) (depth : Nat) :
    Reading.behind ⟨false, depth⟩ (contentChar c) = some ⟨false, depth⟩ := by
  rw [isSquare, Bool.or_eq_false_iff, decide_eq_false_iff_not, decide_eq_false_iff_not] at hc
  obtain ⟨hopen, hclose⟩ := hc
  rcases contentChar_eq c with ⟨-, hescaped⟩ | ⟨hbackslash, hplain⟩
  · rw [hescaped]
    rfl
  · rw [hplain, Reading.behind_cons, Reading.next, if_neg Bool.false_ne_true,
      if_neg hbackslash, if_neg hopen, if_neg hclose]
    rfl

/-- The depth behind an escaped text is the number of brackets that its own brackets leave
awaited. -/
theorem behind_content (depth : Nat) (t : List Char) :
    Reading.behind ⟨false, depth⟩ (t.flatMap contentChar) =
      (awaited (List.replicate depth ']') (t.filter isSquare)).map fun stack =>
        ⟨false, stack.length⟩ := by
  induction t generalizing depth with
  | nil =>
    rw [List.flatMap_nil, List.filter_nil]
    exact congrArg some (congrArg _ List.length_replicate.symm)
  | cons c t ih =>
    rw [List.flatMap_cons, Reading.behind_append]
    by_cases hopen : c = '['
    · subst hopen
      exact ih (depth + 1)
    by_cases hclose : c = ']'
    · subst hclose
      cases depth with
      | zero => rfl
      | succ depth => exact ih depth
    have hc : isSquare c = false := by simp [isSquare, hopen, hclose]
    rw [behind_contentChar_of_not_isSquare hc, Option.bind_some, ih,
      List.filter_cons_of_neg (Bool.eq_false_iff.mp hc)]

/-- A text with matching brackets leaves every depth as it is. -/
theorem Matched.behind_content {t : List Char} (h : Matched t) (depth : Nat) :
    Reading.behind ⟨false, depth⟩ (t.flatMap contentChar) = some ⟨false, depth⟩ := by
  rw [Markup.behind_content, WellNested.awaited_eq h, Option.map_some, List.length_replicate]

/-- An escaped text leaves no block open and closes none exactly if its brackets match. -/
theorem behind_content_iff {t : List Char} :
    Reading.start.behind (t.flatMap contentChar) = some .start ↔ Matched t := by
  constructor
  · intro h
    obtain ⟨stack, hstack, hlength⟩ := Option.map_eq_some_iff.mp ((behind_content 0 t).symm.trans h)
    have hnil : stack = [] := List.length_eq_zero_iff.mp (congrArg Reading.depth hlength)
    rw [hnil] at hstack
    exact wellNested_iff.mpr hstack
  · exact fun h => h.behind_content 0

/-! ### Escapes -/

/-- A markup text without the backslashes of its escapes. -/
def unescape (escaped : Bool) : List Char → List Char
  | [] => []
  | c :: rest =>
    if !escaped && c = '\\' then unescape true rest else c :: unescape false rest

/-- Without the backslashes of its escapes an escaped text is the text. -/
theorem unescape_content (t : List Char) : unescape false (t.flatMap contentChar) = t := by
  induction t with
  | nil => rfl
  | cons c t ih =>
    rw [List.flatMap_cons]
    rcases contentChar_eq c with ⟨-, hescaped⟩ | ⟨hbackslash, hplain⟩
    · rw [hescaped]
      change c :: unescape false (t.flatMap contentChar) = c :: t
      rw [ih]
    · rw [hplain, List.singleton_append, unescape, if_neg (by simp [hbackslash]), ih]

/-! ### Markers of blocks -/

/-- The characters of which a marker and the blank behind it consist. -/
def isMarkerChar (c : Char) : Bool := "=-+. ".toList.contains c || c.isDigit

/-- A marker of a block: that of a heading, of an item, of a numbered item, or a number with a
dot. -/
inductive IsMarker : List Char → Prop
  | heading {n : Nat} : IsMarker (List.replicate (n + 1) '=')
  | item : IsMarker ['-']
  | numbered : IsMarker ['+']
  | number {digits : List Char} (hdigits : ∀ d ∈ digits, d.isDigit = true) (hne : digits ≠ []) :
    IsMarker (digits ++ ['.'])

/-- Whether a line begins with a marker and a blank behind it. -/
def BeginsBlock (line : List Char) : Prop := ∃ marker, IsMarker marker ∧ marker ++ [' '] <+: line

namespace IsMarker

variable {marker : List Char}

/-- A marker consists of a few characters only. -/
theorem forall_isMarkerChar (h : IsMarker marker) :
    ∀ c ∈ marker ++ [' '], isMarkerChar c = true := by
  have hblank : isMarkerChar ' ' = true := rfl
  rw [List.forall_mem_append, List.forall_mem_singleton]
  refine ⟨fun c hc => ?_, hblank⟩
  cases h with
  | heading =>
    rw [List.eq_of_mem_replicate hc]
    rfl
  | item =>
    rw [List.mem_singleton.mp hc]
    rfl
  | numbered =>
    rw [List.mem_singleton.mp hc]
    rfl
  | number hdigits _ =>
    rcases List.mem_append.mp hc with hc | hc
    · rw [isMarkerChar, hdigits c hc, Bool.or_true]
    · rw [List.mem_singleton.mp hc]
      rfl

/-- No marker begins with the sign of a call or with a blank. -/
theorem head?_ne (h : IsMarker marker) : marker.head? ≠ some '#' ∧ marker.head? ≠ some ' ' := by
  cases h with
  | heading => exact ⟨nofun, nofun⟩
  | item => exact ⟨nofun, nofun⟩
  | numbered => exact ⟨nofun, nofun⟩
  | @number digits hdigits hne =>
    cases digits with
    | nil => exact absurd rfl hne
    | cons d rest =>
      have hd : d.isDigit = true := hdigits d List.mem_cons_self
      refine ⟨fun hhead => ?_, fun hhead => ?_⟩ <;>
      · cases hhead
        cases hd

theorem ne_nil (h : IsMarker marker) : marker ≠ [] := by
  cases h <;> simp

end IsMarker

/-- A line that begins with a call or with a blank begins with no marker. -/
theorem not_beginsBlock {c : Char} (hc : c = '#' ∨ c = ' ') (line : List Char) :
    ¬BeginsBlock (c :: line) := by
  rintro ⟨marker, hmarker, hprefix⟩
  obtain ⟨hcall, hblank⟩ := hmarker.head?_ne
  cases marker with
  | nil => exact hmarker.ne_nil rfl
  | cons d marker =>
    rw [List.cons_append, List.cons_prefix_cons] at hprefix
    obtain ⟨rfl, -⟩ := hprefix
    rcases hc with rfl | rfl
    · exact hcall rfl
    · exact hblank rfl

/-- Escapes and what follows a text neither make nor hide a row of the characters of markers. -/
theorem prefix_content_iff {marker t after : List Char}
    (hmarker : ∀ c ∈ marker, isMarkerChar c = true)
    (hafter : ∀ c ∈ after.head?, isMarkerChar c = false) :
    marker <+: t.flatMap contentChar ++ after ↔ marker <+: t := by
  induction marker generalizing t with
  | nil => exact iff_of_true List.nil_prefix List.nil_prefix
  | cons m marker ih =>
    obtain ⟨hm, hrest⟩ := List.forall_mem_cons.mp hmarker
    cases t with
    | nil =>
      refine iff_of_false (fun hprefix => ?_) fun hprefix => ?_
      · obtain ⟨rest, hrest⟩ := hprefix
        have hhead : m ∈ after.head? := by
          rw [← List.nil_append after, ← List.flatMap_nil, ← hrest]
          exact rfl
        rw [hafter m hhead] at hm
        cases hm
      · exact List.cons_ne_nil m marker (List.prefix_nil.mp hprefix)
    | cons c t =>
      rw [List.flatMap_cons]
      rcases contentChar_eq c with ⟨hspecial, hescaped⟩ | ⟨hbackslash, hplain⟩
      · -- Neither the backslash nor the character that it escapes is one of a marker.
        have hspecials : contentSpecials.all fun c => !isMarkerChar c := by decide
        have hmem : c ∈ contentSpecials := List.contains_iff_mem.mp hspecial
        have hc : isMarkerChar c = false := by
          rw [← Bool.not_eq_true', List.all_eq_true.mp hspecials c hmem]
        rw [hescaped]
        refine iff_of_false (fun hprefix => ?_) fun hprefix => ?_
        · obtain ⟨rfl, -⟩ := List.cons_prefix_cons.mp hprefix
          cases hm
        · obtain ⟨rfl, -⟩ := List.cons_prefix_cons.mp hprefix
          rw [hc] at hm
          cases hm
      · rw [hplain, List.singleton_append, List.cons_append, List.cons_prefix_cons,
          List.cons_prefix_cons, ih hrest]

/-- A line with an escaped text begins with a marker exactly if the text does. -/
theorem beginsBlock_content_iff {t after : List Char}
    (hafter : ∀ c ∈ after.head?, isMarkerChar c = false) :
    BeginsBlock (t.flatMap contentChar ++ after) ↔ BeginsBlock t :=
  exists_congr fun _ => and_congr_right fun h => prefix_content_iff h.forall_isMarkerChar hafter

end Folio.Markup
