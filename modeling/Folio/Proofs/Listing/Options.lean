import Folio.Listing.Options
import Folio.Proofs.Text.Decimal
import Folio.Proofs.Text.Lines
import Folio.Proofs.Text.Parts
import Folio.Proofs.Text.Split
import Mathlib.Data.List.Infix

/-!
# Options of listings as they are written

The options of a listing stand on lines of their own: the names of pages in quotes, with commas
between them and brackets around them, and the depth in decimal digits, with spaces and tabs
anywhere around the parts. A line that mentions neither option is passed over. So the names and the
depth are read back from the first lines that give them, whatever the names are; but a depth with
more digits than numbers may have is not read, and then the listing fails.
-/

namespace Folio.ListingOptions

open Text Number

/-! ### How options are written -/

/-- Nothing but blanks within a line, such as spaces and tabs. -/
def IsGap (cs : List Char) : Prop := ∀ c ∈ cs, isBlank c = true ∧ c ≠ '\n'

instance (cs : List Char) : Decidable (IsGap cs) := List.decidableBAll _ cs

/-- Blanks within a line. -/
abbrev Gap : Type := { cs : List Char // IsGap cs }

/-- The gaps on a line that gives an option. -/
structure Layout where
  /-- In front of the name of the option. -/
  margin : Gap
  /-- Between the name and the equals sign. -/
  beforeSign : Gap
  /-- Between the equals sign and the value. -/
  afterSign : Gap
  /-- Behind the value. -/
  ending : Gap

/-- A line that gives an option. -/
def Layout.line (l : Layout) (name : String) (value : List Char) : List Char :=
  l.margin.1 ++ (name.toList ++ (l.beforeSign.1 ++ '=' :: (l.afterSign.1 ++ (value ++ l.ending.1))))

/-- Whether a character is one of the quotes around names. -/
abbrev IsQuote (c : Char) : Prop := c = '"' ∨ c = '\''

/-- A text on one line without quotes. -/
def IsUnquoted (s : String) : Prop := ∀ c ∈ s.toList, c ≠ '\n' ∧ ¬IsQuote c

instance (s : String) : Decidable (IsUnquoted s) := List.decidableBAll _ s.toList

/-- The name of a page as it is written in quotes, with gaps around them. -/
structure QuotedName where
  name : String
  quote : Char
  before : Gap
  after : Gap
  name_ne_empty : name ≠ ""
  isUnquoted_name : IsUnquoted name
  isQuote_quote : IsQuote quote

def QuotedName.text (q : QuotedName) : List Char :=
  q.before.1 ++ q.quote :: (q.name.toList ++ q.quote :: q.after.1)

/-- Names with commas between them, and a gap in front of the first. -/
def listed (margin : Gap) (names : List QuotedName) : List Char :=
  margin.1 ++ [','].intercalate (names.map QuotedName.text)

/-- A line among the options of a listing. -/
inductive OptionLine
  /-- The line that names the covered pages. -/
  | pages (layout : Layout) (margin : Gap) (names : List QuotedName)
  /-- The line that says how deep a table of contents goes. -/
  | depth (layout : Layout) (depth : Nat)
  /-- A line that mentions neither. -/
  | other (line : List Char) (feedless : '\n' ∉ line) (noPages : ¬"Pages".toList <:+: line)
    (noDepth : ¬"Depth".toList <:+: line)

namespace OptionLine

def text : OptionLine → List Char
  | pages layout margin names => layout.line "Pages" ('[' :: (listed margin names ++ [']']))
  | depth layout n => layout.line "Depth" (toString n).toList
  | other line _ _ _ => line

/-- The pages that a line names. -/
def pages? : OptionLine → Option (List String)
  | pages _ _ names => some (names.map QuotedName.name)
  | _ => none

/-- The depth that a line says. -/
def depth? : OptionLine → Option Nat
  | depth _ n => some n
  | _ => none

end OptionLine

/-- Lines with line feeds between them. -/
def linesText (ls : List OptionLine) : List Char := ['\n'].intercalate (ls.map OptionLine.text)

variable {name : String} {cs line rest tail value : List Char}

/-! ### Gaps and line ends -/

/-- What stands in a gap may be skipped. -/
theorem Gap.blanks (g : Gap) : Blanks g.1 := fun c hc => (g.2 c hc).1

/-- A gap never reaches the next line. -/
theorem Gap.feed_notMem (g : Gap) : '\n' ∉ g.1 := fun h => (g.2 _ h).2 rfl

/-- No blank opens or closes a name. -/
theorem not_isQuote_of_isBlank {c : Char} (h : isBlank c = true) : ¬IsQuote c := by
  rintro (rfl | rfl) <;> exact absurd h (by decide)

/-- What stands behind a line: nothing or a line feed. -/
def EndsLine (tail : List Char) : Prop := ∀ c ∈ tail.head?, c = '\n'

/-- A line goes up to the line feed or the end behind it. -/
theorem thisLine_append (h : '\n' ∉ line) (htail : EndsLine tail) :
    thisLine (line ++ tail) = line := by
  have hline : ∀ c ∈ line, decide (c ≠ '\n') = true := fun c hc =>
    decide_eq_true fun e => h (e ▸ hc)
  rw [thisLine, List.takeWhile_append_of_pos hline]
  cases tail with
  | nil => exact List.append_nil line
  | cons c tail =>
    obtain rfl := htail c rfl
    rw [List.takeWhile_cons_of_neg (by decide), List.append_nil]

/-- No line starts within a line. -/
theorem lineStarts_append (h : '\n' ∉ line) (cs : List Char) :
    lineStarts (line ++ cs) = lineStarts cs := by
  induction line with
  | nil => rfl
  | cons c line ih =>
    obtain ⟨hc, hline⟩ := List.ne_and_not_mem_of_not_mem_cons h
    rw [List.cons_append, lineStarts, if_neg (Ne.symm hc), List.nil_append, ih hline]

/-- A beginning without some character reaches no further than to that character. -/
theorem prefix_of_prefix_append_cons {mark before after : List Char} {c : Char} (hc : c ∉ mark)
    (h : mark <+: before ++ c :: after) : mark <+: before := by
  rcases List.prefix_or_prefix_of_prefix h (List.prefix_append before (c :: after)) with hin | hout
  · exact hin
  · obtain ⟨beyond, rfl⟩ := hout
    rw [List.prefix_append_right_inj] at h
    cases beyond with
    | nil => rw [List.append_nil]
    | cons d beyond =>
      obtain ⟨rfl, -⟩ := List.cons_prefix_cons.mp h
      exact absurd (List.mem_append_right before List.mem_cons_self) hc

/-! ### The first line with an option -/

/-- A text without blanks. -/
def HasNoBlank (s : String) : Prop := ∀ c ∈ s.toList, isBlank c = false

instance (s : String) : Decidable (HasNoBlank s) := List.decidableBAll _ s.toList

/-- The name of an option is a single word. -/
structure IsOptionName (name : String) : Prop where
  ne_empty : name ≠ ""
  hasNoBlank : HasNoBlank name

/-- The value of an option on the first line that gives it. -/
def firstValue? (name : String) (read : List Char → Option (List Char)) (cs : List Char) :
    Option (List Char) :=
  (cs :: lineStarts cs).findSome? fun start => (setting? name start).bind read

variable {read : List Char → Option (List Char)}

/-- A line that does not start with a name sets nothing for it. -/
theorem setting?_eq_none (h : ¬name.toList <+: cs.dropWhile isBlank) : setting? name cs = none := by
  have hnone : after? name.toList (cs.dropWhile isBlank) = none := by
    rwa [← Option.not_isSome_iff_eq_none, isSome_after?_iff]
  rw [setting?, hnone]
  rfl

/-- The blanks in front of a name end at it. -/
theorem IsOptionName.dropWhile_append (hname : IsOptionName name) (margin : Gap) (cs : List Char) :
    (margin.1 ++ (name.toList ++ cs)).dropWhile isBlank = name.toList ++ cs := by
  obtain ⟨c, rest, hname'⟩ :=
    List.exists_cons_of_ne_nil (mt String.toList_eq_nil_iff.mp hname.ne_empty)
  have hc : isBlank c = false := hname.hasNoBlank c (by simp [hname'])
  rw [List.dropWhile_append_of_pos margin.blanks, hname', List.cons_append,
    List.dropWhile_cons_of_neg (by simp [hc])]

/-- A line that sets a name to a value reads as the value and what follows it. -/
theorem setting?_line (hname : IsOptionName name) (l : Layout)
    (hvalue : ∃ c cs, value = c :: cs ∧ isBlank c = false) (tail : List Char) :
    setting? name (l.line name value ++ tail) = some (value ++ (l.ending.1 ++ tail)) := by
  obtain ⟨c, cs, rfl, hc⟩ := hvalue
  have hfound (cs : List Char) :
      after? name.toList ((l.margin.1 ++ (name.toList ++ cs)).dropWhile isBlank) = some cs := by
    rw [after?_eq_some_iff, hname.dropWhile_append]
  have hsign (cs : List Char) :
      after? ['='] ((l.beforeSign.1 ++ '=' :: cs).dropWhile isBlank) = some cs := by
    rw [after?_eq_some_iff, List.dropWhile_append_of_pos l.beforeSign.blanks,
      List.dropWhile_cons_of_neg (by decide)]
    rfl
  have hdrop (rest : List Char) : (l.afterSign.1 ++ c :: rest).dropWhile isBlank = c :: rest := by
    rw [List.dropWhile_append_of_pos l.afterSign.blanks,
      List.dropWhile_cons_of_neg (by simp [hc])]
  simp only [setting?, Layout.line, List.append_assoc, List.cons_append, hfound, hsign, hdrop,
    Option.bind_eq_bind, Option.bind_some]

/-- A line that does not start with the name is passed over. -/
theorem firstValue?_skip (hname : IsOptionName name) (hfeed : '\n' ∉ line)
    (hline : ¬name.toList <+: line.dropWhile isBlank) (rest : List Char) :
    firstValue? name read (line ++ '\n' :: rest) = firstValue? name read rest := by
  have hstarts : lineStarts (line ++ '\n' :: rest) = rest :: lineStarts rest := by
    rw [lineStarts_append hfeed]
    rfl
  rw [firstValue?, hstarts, List.findSome?_cons]
  by_cases hblank : Blanks line
  · -- The name is looked for behind the line feed, which is a blank as well.
    have hsame : setting? name (line ++ '\n' :: rest) = setting? name rest := by
      rw [setting?, List.dropWhile_append_of_pos hblank, List.dropWhile_cons_of_pos (by decide),
        setting?]
    rw [hsame, firstValue?, List.findSome?_cons]
    cases (setting? name rest).bind read <;> rfl
  · have hdrop : (line ++ '\n' :: rest).dropWhile isBlank =
        line.dropWhile isBlank ++ '\n' :: rest := by
      rw [List.dropWhile_append, if_neg]
      simpa [List.dropWhile_eq_nil_iff, Blanks] using hblank
    have hnone : '\n' ∉ name.toList := fun hmem => absurd (hname.hasNoBlank _ hmem) (by decide)
    have hskip : ¬name.toList <+: (line ++ '\n' :: rest).dropWhile isBlank := by
      rw [hdrop]
      exact mt (prefix_of_prefix_append_cons hnone) hline
    rw [setting?_eq_none hskip]
    rfl

/-- A name that the last line does not start with is not set. -/
theorem firstValue?_last (hfeed : '\n' ∉ line)
    (hline : ¬name.toList <+: line.dropWhile isBlank) : firstValue? name read line = none := by
  have hstarts := lineStarts_append hfeed []
  rw [List.append_nil] at hstarts
  rw [firstValue?, hstarts, List.findSome?_cons, setting?_eq_none hline]
  rfl

/-- If every line either gives an option or does not start with its name, the first line that gives
the option counts. -/
theorem firstValue?_linesText (hname : IsOptionName name) {given? : OptionLine → Option (List Char)}
    (hfeed : ∀ l : OptionLine, '\n' ∉ l.text)
    (hskip : ∀ l, given? l = none → ¬name.toList <+: l.text.dropWhile isBlank)
    (hread : ∀ l v, given? l = some v → ∀ tail, EndsLine tail →
      (setting? name (l.text ++ tail)).bind read = some v) (ls : List OptionLine) :
    firstValue? name read (linesText ls) = ls.findSome? given? := by
  induction ls with
  | nil =>
    refine firstValue?_last List.not_mem_nil fun h => hname.ne_empty ?_
    exact String.toList_eq_nil_iff.mp (List.prefix_nil.mp h)
  | cons l ls ih =>
    obtain ⟨tail, htail, htext⟩ : ∃ tail, EndsLine tail ∧ linesText (l :: ls) = l.text ++ tail := by
      cases ls with
      | nil => exact ⟨[], nofun, by simp [linesText]⟩
      | cons next ls =>
        exact ⟨'\n' :: linesText (next :: ls), by simp [EndsLine], by simp [linesText]⟩
    cases hgiven : given? l with
    | some v =>
      rw [htext, firstValue?, List.findSome?_cons, hread l v hgiven tail htail,
        List.findSome?_cons, hgiven]
    | none =>
      rw [List.findSome?_cons, hgiven, ← ih]
      cases ls with
      | nil =>
        rw [linesText, List.map_singleton, List.intercalate_singleton,
          firstValue?_last (hfeed l) (hskip l hgiven)]
        exact (ih.trans rfl).symm
      | cons next ls =>
        rw [linesText, List.map_cons, List.map_cons, List.intercalate_cons_cons, List.append_assoc,
          List.singleton_append, firstValue?_skip hname (hfeed l) (hskip l hgiven)]
        rfl

/-! ### Names in quotes -/

/-- Characters that are no quotes belong to the name that is open, if one is. -/
theorem namesAfter_cons_of_not_isQuote {c : Char} (h : ¬IsQuote c) (opened : Option (List Char))
    (rest : List Char) :
    namesAfter opened (c :: rest) = namesAfter (opened.map (c :: ·)) rest := by
  rcases opened with _ | _ | ⟨d, name⟩ <;> simp only [namesAfter, if_neg h]

/-- A quote opens a name. -/
theorem namesAfter_none_cons {quote : Char} (h : IsQuote quote) (rest : List Char) :
    namesAfter none (quote :: rest) = namesAfter (some []) rest := by
  simp only [namesAfter, if_pos h]

/-- The next quote closes the name, unless nothing stands between them. -/
theorem namesAfter_some_cons {quote : Char} (h : IsQuote quote) {opened : List Char}
    (hne : opened ≠ []) (rest : List Char) :
    namesAfter (some opened) (quote :: rest) = opened.reverse :: namesAfter none rest := by
  obtain ⟨d, name, rfl⟩ := List.exists_cons_of_ne_nil hne
  rw [namesAfter, if_pos h]

/-- Characters between names are skipped. -/
theorem namesAfter_skip (h : ∀ c ∈ cs, ¬IsQuote c) (rest : List Char) :
    namesAfter none (cs ++ rest) = namesAfter none rest := by
  induction cs with
  | nil => rfl
  | cons c cs ih =>
    obtain ⟨hc, hcs⟩ := List.forall_mem_cons.mp h
    rw [List.cons_append, namesAfter_cons_of_not_isQuote hc, Option.map_none, ih hcs]

/-- Behind an opening quote, what stands in front of the next quote is a name. -/
theorem namesAfter_name {quote : Char} (hquote : IsQuote quote) {cs : List Char}
    (h : ∀ c ∈ cs, ¬IsQuote c) {opened : List Char} (hne : opened.reverse ++ cs ≠ [])
    (rest : List Char) :
    namesAfter (some opened) (cs ++ quote :: rest) =
      (opened.reverse ++ cs) :: namesAfter none rest := by
  induction cs generalizing opened with
  | nil =>
    rw [List.append_nil] at hne ⊢
    exact namesAfter_some_cons hquote (mt List.reverse_eq_nil_iff.mpr hne) rest
  | cons c cs ih =>
    obtain ⟨hc, hcs⟩ := List.forall_mem_cons.mp h
    have hmove : (c :: opened).reverse ++ cs = opened.reverse ++ c :: cs := by simp
    rw [List.cons_append, namesAfter_cons_of_not_isQuote hc, Option.map_some,
      ih hcs (hmove ▸ hne), hmove]

/-- No character of a gap is a quote. -/
theorem Gap.not_isQuote (g : Gap) : ∀ c ∈ g.1, ¬IsQuote c := fun c hc =>
  not_isQuote_of_isBlank (g.blanks c hc)

/-- A quoted name is read back, whichever quotes it has. -/
theorem QuotedName.namesAfter_text (q : QuotedName) (rest : List Char) :
    namesAfter none (q.text ++ rest) = q.name.toList :: namesAfter none rest := by
  have hname : [].reverse ++ q.name.toList ≠ [] := mt String.toList_eq_nil_iff.mp q.name_ne_empty
  rw [text, List.append_assoc, namesAfter_skip q.before.not_isQuote, List.cons_append,
    namesAfter_none_cons q.isQuote_quote, List.append_assoc, List.cons_append,
    namesAfter_name q.isQuote_quote (fun c hc => (q.isUnquoted_name c hc).2) hname,
    namesAfter_skip q.after.not_isQuote]
  rfl

/-- Names in quotes are read back, whatever they are. -/
theorem namesAfter_listed (margin : Gap) (names : List QuotedName) :
    namesAfter none (listed margin names) = names.map fun q => q.name.toList := by
  rw [listed, namesAfter_skip margin.not_isQuote]
  induction names with
  | nil => rfl
  | cons q names ih =>
    cases names with
    | nil =>
      rw [List.map_singleton, List.intercalate_singleton, ← List.append_nil q.text,
        q.namesAfter_text]
      rfl
    | cons next names =>
      have hcomma : ∀ c ∈ [','], ¬IsQuote c := List.forall_mem_singleton.mpr (by decide)
      rw [List.map_cons, List.map_cons, List.intercalate_cons_cons, List.append_assoc,
        q.namesAfter_text, namesAfter_skip hcomma, ← List.map_cons, ih]
      rfl

/-- What stands between brackets is read up to a bracket that only blanks follow on its line. -/
theorem bracketed?_append {inside : List Char} (hinside : '\n' ∉ inside) (ending : Gap)
    (htail : EndsLine tail) :
    bracketed? ('[' :: (inside ++ [']']) ++ (ending.1 ++ tail)) = some inside := by
  have hfeed : '\n' ∉ '[' :: (inside ++ ']' :: ending.1) := by
    simp [hinside, ending.feed_notMem]
  have hline : thisLine ('[' :: (inside ++ [']']) ++ (ending.1 ++ tail)) =
      '[' :: (inside ++ ']' :: ending.1) := by
    rw [← thisLine_append hfeed htail]
    simp
  have hending : ∀ c ∈ ending.1.reverse, isBlank c = true := fun c hc =>
    ending.blanks c (List.mem_reverse.mp hc)
  have hreverse : ((inside ++ ']' :: ending.1).reverse.dropWhile isBlank) =
      ']' :: inside.reverse := by
    rw [List.reverse_append, List.reverse_cons, List.append_assoc,
      List.dropWhile_append_of_pos hending, List.singleton_append,
      List.dropWhile_cons_of_neg (by decide)]
  simp only [bracketed?, hline, hreverse, List.reverse_reverse]

/-! ### Depths -/

/-- A number is read up to its last digit. -/
theorem number?_append (n : Nat) (ending : Gap) (htail : EndsLine tail) :
    number? ((toString n).toList ++ (ending.1 ++ tail)) = some (toString n).toList := by
  have hdigits : ∀ c ∈ (toString n).toList, isDecimal c = true := fun c hc =>
    isDecimal_of_isDigit (isDigit_of_mem_toString hc)
  have hending : ∀ c ∈ ending.1, ¬isDecimal c = true := fun c hc => by
    simp [isDecimal_eq_false_of_isBlank (ending.blanks c hc)]
  have hfeed : '\n' ∉ (toString n).toList ++ ending.1 := by
    rw [List.mem_append, not_or]
    exact ⟨fun h => absurd (isDigit_of_mem_toString h) (by decide), ending.feed_notMem⟩
  have hspan : ((toString n).toList ++ ending.1).span isDecimal =
      ((toString n).toList, ending.1) := by
    rw [List.span_eq_takeWhile_dropWhile, List.takeWhile_append_of_pos hdigits,
      List.dropWhile_append_of_pos hdigits]
    cases hgap : ending.1 with
    | nil => rw [List.takeWhile_nil, List.append_nil, List.dropWhile_nil]
    | cons c gap =>
      have hstop := hending c (hgap ▸ List.mem_cons_self)
      rw [List.takeWhile_cons_of_neg hstop, List.append_nil, List.dropWhile_cons_of_neg hstop]
  have hblank : ending.1.all isBlank = true := List.all_eq_true.mpr ending.blanks
  have hsome : (toString n).toList.isEmpty = false :=
    List.isEmpty_eq_false_iff.mpr (toList_toString_ne_nil n)
  rw [number?, ← List.append_assoc, thisLine_append hfeed htail, hspan]
  simp only [hsome, hblank, Bool.not_false, Bool.and_self, ite_true]

/-! ### Options read back -/

theorem isOptionName_pages : IsOptionName "Pages" := ⟨by decide, by decide⟩

theorem isOptionName_depth : IsOptionName "Depth" := ⟨by decide, by decide⟩

/-- An option takes one line. -/
theorem Layout.feed_notMem_line (l : Layout) (hname : IsOptionName name) (hvalue : '\n' ∉ value) :
    '\n' ∉ l.line name value := by
  have hnone : '\n' ∉ name.toList := fun hmem => absurd (hname.hasNoBlank _ hmem) (by decide)
  simp [Layout.line, hnone, hvalue, Gap.feed_notMem]

/-- Names that are listed take one line. -/
theorem feed_notMem_listed (margin : Gap) (names : List QuotedName) :
    '\n' ∉ listed margin names := by
  have hnames (q : QuotedName) : '\n' ∉ q.text := by
    have hname : '\n' ∉ q.name.toList := fun h => (q.isUnquoted_name _ h).1 rfl
    have hquote : '\n' ≠ q.quote := fun h => absurd (h ▸ q.isQuote_quote) (by decide)
    simp [QuotedName.text, Gap.feed_notMem, hname, hquote]
  rw [listed, List.mem_append, not_or]
  refine ⟨margin.feed_notMem, fun h => ?_⟩
  rcases mem_intercalate h with hcomma | ⟨part, hpart, hmem⟩
  · exact absurd hcomma (by decide)
  · obtain ⟨q, -, rfl⟩ := List.mem_map.mp hpart
    exact hnames q hmem

namespace OptionLine

/-- Every line of the options is a single one. -/
theorem feed_notMem : (l : OptionLine) → '\n' ∉ l.text
  | pages layout margin names =>
    layout.feed_notMem_line isOptionName_pages (by simp [feed_notMem_listed])
  | depth layout n => layout.feed_notMem_line isOptionName_depth fun h =>
    absurd (isDigit_of_mem_toString h) (by decide)
  | other _ hfeed _ _ => hfeed

/-- The names that a line lists, as they are written. -/
def listed? : OptionLine → Option (List Char)
  | pages _ margin names => some (listed margin names)
  | _ => none

/-- The digits of the depth that a line says. -/
def digits? : OptionLine → Option (List Char)
  | depth _ n => some (toString n).toList
  | _ => none

/-- Only a line for the pages lists any, and they are the names in it. -/
theorem pages?_eq (l : OptionLine) :
    l.pages? = l.listed?.map fun cs => (namesAfter none cs).map String.ofList := by
  cases l with
  | pages layout margin names => simp [pages?, listed?, namesAfter_listed, Function.comp_def]
  | depth => rfl
  | other => rfl

/-- Only a line for the depth has a number, written in digits. -/
theorem digits?_eq (l : OptionLine) : l.digits? = l.depth?.map fun n => (toString n).toList := by
  cases l <;> rfl

/-- Only a line that names pages starts with the name of that option. -/
theorem not_prefix_of_listed?_eq_none {l : OptionLine} (h : l.listed? = none) :
    ¬"Pages".toList <+: l.text.dropWhile isBlank := by
  cases l with
  | pages => cases h
  | depth layout n =>
    rw [text, Layout.line, isOptionName_depth.dropWhile_append]
    exact fun hstart => absurd (List.cons_prefix_cons.mp hstart).1 (by decide)
  | other line _ hpages _ =>
    exact fun hstart => hpages (hstart.isInfix.trans (List.dropWhile_suffix isBlank).isInfix)

/-- Only a line that says a depth starts with the name of that option. -/
theorem not_prefix_of_digits?_eq_none {l : OptionLine} (h : l.digits? = none) :
    ¬"Depth".toList <+: l.text.dropWhile isBlank := by
  cases l with
  | pages layout margin names =>
    rw [text, Layout.line, isOptionName_pages.dropWhile_append]
    exact fun hstart => absurd (List.cons_prefix_cons.mp hstart).1 (by decide)
  | depth => cases h
  | other line _ _ hdepth =>
    exact fun hstart => hdepth (hstart.isInfix.trans (List.dropWhile_suffix isBlank).isInfix)

end OptionLine

/-- The first line that lists pages decides which they are. -/
theorem firstValue?_pages (ls : List OptionLine) :
    firstValue? "Pages" bracketed? (linesText ls) = ls.findSome? OptionLine.listed? := by
  refine firstValue?_linesText isOptionName_pages OptionLine.feed_notMem
    (fun l h => OptionLine.not_prefix_of_listed?_eq_none h) (fun l v hlisted tail htail => ?_) ls
  cases l with
  | pages layout margin names =>
    obtain rfl := Option.some.inj hlisted
    rw [OptionLine.text, setting?_line isOptionName_pages layout ⟨'[', _, rfl, by decide⟩,
      Option.bind_some, bracketed?_append (feed_notMem_listed margin names) layout.ending htail]
  | depth => cases hlisted
  | other => cases hlisted

/-- The first line that has a depth decides what it is. -/
theorem firstValue?_depth (ls : List OptionLine) :
    firstValue? "Depth" number? (linesText ls) = ls.findSome? OptionLine.digits? := by
  refine firstValue?_linesText isOptionName_depth OptionLine.feed_notMem
    (fun l h => OptionLine.not_prefix_of_digits?_eq_none h) (fun l v hdigits tail htail => ?_) ls
  cases l with
  | pages => cases hdigits
  | depth layout n =>
    obtain rfl := Option.some.inj hdigits
    obtain ⟨c, cs, hcs⟩ := List.exists_cons_of_ne_nil (toList_toString_ne_nil n)
    have hdigit : c.isDigit = true := isDigit_of_mem_toString (hcs ▸ List.mem_cons_self)
    have hblank : isBlank c = false := Bool.eq_false_iff.mpr fun hblank => Bool.false_ne_true
      ((isDecimal_eq_false_of_isBlank hblank).symm.trans (isDecimal_of_isDigit hdigit))
    rw [OptionLine.text, setting?_line isOptionName_depth layout ⟨c, cs, hcs, hblank⟩,
      Option.bind_some, number?_append n layout.ending htail]
  | other => cases hdigits

/-- Options are the pages and the depth that their lines are found to set. -/
theorem ofText?_ofList (cs : List Char) :
    ofText? (String.ofList cs) =
      let pages := ((firstValue? "Pages" bracketed? cs).map fun inside =>
        (namesAfter none inside).map String.ofList).getD []
      match firstValue? "Depth" number? cs with
      | none => some ⟨pages, defaultDepth⟩
      | some digits => (Number.ofDigits? digits).map fun depth => ⟨pages, depth⟩ := by
  have hpages (found : Option (List Char)) :
      ((found.map (namesAfter none)).getD []).map String.ofList =
        (found.map fun inside => (namesAfter none inside).map String.ofList).getD [] := by
    cases found <;> rfl
  rw [ofText?, String.toList_ofList, ← hpages]
  rfl

/-- The first line that names pages and the first line that says a depth count; without the one all
pages are covered, and without the other the depth is the usual one. -/
theorem ofText?_linesText (ls : List OptionLine) :
    ofText? (String.ofList (linesText ls)) =
      let pages := (ls.findSome? OptionLine.pages?).getD []
      match ls.findSome? OptionLine.depth? with
      | none => some ⟨pages, defaultDepth⟩
      | some n => if n < Number.pow10 Number.mostDigits then some ⟨pages, n⟩ else none := by
  have hpages : ls.findSome? OptionLine.pages? =
      (firstValue? "Pages" bracketed? (linesText ls)).map fun inside =>
        (namesAfter none inside).map String.ofList := by
    rw [firstValue?_pages, List.map_findSome?]
    exact congrArg (ls.findSome? ·) (funext OptionLine.pages?_eq)
  have hdepth : firstValue? "Depth" number? (linesText ls) =
      (ls.findSome? OptionLine.depth?).map fun n => (toString n).toList := by
    rw [firstValue?_depth, List.map_findSome?]
    exact congrArg (ls.findSome? ·) (funext OptionLine.digits?_eq)
  rw [ofText?_ofList, ← hpages, hdepth]
  cases ls.findSome? OptionLine.depth? with
  | none => rfl
  | some n =>
    simp only [Option.map_some, ofDigits?_toString]
    split <;> rfl

/-- A page is covered if no pages are named, or if its path is one of the names or ends with a slash
and one of the names. -/
theorem covers_iff (o : ListingOptions) (path : String) :
    o.covers path = true ↔
      o.pages = [] ∨ ∃ p ∈ o.pages, path = p ∨ ∃ front, path = front ++ "/" ++ p := by
  have hend (p : String) : endsWith path ("/" ++ p) = true ↔ ∃ front, path = front ++ "/" ++ p := by
    rw [endsWith_iff]
    constructor
    · rintro ⟨front, hfront⟩
      refine ⟨String.ofList front, ?_⟩
      rw [← String.toList_inj, ← hfront]
      simp
    · rintro ⟨front, rfl⟩
      exact ⟨front.toList, by simp⟩
  simp only [covers, Bool.or_eq_true, List.isEmpty_iff, List.any_eq_true, decide_eq_true_eq, hend]

/-- Options are read back as they are written: in a text of lines, of which the first that names
pages names `names` and the first that says a depth says `n`, with gaps of any length around all
parts and either kind of quotes around each name, the names are read as `names` and the depth as
`n`, unless `n` has too many digits, and then nothing is read. A page is then covered if there are
no names, or if its path is one of them or ends with a slash and one of them. -/
theorem options_read_back {ls : List OptionLine} {names : List String} {n : Nat}
    (hpages : ls.findSome? OptionLine.pages? = some names)
    (hdepth : ls.findSome? OptionLine.depth? = some n) :
    (ofText? (String.ofList (linesText ls)) =
      if n < Number.pow10 Number.mostDigits then some ⟨names, n⟩ else none) ∧
    ∀ path, (⟨names, n⟩ : ListingOptions).covers path = true ↔
      names = [] ∨ ∃ p ∈ names, path = p ∨ ∃ front, path = front ++ "/" ++ p := by
  refine ⟨?_, covers_iff _⟩
  rw [ofText?_linesText, hpages, hdepth]
  rfl

/-! ### Samples -/

/-- No blanks. -/
def noGap : Gap := ⟨[], by decide⟩

/-- A single space. -/
def space : Gap := ⟨[' '], by decide⟩

/-- A line as it is mostly written, with a space on either side of the equals sign. -/
def usualLayout : Layout := ⟨noGap, space, space, noGap⟩

/-- A name between double quotes, and one with brackets, a comma and an equals sign between single
ones, behind a depth and two other lines. -/
def bracketedLines : List OptionLine := [
  .depth ⟨noGap, ⟨['\t'], by decide⟩, noGap, space⟩ 3,
  .other "see = below".toList (by decide) (by decide) (by decide),
  .other [] (by decide) (by decide) (by decide),
  .pages ⟨space, space, space, ⟨['\t', ' '], by decide⟩⟩ space [
    ⟨"guide.md", '"', noGap, space, by decide, by decide, by decide⟩,
    ⟨"a],[=é.md", '\'', noGap, noGap, by decide, by decide, by decide⟩]]

/-- Two options with blanks, another line between them and brackets in a name are read back. -/
theorem options_read_back_bracketedLines :
    ofText? "Depth\t=3 \nsee = below\n\n Pages = [ \"guide.md\" ,'a],[=é.md']\t " =
        some ⟨["guide.md", "a],[=é.md"], 3⟩ ∧
      (⟨["guide.md", "a],[=é.md"], 3⟩ : ListingOptions).covers "docs/guide.md" = true := by
  have htext : String.ofList (linesText bracketedLines) =
      "Depth\t=3 \nsee = below\n\n Pages = [ \"guide.md\" ,'a],[=é.md']\t " := by decide +kernel
  have hpages : bracketedLines.findSome? OptionLine.pages? = some ["guide.md", "a],[=é.md"] := rfl
  have hdepth : bracketedLines.findSome? OptionLine.depth? = some 3 := rfl
  obtain ⟨hread, hcovers⟩ := options_read_back hpages hdepth
  refine ⟨?_, (hcovers _).mpr (.inr ⟨"guide.md", by decide, .inr ⟨"docs", by decide⟩⟩)⟩
  rw [← htext, hread]
  exact if_pos (by decide +kernel)

/-- A depth with one digit more than numbers may have is not read, and with it nothing else. -/
theorem long_depth_is_not_read :
    ofText? ("Pages = [\"a.md\"]\nDepth = " ++ toString (Number.pow10 Number.mostDigits)) =
      none := by
  have htext (n : Nat) : "Pages = [\"a.md\"]\nDepth = " ++ toString n = String.ofList (linesText [
      .pages usualLayout noGap [⟨"a.md", '"', noGap, noGap, by decide, by decide, by decide⟩],
      .depth usualLayout n]) := by
    rw [← String.toList_inj, String.toList_append, String.toList_ofList]
    simp [linesText, OptionLine.text, Layout.line, listed, QuotedName.text, usualLayout, noGap,
      space]
  rw [htext, ofText?_linesText]
  exact if_neg (Nat.lt_irrefl _)

end Folio.ListingOptions
