import Folio.Directive
import Folio.Proofs.Directive.Grammar
import Folio.Proofs.Draft.Sequence
import Mathlib.Data.List.TakeDrop

/-!
# Hand-written pages as they are expanded

A page that is expanded without a fault is the expansions of its stretches, each on a line of its
own: the code of an example with what it shows, the documentation of a binding or a mark that it is
missing, a comment as it stands, and any other line with its references made into links. Only
footnotes are handed on from one stretch to the next.
-/

namespace Folio

open Draft Text Directive

namespace Directive

/-- The target of a reference: a text without parentheses and blanks. -/
def IsTarget (target : List Char) : Prop :=
  target ≠ [] ∧ ∀ c ∈ target, c ≠ '(' ∧ c ≠ ')' ∧ isBlank c = false

/-- A text begins with a reference. -/
def Refers (cs target rest : List Char) : Prop :=
  IsTarget target ∧ cs = referenceMark ++ (target ++ ')' :: rest)

/-- The test for references reads the target that characters refer to. -/
theorem referenceAt?_eq_some_iff {cs target : List Char} :
    referenceAt? cs = some target ↔ ∃ rest, Refers cs target rest := by
  unfold referenceAt?
  constructor
  · intro h
    split at h
    · cases h
    · next after hafter =>
      simp only [List.span_eq_takeWhile_dropWhile] at h
      split at h
      · next htarget =>
        obtain rfl := Option.some.inj h
        obtain ⟨hne, hclose⟩ := Bool.and_eq_true_iff.mp htarget
        obtain ⟨rest, hrest⟩ := List.head?_eq_some_iff.mp (of_decide_eq_true hclose)
        refine ⟨rest, ⟨by simpa using hne, fun c hc => ?_⟩, ?_⟩
        · simpa [and_assoc] using List.mem_takeWhile_imp hc
        · rw [after?_eq_some_iff.mp hafter, ← hrest, List.takeWhile_append_dropWhile]
      · cases h
  · rintro ⟨rest, ⟨hne, hchars⟩, rfl⟩
    rw [after?_eq_some_iff.mpr rfl]
    have hkept : ∀ c ∈ target, (c ≠ '(' && c ≠ ')' && !isBlank c) = true := by
      intro c hc
      simpa [and_assoc] using hchars c hc
    simp only [List.span_eq_takeWhile_dropWhile]
    rw [List.takeWhile_append_of_pos hkept, List.dropWhile_append_of_pos hkept]
    simp [hne]

/-- A text begins with one reference at most. -/
theorem Refers.unique {cs target other rest tail : List Char} (h : Refers cs target rest)
    (h' : Refers cs other tail) : target = other ∧ rest = tail := by
  obtain ⟨⟨-, htarget⟩, hcs⟩ := h
  obtain ⟨⟨-, hother⟩, hcs'⟩ := h'
  have hparts := List.append_cancel_left (hcs.symm.trans hcs')
  obtain ⟨hsame, -, hrest⟩ := first_unique (p := (· = ')')) (fun c hc => (htarget c hc).2.1) rfl
    (fun c hc => (hother c hc).2.1) rfl hparts
  exact ⟨hsame, hrest⟩

/-- A reference takes characters. -/
theorem Refers.length_lt {cs target rest : List Char} (h : Refers cs target rest) :
    rest.length < cs.length := by
  rw [h.2]
  simp only [List.length_append, List.length_cons]
  omega

/-- Characters of a reference that was read are skipped. -/
theorem partsAfter_eq (skip : Nat) (cs : List Char) :
    partsAfter skip cs = partsAfter 0 (cs.drop skip) := by
  induction skip generalizing cs with
  | zero => rw [List.drop_zero]
  | succ skip ih =>
    cases cs with
    | nil => rfl
    | cons c rest => rw [partsAfter, ih, List.drop_succ_cons]

/-- A reference in front is one part of a line, and the rest follows. -/
theorem partsAfter_of_refers {cs target rest : List Char} (h : Refers cs target rest) :
    partsAfter 0 cs = .reference target :: partsAfter 0 rest := by
  have hat := referenceAt?_eq_some_iff.mpr ⟨rest, h⟩
  obtain ⟨-, rfl⟩ := h
  obtain ⟨c, mark, hmark⟩ : ∃ c mark, referenceMark = c :: mark := ⟨_, _, rfl⟩
  have hlength : referenceMark.length + target.length = (mark ++ target ++ [')']).length := by
    simp only [hmark, List.length_cons, List.length_append, List.length_nil]
    omega
  rw [hmark] at hat ⊢
  rw [List.cons_append, partsAfter]
  rw [List.cons_append] at hat
  simp only [hat]
  have hparts : mark ++ (target ++ ')' :: rest) = (mark ++ target ++ [')']) ++ rest := by simp
  rw [partsAfter_eq, hlength, hparts, List.drop_left]

/-- A character where no reference begins is a part of its own. -/
theorem partsAfter_of_not_refers {c : Char} {rest : List Char}
    (h : ∀ target tail, ¬Refers (c :: rest) target tail) :
    partsAfter 0 (c :: rest) = .char c :: partsAfter 0 rest := by
  have hat : referenceAt? (c :: rest) = none := by
    rw [Option.eq_none_iff_forall_ne_some]
    intro target htarget
    obtain ⟨tail, hrefers⟩ := referenceAt?_eq_some_iff.mp htarget
    exact h target tail hrefers
  rw [partsAfter]
  simp only [hat]

end Directive

namespace Expander

/-- The written form of a block of verbatim text. -/
def verbatimText (language text : String) : String :=
  "#raw(" ++ literalText text ++ ", block: true, lang: \"" ++ language ++ "\")"

variable (x : Expander) (page : String) (names : List String)

/-- What stands below the code of an example: what it shows or how it failed, unless that cannot be
shown. -/
def outcomeText : Outcome → Except Fault String
  | .returned output value =>
    (shownResult output value).map fun shown =>
      if shown = "" then "" else "\n" ++ verbatimText "text" shown
  | .raised error message =>
    .ok ("\n" ++ verbatimText "text" ("Error: " ++ error ++ ": " ++ message))
  | .interrupted kind => .error (.interrupted kind)

/-- The expansion of an example: its code, and on the next line what comes of it. -/
def sampleText (code : String) : Except Fault String :=
  (outcomeText (x.evaluator code)).map (verbatimText x.language code ++ ·)

/-- The label that a reference leads to: the documentation on the page comes first. -/
def targetId (target : String) : Except Fault LabelId :=
  match localBinding? target names with
  | some name => .ok (x.renderer.labels.id page name)
  | none => x.renderer.labels.resolve page target

/-- The expansion of a reference. -/
def linkText (id : LabelId) (target : String) : String :=
  "#link(label(" ++ literalText id.text ++ "))[#raw(" ++ literalText target ++ ", block: false)]"

/-- The expansion of a line, from left to right: a reference where one begins, and otherwise the
character that stands there. -/
inductive LineText : List Char → String → Prop
  | nil : LineText [] ""
  | reference {cs target rest : List Char} {id : LabelId} {text : String}
    (hcs : Refers cs target rest) (hid : x.targetId page names (String.ofList target) = .ok id)
    (hrest : LineText rest text) : LineText cs (linkText id (String.ofList target) ++ text)
  | char {c : Char} {rest : List Char} {text : String}
    (hc : ∀ target tail, ¬Refers (c :: rest) target tail) (hrest : LineText rest text) :
    LineText (c :: rest) (String.singleton c ++ text)

/-- The footnotes behind a stretch. -/
def notesBehind (notes : Footnotes) : Stretch → Footnotes
  | .docs _ name =>
    match x.lookup.find? name with
    | some found =>
      (Node.binding name found.category found.bodies page).collectFootnotes notes
    | none => notes
  | _ => notes

/-- A stretch has an expansion, given the footnotes behind it. -/
def Gives (notes : Footnotes) : Stretch → String → Prop
  | .sample _ inside _, text => x.sampleText (sampleCode (inside.map uncommented)) = .ok text
  | .docs _ name, text =>
    match x.lookup.find? name with
    | none =>
      text = "#text(fill: red)[Missing documentation: #raw(" ++ literalText name ++
        ", block: false)]"
    | some found =>
      let shown := x.renderer.nodes (Context.atPage page 1 notes)
        [.binding name found.category found.bodies page]
      shown.fault = none ∧ text = String.ofList (dropEndWhile (· = '\n') shown.text.toList)
  | .comment line, text => text = line
  | .plain line, text => x.LineText page names line.toList text

/-- Stretches have expansions in order, given the footnotes in front of them. -/
inductive Expansions : Footnotes → List Stretch → List String → Prop
  | nil {notes : Footnotes} : Expansions notes [] []
  | cons {notes : Footnotes} {s : Stretch} {text : String} {ss : List Stretch}
    {texts : List String} (hs : x.Gives page names (x.notesBehind page notes s) s text)
    (hss : Expansions (x.notesBehind page notes s) ss texts) :
    Expansions notes (s :: ss) (text :: texts)

variable {x page names}

/-- A piece in front of a draft comes first in the text. -/
theorem text_ofPiece_seq (p : Piece) (d : Draft) : (ofPiece p >> d).text = p.written ++ d.text := by
  rw [text_seq rfl, text_ofPiece]

/-- The text of verbatim code is the code in its fence. -/
theorem text_verbatim (language text : String) :
    (verbatim language text).text = verbatimText language text := by
  simp only [verbatim, markup, literal, text_ofPiece_seq, text_ofPiece, Piece.written,
    verbatimText, String.append_assoc]

/-- What is drafted below the code of an example. -/
def outcomeDraft (page : String) : Outcome → Draft
  | .returned output value =>
    ofExcept (shownResult output value) fun shown =>
      when (shown ≠ "") (markup "\n" >> verbatim "text" shown)
  | .raised error message =>
    notice (.exampleFailed page error message) >> markup "\n" >>
      verbatim "text" ("Error: " ++ error ++ ": " ++ message)
  | .interrupted kind => stop (.interrupted kind)

/-- An example is the notice of a missing end, its code, and what came of running it. -/
theorem sample_eq (inside : List String) (closed : Bool) :
    x.sample page inside closed =
      when (!closed) (notice (.unterminatedExample page)) >>
        verbatim x.language (sampleCode inside) >>
        outcomeDraft page (x.evaluator (sampleCode inside)) := by
  rw [sample]
  cases x.evaluator (sampleCode inside) <;> rfl

/-- What comes of an example is drafted, or the draft ends with the reason why it cannot be
shown. -/
theorem outcomeDraft_result (page : String) (outcome : Outcome) :
    (outcomeText outcome = .ok (outcomeDraft page outcome).text ∧
        (outcomeDraft page outcome).fault = none) ∨
      ∃ f, outcomeText outcome = .error f ∧ (outcomeDraft page outcome).fault = some f := by
  cases outcome with
  | returned output value =>
    simp only [outcomeText, outcomeDraft]
    cases shownResult output value with
    | error f => exact .inr ⟨f, rfl, rfl⟩
    | ok shown =>
      refine .inl ⟨congrArg Except.ok ?_, fault_when rfl _⟩
      change _ = (when (shown ≠ "") (markup "\n" >> verbatim "text" shown)).text
      by_cases hshown : shown = ""
      · simp [hshown, when, text, empty]
      · simp only [hshown, when, markup, ne_eq, not_false_eq_true, decide_true, if_true, if_false,
          text_ofPiece_seq, text_verbatim, Piece.written]
  | raised error message =>
    refine .inl ⟨congrArg Except.ok ?_, rfl⟩
    change _ = (notice _ >> markup "\n" >> verbatim "text" _).text
    rw [text_seq rfl, markup, text_ofPiece_seq, text_verbatim]
    exact String.empty_append.symm
  | interrupted kind => exact .inr ⟨_, rfl, rfl⟩

/-- An example that is written comes to its expansion. -/
theorem sampleText_eq_ok {inside : List String} {closed : Bool}
    (h : (x.sample page inside closed).fault = none) :
    x.sampleText (sampleCode inside) = .ok (x.sample page inside closed).text := by
  have hnotice : (when (!closed) (notice (.unterminatedExample page))).text = "" := by
    cases closed <;> rfl
  have hcode : (verbatim x.language (sampleCode inside)).fault = none := rfl
  rw [sample_eq, fault_seq (fault_when rfl _), fault_seq hcode] at h
  rcases outcomeDraft_result page (x.evaluator (sampleCode inside)) with
    ⟨hbelow, -⟩ | ⟨f, -, hfault⟩
  · rw [sampleText, hbelow, sample_eq, text_seq (fault_when rfl _), hnotice, String.empty_append,
      text_seq hcode, text_verbatim]
    rfl
  · rw [h] at hfault
    cases hfault

/-- A reference without a fault is a link to the label of its target. -/
theorem text_reference {target : String}
    (h : (x.reference page names target).fault = none) :
    ∃ id, x.targetId page names target = .ok id ∧
      (x.reference page names target).text = linkText id target := by
  have hreference : x.reference page names target = ofExcept (x.targetId page names target)
      fun id => ofPiece (.link (.label id)) >> markup "[" >> inlineCode target >> markup "]" := rfl
  rw [hreference] at h ⊢
  cases hid : x.targetId page names target with
  | error f =>
    rw [hid] at h
    cases h
  | ok id =>
    refine ⟨id, rfl, ?_⟩
    change (ofPiece (.link (.label id)) >> markup "[" >> inlineCode target >> markup "]").text = _
    have hcode :
        (inlineCode target).text = "#raw(" ++ (literalText target ++ ", block: false)") := by
      simp only [inlineCode, markup, literal, text_ofPiece_seq, text_ofPiece, Piece.written]
    rw [text_ofPiece_seq, markup, text_ofPiece_seq, text_seq rfl, hcode, markup, text_ofPiece]
    rw [← String.toList_inj]
    unfold linkText
    simp [Piece.written]

/-- A line is written with its references made into links. -/
theorem lineText_line {cs : List Char} (h : (x.line page names (partsAfter 0 cs)).fault = none) :
    x.LineText page names cs (x.line page names (partsAfter 0 cs)).text := by
  induction hlength : cs.length using Nat.strong_induction_on generalizing cs with
  | _ n ih =>
    subst hlength
    cases cs with
    | nil => exact .nil
    | cons c rest =>
      by_cases hrefers : ∃ target tail, Refers (c :: rest) target tail
      · obtain ⟨target, tail, hrefers⟩ := hrefers
        rw [partsAfter_of_refers hrefers, line] at h ⊢
        obtain ⟨hlink, hrest⟩ := fault_seq_eq_none.mp h
        obtain ⟨id, hid, htext⟩ := text_reference hlink
        rw [text_seq hlink, htext]
        exact .reference hrefers hid (ih tail.length hrefers.length_lt hrest rfl)
      · have hnone (target tail : List Char) : ¬Refers (c :: rest) target tail :=
          fun hrefers' => hrefers ⟨target, tail, hrefers'⟩
        rw [partsAfter_of_not_refers hnone, line] at h ⊢
        rw [markup, text_ofPiece_seq]
        exact .char hnone (ih rest.length (Nat.lt_succ_self _) (fault_seq_eq_none.mp h).2 rfl)

/-- A line has one text. -/
theorem LineText.unique {cs : List Char} {s t : String} (hs : x.LineText page names cs s)
    (ht : x.LineText page names cs t) : s = t := by
  induction hs generalizing t with
  | nil =>
    cases ht with
    | nil => rfl
    | reference hcs _ _ => cases hcs.2
  | reference hcs hid hrest ih =>
    cases ht with
    | nil => cases hcs.2
    | reference hcs' hid' hrest' =>
      obtain ⟨rfl, rfl⟩ := hcs.unique hcs'
      obtain rfl := Except.ok.inj (hid.symm.trans hid')
      rw [ih hrest']
    | char hc _ => exact absurd hcs (hc _ _)
  | char hc hrest ih =>
    cases ht with
    | reference hcs _ _ => exact absurd hcs (hc _ _)
    | char _ hrest' => rw [ih hrest']

/-- The documentation of a binding ends with brackets. -/
theorem exists_text_binding {r : Renderer} {c : Context} {b : Binding}
    (h : (r.binding c b).fault = none) : ∃ text, (r.binding c b).text = text ++ "])" := by
  rw [Renderer.binding, bindingAround] at h ⊢
  obtain ⟨hcode, h⟩ := fault_seq_eq_none.mp h
  obtain ⟨hspace, h⟩ := fault_seq_eq_none.mp h
  obtain ⟨hanchor, h⟩ := fault_seq_eq_none.mp h
  obtain ⟨hgrid, h⟩ := fault_seq_eq_none.mp h
  obtain ⟨hbodies, -⟩ := fault_seq_eq_none.mp h
  rw [text_seq hcode, text_seq hspace, text_seq hanchor, text_seq hgrid, text_seq hbodies]
  simp only [← String.append_assoc]
  exact ⟨_, rfl⟩

/-- The documentation of a binding is written as on any page, without the line feed behind it. -/
theorem binding_eq {r : Renderer} {c : Context} {name category page : String}
    {bodies : List Node} (h : (r.binding c ⟨name, category, bodies, page⟩).fault = none) :
    (r.nodes c [.binding name category bodies page]).fault = none ∧
      (r.binding c ⟨name, category, bodies, page⟩).text =
        String.ofList (dropEndWhile (· = '\n')
          (r.nodes c [.binding name category bodies page]).text.toList) := by
  have hnodes : r.nodes c [.binding name category bodies page] =
      (r.binding c ⟨name, category, bodies, page⟩ >> markup "\n") >> empty := by
    rw [Renderer.nodes, draftAll, draftNode]
    rfl
  have hshown := fault_seq_eq_none.mpr ⟨h, (rfl : (markup "\n").fault = none)⟩
  obtain ⟨text, htext⟩ := exists_text_binding h
  refine ⟨hnodes ▸ fault_seq_eq_none.mpr ⟨hshown, rfl⟩, ?_⟩
  have hwhole : (r.nodes c [.binding name category bodies page]).text.toList =
      text.toList ++ [']'] ++ [')'] ++ ['\n'] := by
    rw [hnodes, text_seq hshown, text_seq h, htext, markup, text_ofPiece]
    simp [Piece.written, Draft.text, empty]
  have hline : ∀ c ∈ ['\n'], decide (c = '\n') = true := List.forall_mem_singleton.mpr rfl
  rw [hwhole, dropEndWhile_append hline, dropEndWhile_concat_of_neg (by decide), htext,
    ← String.toList_inj]
  simp

/-- A segment without a fault gives a text for its stretch. -/
theorem segment_gives {notes : Footnotes} (s : Stretch)
    (h : (x.segment page names notes s.segment).draft.fault = none) :
    x.Gives page names (x.notesBehind page notes s) s
        (x.segment page names notes s.segment).draft.text ∧
      (x.segment page names notes s.segment).notes = x.notesBehind page notes s := by
  cases s with
  | sample opening inside closing => exact ⟨sampleText_eq_ok h, rfl⟩
  | docs line name =>
    simp only [Stretch.segment, segment, Gives, notesBehind] at h ⊢
    cases hfound : x.lookup.find? name with
    | none =>
      refine ⟨?_, rfl⟩
      change (notice _ >> markup _ >> literal name >> markup _).text = _
      rw [text_seq rfl, markup, text_ofPiece_seq, literal, text_ofPiece_seq, markup, text_ofPiece,
        String.append_assoc]
      exact String.empty_append
    | some found =>
      simp only [hfound] at h
      obtain ⟨hsearch, hbinding⟩ := fault_seq_eq_none.mp h
      obtain ⟨hshown, htext⟩ := binding_eq hbinding
      have hnothing (node : Node) : (searched node).text = "" := by
        rw [searched]
        split <;> rfl
      refine ⟨⟨hshown, ?_⟩, rfl⟩
      change (searched _ >> x.renderer.binding _ _).text = _
      rw [text_seq hsearch, hnothing, String.empty_append, htext]
  | comment line => exact ⟨text_ofPiece _, rfl⟩
  | plain line => exact ⟨lineText_line h, rfl⟩

/-- Segments without a fault give texts for all stretches. -/
theorem segments_expansions {notes : Footnotes} (ss : List Stretch)
    (h : (x.segments page names notes (ss.map Stretch.segment)).draft.fault = none) :
    ∃ texts, x.Expansions page names notes ss texts ∧
      (x.segments page names notes (ss.map Stretch.segment)).draft.text = joinWith "\n" texts := by
  induction ss generalizing notes with
  | nil => exact ⟨[], .nil, rfl⟩
  | cons s ss ih =>
    cases ss with
    | nil =>
      obtain ⟨hgives, -⟩ := segment_gives s h
      exact ⟨[_], .cons hgives .nil, rfl⟩
    | cons t rest =>
      rw [List.map_cons, List.map_cons, segments, ← List.map_cons] at h ⊢
      cases hfault : (x.segment page names notes s.segment).draft.fault with
      | some f => simp [hfault] at h
      | none =>
        simp only [hfault, Option.isSome_none] at h ⊢
        obtain ⟨hgives, hnotes⟩ := segment_gives s hfault
        obtain ⟨-, hothers⟩ := fault_seq_eq_none.mp h
        obtain ⟨-, hothers⟩ := fault_seq_eq_none.mp hothers
        obtain ⟨texts, hexpansions, htexts⟩ := ih hothers
        rw [hnotes] at hexpansions
        refine ⟨_ :: texts, .cons hgives hexpansions, ?_⟩
        change (_ >> markup "\n" >> _).text = _
        rw [text_seq hfault, markup, text_ofPiece_seq, htexts]
        cases hexpansions with
        | cons _ _ => exact (String.append_assoc ..).symm

/-- A stretch gives one text only. -/
theorem Gives.unique {notes : Footnotes} {s : Stretch} {text other : String}
    (hs : x.Gives page names notes s text) (ht : x.Gives page names notes s other) :
    text = other := by
  cases s with
  | sample opening inside closing => exact Except.ok.inj (hs.symm.trans ht)
  | docs line name =>
    simp only [Gives] at hs ht
    cases hfound : x.lookup.find? name with
    | none =>
      simp only [hfound] at hs ht
      rw [hs, ht]
    | some found =>
      simp only [hfound] at hs ht
      rw [hs.2, ht.2]
  | comment line => exact hs.trans ht.symm
  | plain line => exact LineText.unique hs ht

/-- Stretches have one expansion only. -/
theorem Expansions.unique {notes : Footnotes} {ss : List Stretch} {texts others : List String}
    (hs : x.Expansions page names notes ss texts) (ht : x.Expansions page names notes ss others) :
    texts = others := by
  induction hs generalizing others with
  | nil =>
    cases ht
    rfl
  | cons hs hss ih =>
    cases ht with
    | cons ht htt => rw [hs.unique ht, ih htt]

/-- A page of lines that is expanded without a fault is the expansions of its stretches, joined by
line feeds, with a line feed at the end if the page has one there. There is only one way to cut the
lines into stretches; a line that closes an example where none is open is a comment. -/
theorem expand_eq (x : Expander) (page : String) {ls : List String} {last : String}
    (hls : ∀ l ∈ ls, IsLine l) (hlast : IsLine last)
    (h : (x.expand page (ofLines ls last)).draft.fault = none) :
    let lines := ls ++ if last = "" then [] else [last]
    ∃ ss texts,
      (CutInto lines ss ∧ ∀ others, CutInto lines others → others = ss) ∧
      (x.Expansions page (lines.filterMap documented?) [] ss texts ∧
        ∀ others, x.Expansions page (lines.filterMap documented?) [] ss others → others = texts) ∧
      (x.expand page (ofLines ls last)).draft.text =
        joinWith "\n" texts ++ (if last = "" ∧ ls ≠ [] then "\n" else "") ∧
      ∀ line, Closes line → (Stretch.comment line).Fits := by
  intro lines
  have hlines : Text.lines (ofLines ls last) = lines := lines_ofLines hls hlast
  obtain ⟨ss, hss⟩ := exists_cutInto lines
  simp only [expand, hlines, hss.ofLines_eq] at h ⊢
  obtain ⟨hsegments, -⟩ := fault_seq_eq_none.mp h
  obtain ⟨texts, hexpansions, htext⟩ := segments_expansions ss hsegments
  refine ⟨ss, texts, ⟨hss, fun others hothers => hothers.unique hss⟩,
    ⟨hexpansions, fun others hothers => hothers.unique hexpansions⟩, ?_,
    fun line hline => Stretch.fits_comment_of_closes hline⟩
  have hfeed := endsWith_ofLines ls hlast
  rw [text_seq hsegments, htext, when]
  by_cases hend : last = "" ∧ ls ≠ []
  · rw [if_pos (hfeed.mpr hend), if_pos hend, markup, text_ofPiece]
    rfl
  · rw [if_neg (mt hfeed.mp hend), if_neg hend]
    rfl

/-- An expander that knows one binding and whose examples print a number. -/
def smallExpander : Expander where
  renderer := ⟨Labels.ofPages "" false [], fun _ => none, none⟩
  lookup name :=
    if name = "f" then some ⟨"Function", [.body (.document [.text "x"]) none]⟩ else none
  evaluator _ := .returned "2" (.scalar .null)
  language := "python"

/-- Lines of every kind; the second example is not closed. -/
def mixedLines : List String := [
  "// @typst-docs f", "//@typst-example", "// 1", "//@typst-example-end", "//", "@typst-ref(F)",
  "//@typst-example"]

/-- A page with comments, documentation, an example and references has one expansion. -/
theorem expand_eq_mixedLines :
    (∀ l ∈ mixedLines, IsLine l) ∧ IsLine "2" ∧
      (smallExpander.expand "api.typ" (ofLines mixedLines "2")).draft.fault = none ∧
      ∃ ss texts, CutInto (mixedLines ++ ["2"]) ss ∧
        smallExpander.Expansions "api.typ" ["f"] [] ss texts ∧
        (smallExpander.expand "api.typ" (ofLines mixedLines "2")).draft.text =
          joinWith "\n" texts := by
  have hls : ∀ l ∈ mixedLines, IsLine l := by decide
  have hlast : IsLine "2" := by decide
  have hok : (smallExpander.expand "api.typ" (ofLines mixedLines "2")).draft.fault = none := by
    decide +kernel
  have hnames : (mixedLines ++ ["2"]).filterMap documented? = ["f"] := by decide +kernel
  obtain ⟨ss, texts, ⟨hss, -⟩, ⟨hexpansions, -⟩, htext, -⟩ :=
    expand_eq smallExpander "api.typ" hls hlast hok
  exact ⟨hls, hlast, hok, ss, texts, hss, hnames ▸ hexpansions, by simpa using htext⟩

end Expander

end Folio
