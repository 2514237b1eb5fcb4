import Folio.Proofs.Markdown.Traces
import Mathlib

/-!
# Names of footnotes

The parser of Markdown gives every footnote a number, and a label unless it stands in the text. The
conversion names a footnote and its marks by the label, or else by the number. Footnotes of
different numbers therefore keep different names, unless the label of one spells the number of
another one that has no label: then both have one name, and the marks of both lead to the later one.
-/

namespace Folio

/-- The name that the trace of a mark has. -/
def Trace.mark? : Trace → Option String
  | mark name => some name
  | _ => none

/-- The name that the trace of a footnote has. -/
def Trace.note? : Trace → Option String
  | note name => some name
  | _ => none

namespace Node

/-- The name at the mark of a footnote. -/
def mark? : Node → Option String
  | footnoteMark id => some id
  | _ => none

/-- A node is a mark if its trace is one. -/
theorem trace?_bind_mark? (n : Node) : n.trace?.bind Trace.mark? = n.mark? := by
  cases n with
  | raw target content =>
    rw [trace?]
    split <;> rfl
  | _ => rfl

/-- A node is a footnote if its trace is one. -/
theorem trace?_bind_note? (n : Node) : n.trace?.bind Trace.note? = n.note?.map Prod.fst := by
  cases n with
  | raw target content =>
    rw [trace?]
    split <;> rfl
  | _ => rfl

/-- A node that leaves no trace of documentation or of a listing is no part of one. -/
theorem isGenerated_eq_false {n : Node} (h : n.trace? ≠ some .generated) :
    n.isGenerated = false := by
  cases n <;> first | rfl | exact absurd rfl h

end Node

namespace Markdown

open Node

/-! ### What the parser notes -/

namespace Attributes

/-- The number of a footnote or of a mark. -/
def number? (a : Attributes) : Option Int :=
  match Value.lookup? "id" a.noted with
  | some (.scalar (.int n)) => some n
  | _ => none

/-- The label of a footnote or of a mark, if it has one that is not empty. -/
def label? (a : Attributes) : Option String :=
  match Value.lookup? "label" a.noted with
  | some (.scalar (.text s)) => if s = "" then none else some s
  | _ => none

/-- Whether a footnote or a mark is noted as the parser does it: with a number, and with a label
that is a text, null or missing. -/
def IsNumbered (a : Attributes) : Prop :=
  a.number?.isSome ∧ ∀ v, Value.lookup? "label" a.noted = some v → v = .null ∨ ∃ s, v = .text s

/-- Whether the label of one footnote spells the number of another one that has no label. -/
def Spells (a b : Attributes) : Prop :=
  b.label? = none ∧ ∃ n, b.number? = some n ∧ a.label? = some (toString n)

/-- Whether two footnotes, or a mark and a footnote, have one number, or else the label of one
spells the number of the other one. -/
def Meets (a b : Attributes) : Prop := a.number? = b.number? ∨ a.Spells b ∨ b.Spells a

variable {a b : Attributes}

/-- A footnote is named by its label, or else by its number. -/
theorem footnoteName_eq (h : a.IsNumbered) {n : Int} (hn : a.number? = some n) :
    a.footnoteName = a.label?.getD (toString n) := by
  have hid : a.note "id" = toString n := by
    rw [number?] at hn
    split at hn
    · next m hm =>
      rw [note, hm, ← Option.some.inj hn]
      rfl
    · cases hn
  rw [footnoteName, label?]
  cases hlabel : Value.lookup? "label" a.noted with
  | none => exact hid
  | some v =>
    rcases h.2 v hlabel with rfl | ⟨s, rfl⟩
    · exact hid
    · by_cases hs : s = ""
      · simp [hs, hid, Value.isFilled, Scalar.isFilled]
      · simp [hs, Value.isFilled, Scalar.isFilled, Value.plain, Scalar.plain]

/-- Two footnotes have one name if they have one label, if they have one number and no label, or if
the label of one spells the number of the other one. -/
theorem footnoteName_eq_iff (ha : a.IsNumbered) (hb : b.IsNumbered) :
    a.footnoteName = b.footnoteName ↔
      (a.label? = b.label? ∧ (a.label? = none → a.number? = b.number?)) ∨ a.Spells b ∨
        b.Spells a := by
  obtain ⟨m, hm⟩ := Option.isSome_iff_exists.mp ha.1
  obtain ⟨n, hn⟩ := Option.isSome_iff_exists.mp hb.1
  rw [footnoteName_eq ha hm, footnoteName_eq hb hn, Spells, Spells, hm, hn]
  cases a.label? with
  | none =>
    cases b.label? with
    | none => simp
    | some t => simp [eq_comm]
  | some s => cases b.label? <;> simp

end Attributes

/-- How the parser delivers the marks and the footnotes of a page: the footnotes have numbers that
differ from each other, no two of them share a label, and a mark has the number and the label of its
footnote. -/
structure Delivered (marks notes : List Attributes) : Prop where
  numbered : ∀ a ∈ marks ++ notes, a.IsNumbered
  numbers : (notes.map Attributes.number?).Nodup
  labels : ∀ a ∈ notes, ∀ b ∈ notes, a.label? ≠ none → a.label? = b.label? →
    a.number? = b.number?
  refers : ∀ m ∈ marks, ∃ a ∈ notes, m.number? = a.number? ∧ m.label? = a.label?

namespace Delivered

variable {marks notes : List Attributes} {m a b : Attributes}

/-- Footnotes of one number are the same. -/
theorem label?_eq_of_number?_eq (h : Delivered marks notes) (ha : a ∈ notes) (hb : b ∈ notes)
    (hnumber : a.number? = b.number?) : a.label? = b.label? := by
  rw [List.inj_on_of_nodup_map h.numbers ha hb hnumber]

/-- Two footnotes share a name if they meet. -/
theorem footnoteName_eq_iff (h : Delivered marks notes) (ha : a ∈ notes) (hb : b ∈ notes) :
    a.footnoteName = b.footnoteName ↔ a.Meets b := by
  rw [Attributes.footnoteName_eq_iff (h.numbered a (List.mem_append_right _ ha))
    (h.numbered b (List.mem_append_right _ hb))]
  refine or_congr_left' fun _ => ⟨fun ⟨hlabel, hnone⟩ => ?_, fun hnumber =>
    ⟨h.label?_eq_of_number?_eq ha hb hnumber, fun _ => hnumber⟩⟩
  by_cases hfilled : a.label? = none
  · exact hnone hfilled
  · exact h.labels a ha b hb hfilled hlabel

/-- Where the label of a footnote spells the number of another one, the numbers differ. -/
theorem number?_ne_of_spells (h : Delivered marks notes) (ha : a ∈ notes) (hb : b ∈ notes)
    (hspells : a.Spells b) : a.number? ≠ b.number? := by
  intro hnumber
  obtain ⟨hnone, n, -, hlabel⟩ := hspells
  rw [h.label?_eq_of_number?_eq ha hb hnumber, hnone] at hlabel
  cases hlabel

/-- A mark and a footnote share a name if they meet. -/
theorem mark_footnoteName_eq_iff (h : Delivered marks notes) (hm : m ∈ marks) (hb : b ∈ notes) :
    m.footnoteName = b.footnoteName ↔ m.Meets b := by
  obtain ⟨a, ha, hnumber, hlabel⟩ := h.refers m hm
  have hname : m.footnoteName = a.footnoteName :=
    (Attributes.footnoteName_eq_iff (h.numbered m (List.mem_append_left _ hm))
      (h.numbered a (List.mem_append_right _ ha))).mpr (.inl ⟨hlabel, fun _ => hnumber⟩)
  rw [hname, h.footnoteName_eq_iff ha hb]
  simp only [Attributes.Meets, Attributes.Spells, hnumber, hlabel]

/-- A mark that meets a footnote through a label has another number. -/
theorem mark_number?_ne_of_spells (h : Delivered marks notes) (hm : m ∈ marks) (hb : b ∈ notes)
    (hspells : m.Spells b ∨ b.Spells m) : m.number? ≠ b.number? := by
  obtain ⟨a, ha, hnumber, hlabel⟩ := h.refers m hm
  simp only [Attributes.Spells, hnumber, hlabel] at hspells ⊢
  rcases hspells with hab | hba
  · exact h.number?_ne_of_spells ha hb hab
  · exact (h.number?_ne_of_spells hb ha hba).symm

end Delivered

/-! ### What the conversion makes of them -/

/-- The mark that something said is, as noted by the parser. -/
def Mention.mark? : Mention → Option Attributes
  | mark a => some a
  | _ => none

/-- The footnote that something said is, as noted by the parser. -/
def Mention.note? : Mention → Option Attributes
  | note a => some a
  | _ => none

/-- The marks on a page, in order. -/
def marksOf (elements : List Element) : List Attributes :=
  (mentionsAll elements).filterMap Mention.mark?

/-- The footnotes on a page, in order. -/
def notesOf (elements : List Element) : List Attributes :=
  (mentionsAll elements).filterMap Mention.note?

/-- A fence leaves no trace, or that of a place. -/
theorem trace?_fenceNode (a : Attributes) :
    (fenceNode a).trace? = none ∨ ∃ target text, (fenceNode a).trace? = some
    (.place target text) := by
  have hraw (target text : String) : (Node.raw target text).trace? = none ∨
      ∃ t s, (Node.raw target text).trace? = some (.place t s) := by
    rw [trace?]
    split
    · exact .inr ⟨_, _, rfl⟩
    · exact .inl rfl
  simp only [fenceNode]
  split
  · exact hraw _ _
  · split
    · exact hraw _ _
    · exact .inl rfl
  · exact .inl rfl

theorem Mention.trace?_bind_mark? (m : Mention) :
    m.trace?.bind Trace.mark? = m.mark?.map Attributes.footnoteName := by
  cases m with
  | fence a => rcases trace?_fenceNode a with h | ⟨_, _, h⟩ <;> rw [Mention.trace?, h] <;> rfl
  | _ => rfl

theorem Mention.trace?_bind_note? (m : Mention) :
    m.trace?.bind Trace.note? = m.note?.map Attributes.footnoteName := by
  cases m with
  | fence a => rcases trace?_fenceNode a with h | ⟨_, _, h⟩ <;> rw [Mention.trace?, h] <;> rfl
  | _ => rfl

theorem Mention.trace?_ne_generated (m : Mention) : m.trace? ≠ some .generated := by
  cases m with
  | fence a => rcases trace?_fenceNode a with h | ⟨_, _, h⟩ <;> rw [Mention.trace?, h] <;> nofun
  | _ => nofun

variable {page : String} {elements : List Element} {nodes : List Node}

/-- The marks in the tree of a page are those of its syntax tree, under their names. -/
theorem marks_documentTree (h : documentTree page elements = .ok nodes) :
    (partsAll nodes).filterMap Node.mark? = (marksOf elements).map Attributes.footnoteName := by
  have htraces := congrArg (List.filterMap Trace.mark?) (traces_documentTree h)
  simpa only [traces, List.filterMap_filterMap, Node.trace?_bind_mark?, Mention.trace?_bind_mark?,
    ← List.map_filterMap, marksOf] using htraces

/-- The footnotes in the tree of a page are those of its syntax tree, under their names. -/
theorem notes_documentTree (h : documentTree page elements = .ok nodes) :
    (Node.document nodes).footnotes.keys = (notesOf elements).map Attributes.footnoteName := by
  have hplain : ∀ n ∈ partsAll nodes, n.isGenerated = false := by
    refine fun n hn => isGenerated_eq_false fun htrace => ?_
    have hmem : Trace.generated ∈ traces nodes := List.mem_filterMap.mpr ⟨n, hn, htrace⟩
    rw [traces_documentTree h] at hmem
    obtain ⟨m, -, hm⟩ := List.mem_filterMap.mp hmem
    exact m.trace?_ne_generated hm
  have htraces := congrArg (List.filterMap Trace.note?) (traces_documentTree h)
  simp only [traces, List.filterMap_filterMap, Node.trace?_bind_note?, Mention.trace?_bind_note?,
    ← List.map_filterMap] at htraces
  rw [footnotes, searchFootnotes, searchFootnotesAll_eq nodes hplain]
  exact htraces

theorem length_footnotes (h : documentTree page elements = .ok nodes) :
    (notesOf elements).length = (Node.document nodes).footnotes.length := by
  simpa [Table.keys] using (congrArg List.length (notes_documentTree h)).symm

/-- Each footnote of the tree has the name of the one that it comes from. -/
theorem name_of_mem_zip {p : Attributes × String × List Node}
    (h : documentTree page elements = .ok nodes)
    (hp : p ∈ (notesOf elements).zip (Node.document nodes).footnotes) :
    p.2.1 = p.1.footnoteName := by
  have hlength := length_footnotes h
  have hnames : ((notesOf elements).zip (Node.document nodes).footnotes).map (fun p => p.2.1) =
      ((notesOf elements).zip (Node.document nodes).footnotes).map fun p => p.1.footnoteName := by
    calc _ = ((notesOf elements).zip (Node.document nodes).footnotes).unzip.2.map Prod.fst := by
          rw [List.unzip_snd, List.map_map]
          rfl
      _ = (Node.document nodes).footnotes.keys := by
          rw [List.unzip_zip_right hlength.ge]
          rfl
      _ = (notesOf elements).map Attributes.footnoteName := notes_documentTree h
      _ = ((notesOf elements).zip (Node.document nodes).footnotes).unzip.1.map
            Attributes.footnoteName := by
          rw [List.unzip_zip_left hlength.le]
      _ = _ := by
          rw [List.unzip_fst, List.map_map]
          rfl
  exact List.map_inj_left.mp hnames p hp

/-- Marks and footnotes keep their order and are found by name. A mark has the name of the footnotes
that it meets, which are its own one and, with a label against a number, ones of other numbers. It
is written with the text of the last of them. -/
theorem mark_finds_last_met (h : documentTree page elements = .ok nodes)
    (hdelivered : Delivered (marksOf elements) (notesOf elements)) :
    let tree := Node.document nodes
    (partsAll nodes).filterMap Node.mark? = (marksOf elements).map Attributes.footnoteName ∧
      tree.footnotes.keys = (notesOf elements).map Attributes.footnoteName ∧
      (∀ m ∈ marksOf elements, ∀ a ∈ notesOf elements,
        (m.footnoteName = a.footnoteName ↔ m.Meets a) ∧
          (m.Spells a ∨ a.Spells m → m.number? ≠ a.number?)) ∧
      ∀ before last after, (notesOf elements).zip tree.footnotes = before ++ last :: after →
        ∀ m ∈ marksOf elements, m.Meets last.1 → (∀ later ∈ after, ¬m.Meets later.1) →
          (tree.collectFootnotes []).get? m.footnoteName = some last.2.2 := by
  intro tree
  have hkeys := notes_documentTree h
  refine ⟨marks_documentTree h, hkeys, fun m hm a ha =>
    ⟨hdelivered.mark_footnoteName_eq_iff hm ha, hdelivered.mark_number?_ne_of_spells hm ha⟩, ?_⟩
  intro before last after hsplit m hm hlast hafter
  have hlength : (notesOf elements).length = tree.footnotes.length := length_footnotes h
  have hfootnotes : tree.footnotes = before.map Prod.snd ++ last.2 :: after.map Prod.snd := by
    rw [← List.map_snd_zip hlength.ge, hsplit, List.map_append, List.map_cons]
  have hmem (p : Attributes × String × List Node) (hp : p = last ∨ p ∈ after) :
      p ∈ (notesOf elements).zip tree.footnotes := by
    rw [hsplit]
    exact List.mem_append_right _ (List.mem_cons.mpr hp)
  have hname (p : Attributes × String × List Node) (hp : p = last ∨ p ∈ after) :
      m.footnoteName = p.2.1 ↔ m.Meets p.1 := by
    rw [name_of_mem_zip h (hmem p hp)]
    exact hdelivered.mark_footnoteName_eq_iff hm (List.of_mem_zip (hmem p hp)).1
  rw [(hname last (.inl rfl)).mpr hlast]
  refine Table.get?_foldl_put_of_split hfootnotes (fun x hx => ?_) []
  obtain ⟨later, hlater, rfl⟩ := List.mem_map.mp hx
  rw [← (hname last (.inl rfl)).mpr hlast]
  exact fun heq => hafter later hlater ((hname later (.inr hlater)).mp heq.symm)

/-- What the parser notes of a footnote or a mark. -/
def sampleNoted (number : Int) (label : Value) : Attributes :=
  ⟨"", "", "", [], [(.text "id", .scalar (.int number)), (.text "label", label)]⟩

/-- A paragraph of inline elements. -/
def sampleParagraph (cs : List Element) : Element :=
  .mk .paragraph ⟨"", "", "", [], []⟩ [.mk .inline ⟨"", "", "", [], []⟩ cs]

/-- A text. -/
def sampleText (s : String) : Element := .mk .text ⟨"", s, "", [], []⟩ []

/-- The syntax tree of a page with a footnote of the label `1` and a footnote in the text, whose
number is 1. -/
def spelledSample : List Element := [
  sampleParagraph [
    .mk .footnoteMark (sampleNoted 0 (.text "1")) [], .mk .footnoteMark (sampleNoted 1 .null) []],
  .mk .footnoteBlock ⟨"", "", "", [], []⟩ [
    .mk .other (sampleNoted 0 (.text "1")) [sampleParagraph [sampleText "First."]],
    .mk .other (sampleNoted 1 .null) [sampleParagraph [sampleText "Second."]]]]

/-- The nodes of this syntax tree. -/
def spelledNodes : List Node := [
  .paragraph [.footnoteMark "1", .footnoteMark "1"],
  .footnote "1" [.paragraph [.text "First."]], .footnote "1" [.paragraph [.text "Second."]]]

/-- The parser may deliver a page like this. -/
theorem delivered_spelledSample : Delivered (marksOf spelledSample) (notesOf spelledSample) where
  numbered := by
    have hlabelled : (sampleNoted 0 (.text "1")).IsNumbered :=
      ⟨rfl, fun v hv => .inr ⟨"1", (Option.some.inj hv).symm⟩⟩
    have hplain : (sampleNoted 1 .null).IsNumbered :=
      ⟨rfl, fun v hv => .inl (Option.some.inj hv).symm⟩
    intro a ha
    change a ∈ [sampleNoted 0 (.text "1"), sampleNoted 1 .null, sampleNoted 0 (.text "1"),
      sampleNoted 1 .null] at ha
    simp only [List.mem_cons, List.not_mem_nil, or_false] at ha
    rcases ha with rfl | rfl | rfl | rfl <;> assumption
  numbers := by decide
  labels := by decide
  refers := by decide

theorem mark_finds_last_met_spelledSample :
    documentTree "notes.md" spelledSample = .ok spelledNodes ∧
      Delivered (marksOf spelledSample) (notesOf spelledSample) ∧
      ((Node.document spelledNodes).collectFootnotes []).get?
        (sampleNoted 1 .null).footnoteName = some [.paragraph [.text "Second."]] := by
  have htree : documentTree "notes.md" spelledSample = .ok spelledNodes := rfl
  have hfinds := (mark_finds_last_met htree delivered_spelledSample).2.2.2
  exact ⟨htree, delivered_spelledSample, hfinds
    [(sampleNoted 0 (.text "1"), "1", [.paragraph [.text "First."]])]
    (sampleNoted 1 .null, "1", [.paragraph [.text "Second."]]) [] rfl _
    (List.mem_cons_of_mem _ List.mem_cons_self) (.inl rfl) nofun⟩

/-- A mark and a footnote of different numbers have one name, and the mark is written with the text
of this footnote. -/
theorem mark_misses_its_footnote :
    Delivered (marksOf spelledSample) (notesOf spelledSample) ∧
      documentTree "notes.md" spelledSample = .ok spelledNodes ∧
      sampleNoted 0 (.text "1") ∈ marksOf spelledSample ∧
      sampleNoted 1 .null ∈ notesOf spelledSample ∧
      (sampleNoted 0 (.text "1")).number? ≠ (sampleNoted 1 .null).number? ∧
      (sampleNoted 0 (.text "1")).footnoteName = (sampleNoted 1 .null).footnoteName ∧
      ((Node.document spelledNodes).collectFootnotes []).get?
        (sampleNoted 0 (.text "1")).footnoteName = some [.paragraph [.text "Second."]] :=
  ⟨delivered_spelledSample, rfl, List.mem_cons_self, List.mem_cons_of_mem _ List.mem_cons_self,
    by decide, rfl, rfl⟩

end Markdown

end Folio
