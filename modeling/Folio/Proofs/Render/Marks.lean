import Folio.Proofs.Render.Faults
import Mathlib.Data.List.Forall2

/-!
# Marks that a node asks for

Writing a node asks for the text of a footnote at each of its marks, and for nothing else that is
not in the node. How the writing ends therefore depends on two things only: on how the texts of
these footnotes end, and on whether the node stands in a heading, where links are not followed. The
other way round, nothing is written to its end unless the texts of all its marks are.
-/

namespace Folio

open Draft

namespace Node

mutual

/-- The names of the footnotes that writing a node asks for, in order. -/
def marks : Node → List String
  | .list _ items => marksItems items
  | .document cs | .heading _ cs _ | .paragraph cs | .listItem cs | .quote cs | .admonition _ _ cs
  | .table _ cs | .tableRow cs | .tableCell cs | .strong cs | .emph cs | .link _ cs
  | .pageLink _ _ cs | .image _ cs _ => marksAll cs
  | .binding _ _ bodies _ => marksBodies bodies
  | .contents entries minLevel => marksEntries minLevel entries
  | .footnoteMark id => [id]
  | _ => []

/-- The names of the footnotes that writing nodes asks for, in order. -/
def marksAll : List Node → List String
  | [] => []
  | node :: rest => node.marks ++ marksAll rest

/-- The names of the footnotes that writing the items of a list asks for. -/
def marksItems : List Node → List String
  | [] => []
  | item :: rest => marksContents item ++ marksItems rest

/-- The names of the footnotes that writing documentation bodies asks for. -/
def marksBodies : List Node → List String
  | [] => []
  | .body tree _ :: rest => marksContents tree ++ marksBodies rest
  | _ :: _ => []

/-- The names of the footnotes that writing the contents of a node asks for. -/
def marksContents : Node → List String
  | .document cs | .heading _ cs _ | .paragraph cs | .listItem cs | .quote cs
  | .admonition _ _ cs | .tableCell cs | .footnote _ cs | .contentsEntry _ _ _ cs | .strong cs
  | .emph cs | .link _ cs | .pageLink _ _ cs | .image _ cs _ => marksAll cs
  | _ => []

/-- The names of the footnotes that writing a table of contents from the smallest level on asks
for. -/
def marksEntries (minLevel : Int) : List Node → List String
  | [] => []
  | .contentsEntry _ _ level cs :: rest =>
    (if (level - minLevel + 1).toNat = 0 then [] else marksAll cs) ++ marksEntries minLevel rest
  | _ :: rest => marksEntries minLevel rest

end

end Node

/-- A relation that looks only at how drafts end, and only at those that end without a fault or give
up on a circle of footnotes. -/
structure Draft.OfEnds (rel : Draft → Draft → Prop) : Prop where
  plain : ∀ {d d'}, d.fault = none → d'.fault = none → rel d d'
  stop : ∀ {d d' f}, d.fault = some f → f ≠ .circularFootnote → rel d d'
  seq : ∀ {a a' b b'}, rel a a' → rel b b' → rel (a >> b) (a' >> b')

/-- Two ways of writing the text of a footnote in some surroundings, and what is to be compared. -/
structure Comparison where
  first : Context → List Node → Draft
  second : Context → List Node → Draft
  outside : Context
  rel : Draft → Draft → Prop

namespace Comparison

variable (w : Comparison)

/-- Whether the texts of some footnotes compare, wherever they are asked for. -/
def Compares (ids : List String) : Prop :=
  ∀ id ∈ ids, ∀ cs, w.outside.notes.get? id = some cs → ∀ c c', w.outside.Within c → c.Within c' →
    w.rel (w.first c (footnoteText cs)) (w.second c' (footnoteText cs))

/-- Two drafts that compare if the texts of the footnotes they ask for do; and the first one does
not end without a fault unless each of these texts does. -/
structure Follows (ids : List String) (d d' : Draft) : Prop where
  compares : w.Compares ids → w.rel d d'
  complete : d.fault = none → ∀ id ∈ ids, ∀ cs, w.outside.notes.get? id = some cs →
    ∃ c, w.outside.Within c ∧ (w.first c (footnoteText cs)).fault = none

variable {w}

namespace Follows

variable (h : OfEnds w.rel) {ids others : List String} {a a' b b' d d' : Draft} {f : Fault}

include h

/-- Nothing is asked for by drafts that are there from the start. -/
theorem plain (hd : d.fault = none := by rfl) (hd' : d'.fault = none := by rfl) :
    w.Follows [] d d' := ⟨fun _ => h.plain hd hd', fun _ _ hid => nomatch hid⟩

/-- After a fault of its own a draft asks for nothing. -/
theorem stop (hd : d.fault = some f) (hf : f ≠ .circularFootnote) : w.Follows ids d d' where
  compares := fun _ => h.stop hd hf
  complete := fun hnone => by
    rw [hd] at hnone
    cases hnone

omit h in
/-- A draft with a fault asks for whatever it may have asked for. -/
theorem stopped (hd : w.Follows [] d d') (hfault : d.fault ≠ none) : w.Follows ids d d' where
  compares := fun _ => hd.compares nofun
  complete := fun hnone => absurd hnone hfault

/-- Drafts in sequence follow each other if both parts do. -/
theorem both (ha : w.Follows ids a a') (hb : w.Follows others b b') :
    w.Follows (ids ++ others) (a >> b) (a' >> b') where
  compares := fun hcompares => by
    obtain ⟨hids, hothers⟩ := List.forall_mem_append.mp hcompares
    exact h.seq (ha.compares hids) (hb.compares hothers)
  complete := fun hnone => by
    obtain ⟨hfa, hfb⟩ := fault_seq_eq_none.mp hnone
    exact List.forall_mem_append.mpr ⟨ha.complete hfa, hb.complete hfb⟩

/-- Nothing is asked for by what stands in front. -/
theorem behind (hb : w.Follows ids b b') (ha : a.fault = none := by rfl)
    (ha' : a'.fault = none := by rfl) : w.Follows ids (a >> b) (a' >> b') :=
  both h (plain h ha ha') hb

/-- Nothing is asked for by what follows. -/
theorem before (ha : w.Follows ids a a') (hb : b.fault = none := by rfl)
    (hb' : b'.fault = none := by rfl) : w.Follows ids (a >> b) (a' >> b') := by
  simpa only [List.append_nil] using both h ha (plain h hb hb')

/-- A draft that does not depend on the footnotes at all. -/
theorem own (hd : d.FaultsIn Fault.IsReported) : w.Follows [] d d where
  compares := fun _ => by
    cases hfault : d.fault with
    | none => exact h.plain hfault hfault
    | some f => exact h.stop hfault (hd f hfault).ne_circularFootnote
  complete := fun _ _ hid => nomatch hid

/-- The second draft may do without what stands around the first one. -/
theorem inside (ha : w.Follows ids a a') (hd : d.fault = none := by rfl)
    (hb : b.fault = none := by rfl) : w.Follows ids (d >> a >> b) a' := by
  have haround : w.Follows ids (d >> a >> b) (empty >> a' >> empty) :=
    behind h (before h ha hb) hd
  have hempty : (empty >> a' >> empty) = a' := by
    change empty.andThen (fun _ => a'.andThen fun _ => empty) = a'
    rw [empty_andThen, andThen_empty]
  rwa [hempty] at haround

/-- What follows for every result follows for one that is looked up. -/
theorem ofExcept {α : Type} {e : Except Fault α} {next next' : α → Draft}
    (he : ∀ f, e = .error f → f.IsReported) (hnext : ∀ x, w.Follows ids (next x) (next' x)) :
    w.Follows ids (ofExcept e next) (ofExcept e next') := by
  cases e with
  | ok x => exact hnext x
  | error f => exact stop h rfl (he f rfl).ne_circularFootnote

omit h in
/-- The text of a footnote at its mark. -/
theorem mark {id : String} {cs : List Node} {c c' : Context}
    (hnote : w.outside.notes.get? id = some cs) (hc : w.outside.Within c) (hc' : c.Within c') :
    w.Follows [id] (w.first c (footnoteText cs)) (w.second c' (footnoteText cs)) where
  compares := fun hcompares => hcompares id List.mem_cons_self cs hnote c c' hc hc'
  complete := fun hnone other hother others hothers => by
    rw [List.mem_singleton.mp hother, hnote] at hothers
    cases hothers
    exact ⟨c, hc, hnone⟩

end Follows

end Comparison

/-! ### What a passage asks for -/

/-- The names of the footnotes that writing a passage asks for, in order. -/
def Passage.marks : Passage → List String
  | node _ n => n.marks
  | all _ ns | top _ ns | parts _ _ _ ns => Node.marksAll ns
  | items _ _ _ ns => Node.marksItems ns
  | item _ _ n | contentsOf _ n => n.marksContents
  | bodies _ ns => Node.marksBodies ns
  | index .. => []
  | contents _ minLevel _ ns => Node.marksEntries minLevel ns

/-- The names of the footnotes that a step asks for. -/
def Step.marks : Step → List String
  | mark _ id => [id]
  | link _ _ t | passage t => t.marks
  | _ => []

/-- The marks in the contents of a node are those of what it holds. -/
theorem Node.marksContents_eq (n : Node) :
    n.marksContents = match n.contents? with
      | some cs => marksAll cs
      | none => [] := by
  cases n <;> rfl

/-- The link to a source has no marks. -/
theorem Step.marks_source (c : Context) (tree : Node) (url : Option String) :
    (source c tree url).flatMap marks = [] := by
  rw [List.flatMap_eq_nil_iff]
  exact all_source (fun _ => rfl) fun _ _ => rfl

/-- The marks in a node are those of its steps. -/
theorem Passage.marks_node (c : Context) (n : Node) : n.marks = (n.steps c).flatMap Step.marks := by
  cases n with
  | raw | link =>
    rw [Node.steps]
    split <;> simp [Step.marks, Node.marks, Passage.marks]
  | index entries =>
    rw [Node.steps]
    split <;> simp [Step.marks, Node.marks, Passage.marks]
  | contents entries minLevel =>
    rw [Node.steps]
    split
    · next hempty => simp [List.isEmpty_iff.mp hempty, Step.marks, Node.marks, Node.marksEntries]
    · simp [Step.marks, Node.marks, Passage.marks]
  | _ => simp [Node.steps, Step.codeInline, Step.marks, Node.marks, Passage.marks]

/-- The marks of passages and steps are put together as the rules are. -/
theorem Passage.gathers_marks : Gathers marks Step.marks where
  handed _ := rfl
  markup _ := rfl
  literal _ := rfl
  stop _ := rfl
  nil t h := by
    cases t with
    | node | item | contentsOf => cases h
    | _ =>
      obtain rfl := h
      rfl
  consAll _ _ _ := rfl
  consTop _ _ _ := rfl
  consItems _ _ _ _ _ := rfl
  ofItem c depth n cs hcs := by
    change n.marksContents = Node.marksAll cs
    rw [Node.marksContents_eq, hcs]
  consList _ _ _ _ _ _ := rfl
  consParts _ _ _ _ _ := rfl
  consBodies c tree url rest := by
    rw [Step.marks_source]
    rfl
  ofContents c n cs hcs := by
    change n.marksContents = Node.marksAll cs
    rw [Node.marksContents_eq, hcs]
  consIndex _ _ _ _ _ := rfl
  consEntry c minLevel depth page label level cs rest := by
    change Node.marksEntries minLevel (.contentsEntry page label level cs :: rest) = _
    rw [Node.marksEntries]
    split <;> rfl
  consHeading _ _ _ _ _ _ _ := rfl

/-- Writing asks for what the steps ask for, unless it stops. -/
theorem Passage.marks_eq (t : Passage) : t.marks = t.steps.flatMap Step.marks ∨
    t.steps.flatMap Step.marks = [] ∧ ∃ f, .stop f ∈ t.steps := by
  refine gathers_marks.eq_or_stops ?_
  rintro c n rfl
  exact marks_node c n

/-! ### The same passage in other surroundings -/

/-- The same nodes in other surroundings. -/
def Passage.moved (e : Context) : Passage → Passage
  | node _ n => node e n
  | all _ ns => all e ns
  | top _ ns => top e ns
  | items _ depth ordered ns => items e depth ordered ns
  | item _ depth n => item e depth n
  | parts _ depth further ns => parts e depth further ns
  | bodies _ ns => bodies e ns
  | contentsOf _ n => contentsOf e n
  | index _ ns => index e ns
  | contents _ minLevel depth ns => contents e minLevel depth ns

/-- Whether two steps are for the same nodes in surroundings of which the second are within the
first. If only the second stands in a heading, the text of a link is written alone. -/
def Step.Meets : Step → Step → Prop
  | stop f, s => s = stop f ∧ f ≠ .circularFootnote
  | image page destination isLocal, s => s = image page destination isLocal
  | passage t, passage t' | link _ _ t, passage t' =>
    t.context.Within t'.context ∧ t' = t.moved t'.context
  | link c n t, link e n' t' =>
    e.page = c.page ∧ n' = n ∧ t.context.Within t'.context ∧ t' = t.moved t'.context
  | refer c n, refer e n' => e.page = c.page ∧ n' = n
  | mark c id, mark e id' => c.Within e ∧ id' = id
  | s, s' => s.IsPlain ∧ s'.IsPlain

/-- The steps of a node meet those of the node in other surroundings. -/
theorem Passage.meets_node {c e : Context} (h : c.Within e) (n : Node) :
    List.Forall₂ Step.Meets (n.steps c) (n.steps e) := by
  cases n with
  | raw target s =>
    rw [Node.steps, Node.steps]
    split <;> simp [Step.Meets, Step.IsPlain]
  | index | contents =>
    rw [Node.steps, Node.steps]
    split <;> simp [Step.Meets, Step.IsPlain, context, moved, h]
  | link destination cs =>
    rw [Node.steps, Node.steps]
    by_cases hin : c.inHeading = true
    · simp [hin, h.inHeading hin, h, Step.Meets, context, moved]
    · split <;> split <;> simp_all [h.page, Step.Meets, context, moved]
  | heading level cs given =>
    simpa [Node.steps, Step.Meets, Step.IsPlain, context, moved] using h.heading
  | binding name category bodies owner =>
    simpa [Node.steps, Step.codeInline, Step.Meets, Step.IsPlain, context, moved] using h.docs
  | _ =>
    simp [Node.steps, Step.codeInline, h, h.block, h.page, Step.Meets, Step.IsPlain, context, moved]

/-- A plain step does not depend on the surroundings. -/
theorem Step.meets_self {s : Step} (h : s.IsPlain) : s.Meets s := by
  cases s <;> first | exact ⟨h, h⟩ | cases h

/-- The bullets do not depend on the surroundings. -/
theorem Step.forall₂_meets_bullets (depth level : Nat) :
    List.Forall₂ Meets (bullets depth level) (bullets depth level) :=
  List.forall₂_same.mpr (all_bullets fun _ => meets_self trivial)

/-- The links to a source meet in other surroundings. -/
theorem Step.forall₂_meets_source {c e : Context} (h : c.Within e) (tree : Node)
    (url : Option String) :
    List.Forall₂ Meets (source c tree url) (source e tree url) := by
  cases url with
  | none => exact .nil
  | some url =>
    rw [source, source]
    split <;> simp [Meets, IsPlain, h.page]

/-- In other surroundings the same steps are taken, but that the links of a heading are not
followed. -/
theorem Passage.meets (t : Passage) {e : Context} (h : t.context.Within e) :
    List.Forall₂ Step.Meets t.steps (t.moved e).steps := by
  cases t with
  | node c n => exact meets_node h n
  | all c ns => cases ns <;> simp_all [steps, moved, Step.Meets, context]
  | top c ns =>
    cases ns with
    | nil => simp [steps, moved]
    | cons n rest =>
      rw [moved, steps, steps]
      split <;> simp_all [moved, Step.Meets, Step.IsPlain, context]
  | items c depth ordered ns =>
    cases ns <;> simp_all [steps, moved, Step.Meets, Step.IsPlain, context]
  | item c depth n =>
    have hblock : c.block.Within e.block := Context.Within.block h
    rw [moved, steps, steps]
    cases n.contents? with
    | none => simp [Step.Meets]
    | some cs => cases cs <;> simp [moved, Step.Meets, Step.IsPlain, context, hblock]
  | parts c depth further ns =>
    cases ns with
    | nil => simp [steps, moved]
    | cons n rest =>
      cases n with
      | list ordered items => simp_all [steps, moved, Step.Meets, Step.IsPlain, context]
      | _ => cases further <;> simp_all [steps, moved, Step.Meets, Step.IsPlain, context]
  | bodies c ns =>
    cases ns with
    | nil => simp [steps, moved]
    | cons n rest =>
      cases n with
      | body tree url =>
        rw [moved, steps, steps]
        refine List.rel_append (List.rel_append ?_ (Step.forall₂_meets_source h tree url)) ?_ <;>
          simp_all [moved, Step.Meets, Step.IsPlain, context]
      | _ => simp [steps, moved, Step.Meets, Step.IsPlain]
  | contentsOf c n =>
    rw [moved, steps, steps]
    cases n.contents? <;> simp_all [moved, Step.Meets, context]
  | index c ns =>
    have hpage : e.page = c.page := h.page
    cases ns with
    | nil => simp [steps, moved]
    | cons n rest =>
      cases n <;> simp_all [steps, Step.codeInline, moved, Step.Meets, Step.IsPlain, context]
  | contents c minLevel depth ns =>
    have hpage : e.page = c.page := h.page
    cases ns with
    | nil => simp [steps, moved]
    | cons n rest =>
      cases n with
      | contentsEntry page label level cs =>
        rw [moved, steps, steps]
        split
        · simp_all [moved, Step.Meets, context]
        · refine List.rel_append (Step.forall₂_meets_bullets ..) ?_
          simp_all [moved, Step.Meets, Step.IsPlain, context]
      | heading level cs given =>
        rw [moved, steps, steps]
        split
        · simp_all [moved, Step.Meets, context]
        · refine List.rel_append (Step.forall₂_meets_bullets ..) ?_
          simp [Step.Meets]
      | _ => simp [steps, moved, Step.Meets]

section Follows

open Comparison

variable (r : Renderer) {w : Comparison} (h : OfEnds w.rel)

include h

/-- Steps follow each other if they do so one by one. -/
theorem Comparison.Follows.ofSteps {ss ss' : List Step}
    (hs : List.Forall₂ (fun s s' => w.Follows s.marks (s.draft r w.first) (s'.draft r w.second))
      ss ss') :
    w.Follows (ss.flatMap Step.marks) (Draft.ofSteps r w.first ss)
      (Draft.ofSteps r w.second ss') := by
  induction hs with
  | nil => exact .plain h
  | cons hs _ ih =>
    rw [List.flatMap_cons]
    exact .both h hs ih

/-- A step follows the step that it meets if its passages do. -/
theorem Step.draft_follows {t : Passage} (hc : w.outside.Within t.context) {s s' : Step}
    (hof : s.IsOf t) (hmeets : s.Meets s')
    (hpassages : ∀ t' ∈ s.passages, ∀ e, t'.context.Within e →
      w.Follows t'.marks (t'.draft r w.first) ((t'.moved e).draft r w.second)) :
    w.Follows s.marks (s.draft r w.first) (s'.draft r w.second) := by
  have hself (text : Passage) (htext : text ∈ s.passages) {t' : Passage}
      (ht' : text.context.Within t'.context ∧ t' = text.moved t'.context) :
      w.Follows text.marks (text.draft r w.first) (t'.draft r w.second) := by
    rw [ht'.2]
    exact hpassages text htext _ ht'.1
  cases s with
  | stop f =>
    obtain ⟨rfl, hf⟩ := hmeets
    exact .stop h rfl hf
  | image page destination isLocal =>
    obtain rfl := hmeets
    exact .own h (imageCheck_faultsIn r page destination isLocal)
  | passage text =>
    cases s' with
    | passage t' => exact hself text (List.mem_singleton_self text) hmeets
    | _ => cases hmeets.1
  | link c n text =>
    cases s' with
    | link e n' t' =>
      obtain ⟨hpage, rfl, ht'⟩ := hmeets
      have htext := hself text (List.mem_singleton_self text) ht'
      rw [draft, draft, hpage]
      exact .ofExcept h (fun _ => Node.isReported_of_destination) fun _ =>
        .behind h (.behind h (.before h htext))
    | passage t' =>
      have htext := hself text (List.mem_singleton_self text) hmeets
      rw [draft]
      cases hlink : n.destination r.labels c.page with
      | ok target =>
        rw [Draft.ofExcept, ← seq_assoc]
        exact .inside h htext
      | error f => exact .stop h rfl (Node.isReported_of_destination hlink).ne_circularFootnote
    | _ => cases hmeets.1
  | refer c n =>
    cases s' with
    | refer e n' =>
      obtain ⟨hpage, rfl⟩ := hmeets
      rw [draft, draft, hpage]
      exact .ofExcept h (fun _ => Node.isReported_of_destination) fun _ => .plain h
    | _ => cases hmeets.1
  | mark c id =>
    cases s' with
    | mark e id' =>
      obtain ⟨he, rfl⟩ := hmeets
      rw [draft, draft, he.notes, hof.1, hc.notes]
      cases hnote : w.outside.notes.get? id' with
      | none =>
        refine ⟨fun _ => h.plain rfl rfl, fun _ other hother cs hcs => ?_⟩
        rw [List.mem_singleton.mp hother, hnote] at hcs
        cases hcs
      | some cs =>
        have hin : t.context.Within e := hof.1 ▸ he
        exact .behind h (.before h (.mark hnote ⟨hc.page, hc.notes, hc.inHeading⟩ hin.block))
    | _ => cases hmeets.1
  | _ =>
    exact .plain h (fault_draft_of_isPlain r w.first hmeets.1)
      (fault_draft_of_isPlain r w.second hmeets.2)

/-- Whatever is written asks for the footnotes of its marks, also in surroundings within others. -/
theorem Passage.draft_follows (t : Passage) (hc : w.outside.Within t.context) {e : Context}
    (he : t.context.Within e) :
    w.Follows t.marks (t.draft r w.first) ((t.moved e).draft r w.second) := by
  induction t generalizing e with
  | rule t ih =>
    have hsteps : w.Follows (t.steps.flatMap Step.marks) (Draft.ofSteps r w.first t.steps)
        (Draft.ofSteps r w.second (t.moved e).steps) := by
      refine .ofSteps r h (((List.forall₂_and_left _ _).mpr ⟨fun _ => id, t.meets he⟩).imp ?_)
      rintro s s' ⟨hs, hmeets⟩
      refine Step.draft_follows r h hc (isOf_steps t s hs) hmeets fun t' ht' e' he' => ?_
      have hmem : t' ∈ t.within := List.mem_flatMap.mpr ⟨s, hs, ht'⟩
      exact ih t' hmem (hc.trans (hands_of_mem_within hmem).context) he'
    rw [draft_eq, draft_eq]
    rcases t.marks_eq with hmarks | ⟨hnone, f, hf⟩
    · rw [hmarks]
      exact hsteps
    · rw [hnone] at hsteps
      exact hsteps.stopped (fault_ofSteps_ne_none hf)

/-- Nodes one after the other ask for the footnotes of their marks. -/
theorem draftAll_follows (c c' : Context) (hc : w.outside.Within c) (hc' : c.Within c')
    (ns : List Node) :
    w.Follows (Node.marksAll ns) (draftAll r w.first c ns) (draftAll r w.second c' ns) :=
  Passage.draft_follows r h (.all c ns) hc hc'

/-- Nodes at page level ask for the footnotes of their marks. -/
theorem draftTop_follows (c c' : Context) (hc : w.outside.Within c) (hc' : c.Within c')
    (ns : List Node) :
    w.Follows (Node.marksAll ns) (draftTop r w.first c ns) (draftTop r w.second c' ns) :=
  Passage.draft_follows r h (.top c ns) hc hc'

end Follows

end Folio
