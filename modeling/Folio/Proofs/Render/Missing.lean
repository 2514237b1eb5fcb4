import Folio.Listing
import Folio.Proofs.Node.Parts
import Folio.Proofs.Node.Tidy
import Folio.Proofs.Render.Links

/-!
# Footnotes that are reported missing

A mark without a footnote on its page is reported, and a marker is written in its place. Nothing
else is reported like this, however deep footnotes are nested, and the marker is written nowhere
else unless somebody wrote its text. In a phrase every mark without a footnote is reported.
-/

namespace Folio

open Draft

/-- What is written before the name of a missing footnote. -/
def missingMarker : String := "#footnote[Missing footnote: "

/-- Whether a text is not the start of the marker. -/
def Diverges (s : String) : Prop := ¬s.toList <+: missingMarker.toList

instance (s : String) : Decidable (Diverges s) := inferInstanceAs (Decidable (¬_))

namespace Diverges

variable {s : String}

/-- What differs from the marker within its length differs with any text behind it. -/
theorem append (h : Diverges s) (t : String) : Diverges (s ++ t) := by
  rw [Diverges, String.toList_append]
  exact fun hprefix => h ((List.prefix_append ..).trans hprefix)

/-- A text that differs from the marker is not the marker. -/
theorem ne (h : Diverges s) : s ≠ missingMarker := by
  rintro rfl
  exact h (List.prefix_refl _)

/-- Blanks in front do not lead back to the marker. -/
theorem indented (h : Diverges s) (n : Nat) : Diverges (Text.repeated n "  " ++ s) := by
  cases n with
  | zero => exact (String.empty_append (s := s)).symm ▸ h
  | succ n => exact ((by decide : Diverges "  ").append _).append _

end Diverges

/-- Whether a node gives no reason for a report but an expected one: a mark has a footnote or is one
of the expected marks, and the marker does not stand in it as a text unless that is expected. -/
def Node.Excused (notes : Footnotes) (expected : String → Prop) (verbatim : Prop) : Node → Prop
  | footnoteMark id => notes.get? id = none → expected id
  | raw _ content | codeBlock content _ => content = missingMarker → verbatim
  | _ => True

/-- Every report of a missing footnote is expected on its page, and the marker is written only with
a report, unless its text was written by somebody. -/
structure Draft.Misses (expected : String → String → Prop) (verbatim : Prop) (d : Draft) :
    Prop where
  reported : ∀ id page, .missingFootnote id page ∈ d.notices → expected page id
  marked : .markup missingMarker ∈ d.pieces →
    (∃ id page, .missingFootnote id page ∈ d.notices) ∨ verbatim

namespace Draft.Misses

variable {expected : String → String → Prop} {verbatim : Prop} {a b : Draft} {s : String}

/-- A draft that neither reports nor writes the marker misses nothing. -/
theorem quiet (hnotices : ∀ id page, .missingFootnote id page ∉ a.notices)
    (hpieces : .markup missingMarker ∉ a.pieces) : Misses expected verbatim a where
  reported := fun id page h => absurd h (hnotices id page)
  marked := fun h => absurd h hpieces

theorem empty : Misses expected verbatim empty := quiet nofun nofun

theorem stop (f : Fault) : Misses expected verbatim (stop f) := quiet nofun nofun

/-- The marker may be written as a text of somebody. -/
theorem given (h : s = missingMarker → verbatim) :
    Misses expected verbatim (Draft.markup s) where
  reported := nofun
  marked := fun hmem => .inr (h (Piece.markup.inj (List.mem_singleton.mp hmem)).symm)

/-- Markup that is not the marker misses nothing. -/
theorem markup (h : s ≠ missingMarker := by decide) :
    Misses expected verbatim (Draft.markup s) := given fun heq => absurd heq h

/-- A piece that is no markup is not the marker. -/
theorem piece {p : Piece} (h : p ≠ .markup missingMarker) :
    Misses expected verbatim (ofPiece p) :=
  quiet nofun fun hmem => h (List.mem_singleton.mp hmem).symm

/-- A label that is set is not the marker. -/
theorem anchor (id : LabelId) : Misses expected verbatim (ofPiece (.anchor id)) := piece nofun

theorem link (target : Target) : Misses expected verbatim (ofPiece (.link target)) :=
  piece nofun

theorem literal (t : String) : Misses expected verbatim (literal t) := piece nofun

theorem prose (t : String) : Misses expected verbatim (prose t) := piece nofun

/-- What drafts in sequence miss is what either part misses. -/
theorem both (ha : Misses expected verbatim a) (hb : Misses expected verbatim b) :
    Misses expected verbatim (a >> b) := by
  cases hfault : a.fault with
  | some f =>
    rw [seq_of_fault hfault]
    exact ha
  | none =>
    refine ⟨fun id page h => (mem_notices_seq h).elim (ha.reported id page) (hb.reported id page),
      fun h => ?_⟩
    rw [notices_seq hfault]
    rcases mem_pieces_seq h with h | h
    · exact (ha.marked h).imp_left fun ⟨id, page, hid⟩ => ⟨id, page, List.mem_append_left _ hid⟩
    · exact (hb.marked h).imp_left fun ⟨id, page, hid⟩ => ⟨id, page, List.mem_append_right _ hid⟩

/-- The marker is not written by what stands in front. -/
theorem behind (hb : Misses expected verbatim b) (h : s ≠ missingMarker := by decide) :
    Misses expected verbatim (Draft.markup s >> b) := (markup h).both hb

/-- The marker is not written by what follows. -/
theorem before (ha : Misses expected verbatim a) (h : s ≠ missingMarker := by decide) :
    Misses expected verbatim (a >> Draft.markup s) := ha.both (markup h)

/-- What is left out misses nothing. -/
theorem when (ha : Misses expected verbatim a) (condition : Bool) :
    Misses expected verbatim (when condition a) := by
  cases condition with
  | false => exact empty
  | true => exact ha

/-- What is missed is the same for every result that is there. -/
theorem ofExcept {α : Type} {e : Except Fault α} {next : α → Draft}
    (h : ∀ x, Misses expected verbatim (next x)) :
    Misses expected verbatim (ofExcept e next) := by
  cases e with
  | ok x => exact h x
  | error f => exact stop f

/-- Looking at an image reports an image only. -/
theorem imageCheck (r : Renderer) (on destination : String) (isLocal : Bool) :
    Misses expected verbatim (imageCheck r on destination isLocal) := by
  have hremote (address : String) :
      Misses expected verbatim (notice (.remoteImage on address)) :=
    quiet (fun _ _ h => nomatch List.mem_singleton.mp h) nofun
  have hmissing (path : String) : Misses expected verbatim (notice (.missingImage path on)) :=
    quiet (fun _ _ h => nomatch List.mem_singleton.mp h) nofun
  simp only [Folio.imageCheck]
  split
  · exact empty
  · split
    · exact hremote _
    · split
      · exact empty
      · exact ofExcept fun found => (hmissing _).when _

end Draft.Misses

/-! ### What is reported -/

section Nodes

variable (r : Renderer) {expand : Context → List Node → Draft} {page : String} {notes : Footnotes}
  {expected : String → String → Prop} {verbatim : Prop}

/-- The surroundings on a page with certain footnotes. -/
structure Context.IsOn (c : Context) (page : String) (notes : Footnotes) : Prop where
  page : c.page = page
  notes : c.notes = notes

/-- A block is on the page that it stands on. -/
theorem Context.IsOn.block {c : Context} (h : c.IsOn page notes) :
    c.block.IsOn page notes := ⟨h.1, h.2⟩

/-- The marker of an item differs from that of a footnote at its bullet or number. -/
theorem Diverges.listMarker (depth : Nat) (ordered : Bool) :
    Diverges (listMarker depth ordered) := by
  rw [Folio.listMarker]
  refine indented ?_ depth
  split <;> decide

/-- Whether a step does not write the marker itself. -/
def Step.IsUnmarked (verbatim : Prop) : Step → Prop
  | markup s => s = missingMarker → verbatim
  | _ => True

/-- Markup that differs from the marker is unmarked. -/
theorem Diverges.isUnmarked {s : String} (h : Diverges s) : Step.IsUnmarked verbatim (.markup s) :=
  fun heq => absurd heq h.ne

/-- No step of a node but that of a footnote mark writes the marker, unless verbatim code is the
marker. -/
theorem Passage.isUnmarked_of_mem_node_steps {wanted : String → Prop} (c : Context) (n : Node)
    (h : n.Excused notes wanted verbatim) : ∀ s ∈ n.steps c, s.IsUnmarked verbatim := by
  cases n with
  | heading level cs given =>
    have hopening := ((by decide : Diverges "#heading(level: ").append
      (toString (headingLevel c level))).append ", ["
    exact List.forall_mem_cons.mpr ⟨hopening.isUnmarked, by simp [Step.IsUnmarked]⟩
  | paragraph cs =>
    rw [Node.steps]
    split <;> simp [Step.IsUnmarked, missingMarker]
  | admonition category caption cs =>
    have hopening (kind : String) : Diverges ("#admonition(type: \"" ++ kind ++ "\", title: ") :=
      ((by decide : Diverges "#admonition(type: \"").append _).append _
    exact List.forall_mem_cons.mpr
      ⟨(hopening _).isUnmarked, by simp [Step.IsUnmarked, missingMarker]⟩
  | table columns rows =>
    have hopening (widths alignments : String) : Diverges ("#align(center)[\n#table(\ncolumns: (" ++
        widths ++ "),\nalign: (x, y) => (" ++ alignments ++ ",).at(x),\n") := by
      simp only [String.append_assoc]
      exact (by decide : Diverges "#align(center)[\n#table(\ncolumns: (").append _
    exact List.forall_mem_cons.mpr
      ⟨(hopening _ _).isUnmarked, by simp [Step.IsUnmarked, missingMarker]⟩
  | raw target content =>
    have hcontent : Step.IsUnmarked verbatim (.markup content) := h
    rw [Node.steps]
    split
    · simpa [Step.IsUnmarked, missingMarker] using hcontent
    · simp
  | binding name category bodies owner =>
    have hopening : Diverges ((if category = "" then "" else " -- " ++ category ++ ".") ++
        "\n\n#grid(columns: (2em, 1fr), [], [\n") := by
      split
      · decide
      · exact (((by decide : Diverges " -- ").append _).append _).append _
    have hfront : ∀ s ∈ Step.codeInline name, s.IsUnmarked verbatim := by
      simp [Step.codeInline, Step.IsUnmarked, missingMarker]
    rw [Node.steps]
    simp only [List.forall_mem_append, List.forall_mem_cons]
    exact ⟨hfront, by simp [Step.IsUnmarked, missingMarker], trivial, hopening.isUnmarked,
      by simp [Step.IsUnmarked, missingMarker]⟩
  | index | contents | link =>
    rw [Node.steps]
    split <;> simp [Step.IsUnmarked, missingMarker]
  | _ => simp [Node.steps, Step.codeInline, Step.IsUnmarked, missingMarker]

/-- A rule writes the marker itself only where somebody wrote its text. -/
theorem Passage.isUnmarked_of_mem_steps {wanted : String → Prop} (t : Passage)
    (h : ∀ n ∈ t.nodes, n.Excused notes wanted verbatim) :
      ∀ s ∈ t.steps, s.IsUnmarked verbatim := by
  cases t with
  | node c n => exact isUnmarked_of_mem_node_steps c n (h n (List.mem_singleton_self n))
  | all c ns => cases ns <;> simp [steps, Step.IsUnmarked]
  | top c ns =>
    cases ns with
    | nil => simp [steps]
    | cons n rest =>
      rw [steps]
      split <;> simp [Step.IsUnmarked, missingMarker]
  | items c depth ordered ns =>
    cases ns with
    | nil => simp [steps]
    | cons n rest =>
      exact List.forall_mem_cons.mpr
        ⟨(Diverges.listMarker depth ordered).isUnmarked, by simp [Step.IsUnmarked]⟩
  | item c depth n =>
    rw [steps]
    cases n.contents? with
    | none => simp [Step.IsUnmarked]
    | some cs => cases cs <;> simp [Step.IsUnmarked, missingMarker]
  | parts c depth further ns =>
    have hindent : Diverges (Text.repeated (depth + 1) "  ") := (by decide : Diverges "  ").append _
    cases ns with
    | nil => simp [steps]
    | cons n rest =>
      cases n with
      | list ordered items => simp [steps, Step.IsUnmarked, missingMarker]
      | _ =>
        refine List.forall_mem_append.mpr ⟨?_, by simp [Step.IsUnmarked]⟩
        cases further with
        | false => simp
        | true => exact List.forall_mem_singleton.mpr hindent.isUnmarked
  | bodies c ns =>
    cases ns with
    | nil => simp [steps]
    | cons n rest =>
      cases n with
      | body tree url =>
        have hsource : ∀ s ∈ Step.source c tree url, s.IsUnmarked verbatim := by
          cases url with
          | none => simp [Step.source]
          | some url =>
            rw [Step.source]
            split <;> simp [Step.IsUnmarked, missingMarker]
        rw [steps, List.forall_mem_append, List.forall_mem_append]
        exact ⟨⟨by simp [Step.IsUnmarked, missingMarker], hsource⟩, by simp [Step.IsUnmarked]⟩
      | _ => simp [steps, Step.IsUnmarked, missingMarker]
  | contentsOf c n =>
    rw [steps]
    cases n.contents? <;> simp [Step.IsUnmarked]
  | index c ns =>
    cases ns with
    | nil => simp [steps]
    | cons n rest =>
      cases n <;> simp [steps, Step.codeInline, Step.IsUnmarked, missingMarker]
  | contents c minLevel depth ns =>
    cases ns with
    | nil => simp [steps]
    | cons n rest =>
      have hbullets (level : Nat) : ∀ s ∈ Step.bullets depth level, s.IsUnmarked verbatim := by
        rw [Step.bullets, List.forall_mem_map]
        exact fun missing _ => ((by decide : Diverges "-\n").indented _).isUnmarked
      have hindent (drawn : Nat) : Diverges (Text.repeated drawn "  " ++ "- ") :=
        (by decide : Diverges "- ").indented _
      cases n with
      | contentsEntry page label level cs =>
        rw [steps]
        split
        · simp [Step.IsUnmarked]
        · rw [List.forall_mem_append, List.forall_mem_cons]
          exact ⟨hbullets _, (hindent _).isUnmarked, by simp [Step.IsUnmarked, missingMarker]⟩
      | heading level cs given =>
        rw [steps]
        split
        · simp [Step.IsUnmarked]
        · exact List.forall_mem_append.mpr ⟨hbullets _, by simp [Step.IsUnmarked]⟩
      | _ => simp [steps, Step.IsUnmarked]

theorem Draft.Misses.closed : Closed (Misses expected verbatim) where
  empty := .empty
  seq := .both

variable
  (hnotes : ∀ id cs, notes.get? id = some cs →
    ∀ n ∈ Node.partsAll cs, n.Excused notes (expected page) verbatim)
  (hexpand : ∀ c : Context, c.IsOn page notes → ∀ cs,
    (∀ n ∈ Node.partsAll cs, n.Excused notes (expected page) verbatim) →
      Misses expected verbatim (expand c cs))

include hnotes hexpand

/-- A step for excused nodes reports expected footnotes only. -/
theorem Step.draft_misses {t : Passage} (hc : t.context.IsOn page notes)
    (ht : ∀ n ∈ t.nodes, n.Excused notes (expected page) verbatim) (s : Step) (hs : s.IsOf t)
    (hunmarked : s.IsUnmarked verbatim)
    (hpassages : ∀ t' ∈ s.passages, Misses expected verbatim (t'.draft r expand)) :
    Misses expected verbatim (s.draft r expand) := by
  cases s with
  | markup s => exact .given hunmarked
  | prose s => exact .prose s
  | literal s => exact .literal s
  | anchor page name => exact .anchor _
  | stop f => exact .stop f
  | title c h =>
    rw [draft]
    split
    · exact .markup
    · exact Misses.behind ((Misses.anchor _).both .markup)
  | code s info =>
    rw [draft, codeBlock]
    split
    · exact (Misses.before (.given (ht _ hs))).behind
    · exact ((Misses.literal s).before
        (((by decide : Diverges ", block: true, lang: \"").append _).append _).ne).behind
  | image page destination isLocal => exact .imageCheck ..
  | refer c n => exact .ofExcept fun target => .link target
  | link c n text =>
    have htext := hpassages text (List.mem_singleton_self text)
    exact .ofExcept fun target => (Misses.link _).both htext.before.behind
  | mark c id =>
    rw [draft, hs.1, hc.notes, hc.page]
    cases hnote : notes.get? id with
    | none =>
      -- Report and marker come together here, and nowhere else.
      have hreport : Misses expected verbatim (notice (.missingFootnote id page) >>
          (Draft.markup missingMarker >> Draft.prose id >> Draft.markup "]")) := by
        refine ⟨fun other on hmem => ?_, fun _ => .inl ⟨id, page, List.mem_cons_self⟩⟩
        obtain ⟨rfl, rfl⟩ := Notice.missingFootnote.inj (List.mem_singleton.mp hmem)
        exact ht _ hs.2 hnote
      exact hreport
    | some cs =>
      exact (hexpand t.context.block hc.block (footnoteText cs) fun n hn =>
        hnotes id cs hnote n (Node.partsAll_footnoteText_subset cs hn)).before.behind
  | passage t' => exact hpassages t' (List.mem_singleton_self t')

/-- Whatever is written for nodes whose parts are excused reports expected footnotes only. -/
theorem Passage.draft_misses (t : Passage) (hc : t.context.IsOn page notes)
    (ht : ∀ n ∈ Node.partsAll t.nodes, n.Excused notes (expected page) verbatim) :
    Misses expected verbatim (t.draft r expand) := by
  refine keeps Misses.closed (fun t => t.context.IsOn page notes ∧
      ∀ n ∈ Node.partsAll t.nodes, n.Excused notes (expected page) verbatim)
    (fun t t' h ht' => ?_) (fun t h s hs => ?_) t ⟨hc, ht⟩
  · have hands := hands_of_mem_within ht'
    exact ⟨⟨hands.context.page.trans h.1.page, hands.context.notes.trans h.1.notes⟩,
      fun n hn => h.2 n (hands.partsAll_subset hn)⟩
  · have hnodes : ∀ n ∈ t.nodes, n.Excused notes (expected page) verbatim := fun n hn =>
      h.2 n (Node.mem_partsAll.mpr ⟨n, hn, n.self_mem_parts⟩)
    exact Step.draft_misses r hnotes hexpand h.1 hnodes s (isOf_steps t s hs)
      (isUnmarked_of_mem_steps t hnodes s hs)

end Nodes

/-- Nodes whose parts are excused report expected footnotes only, at any depth of footnotes. -/
theorem Renderer.draftUpTo_misses (r : Renderer) {page : String} {notes : Footnotes}
    {expected : String → String → Prop} {verbatim : Prop}
    (hnotes : ∀ id cs, notes.get? id = some cs →
      ∀ n ∈ Node.partsAll cs, n.Excused notes (expected page) verbatim) (depth : Nat) (c : Context)
    (hc : c.IsOn page notes) (nodes : List Node)
    (h : ∀ n ∈ Node.partsAll nodes, n.Excused notes (expected page) verbatim) :
    Misses expected verbatim (r.draftUpTo depth c nodes) := by
  induction depth generalizing c nodes with
  | zero => exact .stop _
  | succ depth ih => exact Passage.draft_misses r hnotes ih (.all c nodes) hc h

/-! ### What is sure to be reported -/

namespace Draft

/-- A draft without a fault reports a footnote missing on a page. -/
def Reports (page id : String) (d : Draft) : Prop :=
  d.fault = none → .missingFootnote id page ∈ d.notices

namespace Reports

variable {page id : String} {a b : Draft}

/-- What the first of two drafts reports is reported. -/
theorem front (ha : Reports page id a) (b : Draft) : Reports page id (a >> b) := by
  intro h
  rw [fault_seq_eq_none] at h
  rw [notices_seq h.1]
  exact List.mem_append_left _ (ha h.1)

/-- What the second of two drafts reports is reported. -/
theorem back (hb : Reports page id b) (a : Draft) : Reports page id (a >> b) := by
  intro h
  rw [fault_seq_eq_none] at h
  rw [notices_seq h.1]
  exact List.mem_append_right _ (hb h.2)

/-- A report that follows from any result is made, or writing stops in front of it. -/
theorem ofExcept {α : Type} {e : Except Fault α} {next : α → Draft}
    (h : ∀ x, Reports page id (next x)) : Reports page id (ofExcept e next) := by
  cases e with
  | ok x => exact h x
  | error f => exact nofun

end Reports

end Draft

/-- Nodes at page level report what each of them does. -/
theorem draftTop_reports (r : Renderer) (expand : Context → List Node → Draft) (c : Context)
    {page id : String} {n : Node} {ns : List Node} (hn : n ∈ ns)
    (h : Reports page id (draftNode r expand c n)) :
    Reports page id (draftTop r expand c ns) := by
  induction ns with
  | nil => cases hn
  | cons first rest ih =>
    rw [draftTop]
    rcases List.mem_cons.mp hn with rfl | hn
    · refine Reports.front ?_ _
      split
      · exact h
      · exact (h.front _).back _
    · exact (ih hn).back _

section Phrases

variable {r : Renderer} {expand : Context → List Node → Draft} {page id : String}
  {notes : Footnotes}

/-- Steps report what one of them does. -/
theorem Draft.Reports.of_mem {s : Step} {ss : List Step} (hs : s ∈ ss)
    (h : Reports page id (s.draft r expand)) : Reports page id (ofSteps r expand ss) := by
  induction ss with
  | nil => cases hs
  | cons first rest ih =>
    rcases List.mem_cons.mp hs with rfl | hs
    · exact h.front _
    · exact (ih hs).back _

/-- A step reports what a passage that it hands on does. -/
theorem Step.draft_reports {s : Step} {t : Passage} (ht : t ∈ s.passages)
    (h : Reports page id (t.draft r expand)) : Reports page id (s.draft r expand) := by
  cases s with
  | passage text =>
    obtain rfl := List.mem_singleton.mp ht
    exact h
  | link c n text =>
    obtain rfl := List.mem_singleton.mp ht
    exact .ofExcept fun target => ((h.front _).back _).back _
  | _ => cases ht

namespace Passage

/-- Whether a passage is a phrase. -/
def IsPhrase : Passage → Prop
  | node _ n => ∀ m ∈ n.walk, m.isInline
  | all _ ns => Node.IsPhrase ns
  | _ => False

/-- A phrase with a mark takes the step of the mark or hands on a phrase with the mark. -/
theorem exists_step_of_mark {t : Passage} (ht : t.IsPhrase)
    (hmark : .footnoteMark id ∈ Node.walkAll t.nodes) :
    ∃ s ∈ t.steps, s = .mark t.context id ∨
      ∃ t' ∈ s.passages, t'.IsPhrase ∧ .footnoteMark id ∈ Node.walkAll t'.nodes := by
  have hands {c : Context} {s : Step} {ns : List Node} (hs : s ∈ t.steps)
      (hpassages : s.passages = [all c ns]) (hns : Node.IsPhrase ns)
      (hmem : .footnoteMark id ∈ Node.walkAll ns) :
      ∃ s ∈ t.steps, s = .mark t.context id ∨
        ∃ t' ∈ s.passages, t'.IsPhrase ∧ .footnoteMark id ∈ Node.walkAll t'.nodes :=
    ⟨s, hs, .inr ⟨all c ns, hpassages ▸ List.mem_singleton_self _, hns, hmem⟩⟩
  cases t with
  | all c ns =>
    cases ns with
    | nil => cases hmark
    | cons n rest =>
      obtain ⟨hn, hrest⟩ := List.forall_mem_append.mp ht
      rcases List.mem_append.mp hmark with hmem | hmem
      · exact ⟨.passage (node c n), List.mem_cons_self, .inr ⟨_, List.mem_singleton_self _, hn,
          List.mem_append_left _ hmem⟩⟩
      · exact hands (List.mem_cons_of_mem _ List.mem_cons_self) rfl hrest hmem
  | node c n =>
    have hwalk : .footnoteMark id ∈ n.walk := by
      simpa only [nodes, Node.walkAll, List.append_nil] using hmark
    cases n with
    | strong cs | emph cs =>
      rcases hwalk with _ | ⟨_, hmem⟩
      exact hands (List.mem_cons_of_mem _ List.mem_cons_self) rfl
        (List.forall_mem_cons.mp ht).2 hmem
    | pageLink place fragment cs =>
      rcases hwalk with _ | ⟨_, hmem⟩
      exact hands List.mem_cons_self rfl (List.forall_mem_cons.mp ht).2 hmem
    | link destination cs =>
      have hcs := (List.forall_mem_cons.mp ht).2
      rcases hwalk with _ | ⟨_, hmem⟩
      cases hin : c.inHeading with
      | true =>
        exact hands (s := .passage (all c cs)) (by simp [steps, Node.steps, hin]) rfl hcs hmem
      | false =>
        exact hands (s := .link c (.link destination cs) (all c cs))
          (by simp [steps, Node.steps, hin]) rfl hcs hmem
    | image destination cs isLocal =>
      rcases hwalk with _ | ⟨_, hmem⟩
      exact hands (s := .passage (all c.block cs)) (by simp [steps, Node.steps]) rfl
        (List.forall_mem_cons.mp ht).2 hmem
    | footnoteMark other =>
      obtain rfl : id = other := Node.footnoteMark.inj (List.mem_singleton.mp hwalk)
      exact ⟨_, List.mem_cons_self, .inl rfl⟩
    | text | code | math | lineBreak | softBreak => cases List.mem_singleton.mp hwalk
    | _ => cases ht _ List.mem_cons_self
  | _ => cases ht

/-- A phrase reports every mark in it that has no footnote. -/
theorem draft_reports (hid : notes.get? id = none) {t : Passage} (hc : t.context.IsOn page notes)
    (ht : t.IsPhrase) (hmark : .footnoteMark id ∈ Node.walkAll t.nodes) :
    Reports page id (t.draft r expand) := by
  induction t with
  | rule t ih =>
    obtain ⟨s, hs, hstep⟩ := exists_step_of_mark ht hmark
    rw [draft_eq]
    refine .of_mem hs ?_
    rcases hstep with rfl | ⟨t', ht', hphrase, hmem⟩
    · rw [Step.draft, hc.notes, hc.page, hid]
      exact fun _ => List.mem_cons_self
    · have hwithin : t' ∈ t.within := List.mem_flatMap.mpr ⟨s, hs, ht'⟩
      have hcontext := (hands_of_mem_within hwithin).context
      exact Step.draft_reports ht' (ih t' hwithin
        ⟨hcontext.page.trans hc.page, hcontext.notes.trans hc.notes⟩ hphrase hmem)

end Passage

/-- A table of contents whose entries are phrases reports every mark without a footnote in an entry
that is not left out. -/
theorem draftContents_reports (hid : notes.get? id = none) {c : Context} (hc : c.IsOn page notes)
    {minLevel : Int} {lines : List ContentsLine} (hlevel : ∀ l ∈ lines, minLevel ≤ l.heading.level)
    (hphrase : ∀ l ∈ lines, Node.IsPhrase l.heading.children)
    (hmark : ∃ l ∈ lines, .footnoteMark id ∈ Node.walkAll l.heading.children) (depth : Nat) :
    Reports page id (draftContents r expand c minLevel depth (lines.map fun l =>
      .contentsEntry l.page l.heading.label l.heading.level l.heading.children)) := by
  induction lines generalizing depth with
  | nil => exact absurd hmark (by simp)
  | cons line rest ih =>
    obtain ⟨hline, hrest⟩ := List.forall_mem_cons.mp hlevel
    obtain ⟨hphrase, hphrases⟩ := List.forall_mem_cons.mp hphrase
    have hdrawn : (line.heading.level - minLevel + 1).toNat ≠ 0 := by omega
    rw [List.map_cons, draftContents, if_neg hdrawn]
    obtain ⟨l, hl, hmark⟩ := hmark
    rcases List.mem_cons.mp hl with rfl | hl
    · have hentry : Reports page id (draftAll r expand c l.heading.children) :=
        Passage.draft_reports hid (t := .all c _) hc hphrase hmark
      exact ((((hentry.front _).back _).back _).back _).back _
    · exact ((((((ih hrest hphrases ⟨l, hl, hmark⟩ _).back _).back _).back _).back _).back _).back _

end Phrases

/-- No level is below the smallest one. -/
theorem smallestLevel_le {level : Int} {levels : List Int} (h : level ∈ levels) :
    smallestLevel levels ≤ level := by
  induction levels with
  | nil => cases h
  | cons first rest ih =>
    cases rest with
    | nil => exact Int.le_of_eq (List.mem_singleton.mp h).symm
    | cons second others =>
      change min first (smallestLevel (second :: others)) ≤ level
      rcases List.mem_cons.mp h with rfl | h
      · exact Int.min_le_left ..
      · exact Int.le_trans (Int.min_le_right ..) (ih h)

end Folio
