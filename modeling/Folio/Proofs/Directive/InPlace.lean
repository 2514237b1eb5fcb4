import Folio.Directive.InPlace
import Folio.Proofs.Directive.Expand
import Folio.Proofs.Render.InPlace

/-!
# Hand-written pages do not influence each other

Expanding a page in place comes to the expansion of the page by itself: the text or the fault is
that of its draft, and the session behind it holds the footnotes of the page, and what was written
before, whatever the pages before it have left. So in a row of pages each has the outcome that it
has alone, also behind pages that cannot be expanded.
-/

namespace Folio

open Draft Text Directive

/-- The text of a draft, or the fault that ended it. -/
def Draft.outcome (d : Draft) : Except Fault String :=
  match d.fault with
  | none => .ok d.text
  | some f => .error f

namespace Writing

/-- What a step of writing gives, or the fault that it ends with. -/
def outcome {α : Type} (w : Writing α) (s : Session) : Except Fault α :=
  match w s with
  | .ok x _ => .ok x
  | .error f _ => .error f

variable {k : Collaborators} {r : Renderer} {page : String} {names : List String}
  {notes : Footnotes} {s : Session} {a d : Draft}

/-- A draft with a fault is spelled up to the notices in front of it. -/
theorem spelled_of_fault {f : Fault} (h : d.fault = some f) (s : Session) :
    spelled d s = .error f { s with notices := s.notices ++ d.notices } := by
  rw [spelled, h]

/-- A draft without a fault is spelled as its text. -/
theorem spelled_of_fault_eq_none (h : d.fault = none) (s : Session) :
    spelled d s = .ok d.text { s with notices := s.notices ++ d.notices } := by
  rw [spelled, h]

/-- Steps that come to the same do so under a function. -/
theorem map_congr {f : String → String} {v w : Writing String} {t : Session} (h : v s = w t) :
    (f <$> v) s = (f <$> w) t := by
  change EStateM.map f v s = EStateM.map f w t
  rw [EStateM.map, EStateM.map, h]

/-- A draft without notices leaves those of the session. -/
theorem notices_of_quiet (h : d.notices = []) (s : Session) :
    { s with notices := s.notices ++ d.notices } = s := by
  rw [h, List.append_nil]

theorem spelled_empty (s : Session) : spelled empty s = .ok "" s := by
  rw [spelled_of_fault_eq_none rfl, notices_of_quiet rfl]
  rfl

theorem spelled_text (text : String) (s : Session) : spelled (markup text) s = .ok text s := by
  rw [spelled_of_fault_eq_none rfl, notices_of_quiet rfl, markup, text_ofPiece]
  rfl

/-- What follows a draft without a fault is spelled out behind its text. -/
theorem spelled_seq (h : a.fault = none) (d : Draft) (s : Session) :
    spelled (a >> d) s =
      ((a.text ++ ·) <$> spelled d) { s with notices := s.notices ++ a.notices } := by
  change _ = EStateM.map (a.text ++ ·) (spelled d) _
  have hnotices : s.notices ++ (a >> d).notices = s.notices ++ a.notices ++ d.notices := by
    rw [notices_seq h, List.append_assoc]
  cases hd : d.fault with
  | none =>
    rw [spelled_of_fault_eq_none (fault_seq_eq_none.mpr ⟨h, hd⟩), EStateM.map,
      spelled_of_fault_eq_none hd, text_seq h, hnotices]
  | some f =>
    have hseq : (a >> d).fault = some f := (fault_seq h d).trans hd
    rw [spelled_of_fault hseq, EStateM.map, spelled_of_fault hd, hnotices]

/-- Text in front of a draft is text in front of what it is spelled as. -/
theorem spelled_markup (text : String) (d : Draft) (s : Session) :
    spelled (markup text >> d) s = ((text ++ ·) <$> spelled d) s := by
  rw [spelled_seq rfl, notices_of_quiet rfl, markup, text_ofPiece]
  rfl

/-- What reports only is spelled out together with what follows. -/
theorem emit_spelled {w : Writing String} (ha : a.pieces = [])
    (hw : w (s.add a) = spelled d (s.add a)) : (do emit a; w) s = spelled (a >> d) s := by
  change EStateM.bind (emit a) (fun _ => w) s = _
  have hadd : s.add a = { s with notices := s.notices ++ a.notices } := by
    rw [Session.add, ha, List.append_nil]
  cases hfault : a.fault with
  | some f =>
    rw [seq_of_fault hfault, spelled_of_fault hfault, ← hadd, EStateM.bind, emit, hfault]
  | none =>
    have hsilent : ((a.text ++ ·) : String → String) = id := by
      funext text
      rw [Draft.text, ha]
      exact String.empty_append
    rw [EStateM.bind, emit, hfault, spelled_seq hfault, hsilent, id_map, ← hadd]
    exact hw

/-- The documentation of a binding that is written apart is spelled out, but for the line feed
behind it. -/
theorem fragment_binding (name category page : String) (bodies : List Node) (s : Session) :
    (do
      let text ← renderFragment [.binding name category bodies page]
      return String.ofList (dropEndWhile (· = '\n') text.toList)) s =
    spelled (s.renderer.binding s.context ⟨name, category, bodies, page⟩) s := by
  have hnodes : s.nodes [.binding name category bodies page] =
      s.renderer.binding s.context ⟨name, category, bodies, page⟩ >> markup "\n" >> empty := by
    rw [Session.nodes, Renderer.nodes, draftAll, draftNode, ← seq_assoc]
    rfl
  change EStateM.bind (renderFragment [.binding name category bodies page]) _ s = _
  rw [EStateM.bind, renderFragment_eq]
  cases hfault : (s.renderer.binding s.context ⟨name, category, bodies, page⟩).fault with
  | some f =>
    rw [hnodes, seq_of_fault hfault, hfault, spelled_of_fault hfault]
  | none =>
    obtain ⟨hshown, htext⟩ := Expander.binding_eq hfault
    have hnotices : (s.nodes [.binding name category bodies page]).notices =
        (s.renderer.binding s.context ⟨name, category, bodies, page⟩).notices := by
      rw [hnodes, notices_seq hfault]
      exact List.append_nil _
    rw [show (s.nodes [.binding name category bodies page]).fault = none from hshown, hnotices,
      spelled_of_fault_eq_none hfault, htext]
    rfl

/-- On a page with certain footnotes, a step comes to an expansion: its text or its fault, and the
footnotes that it has met. -/
def Expands (r : Renderer) (page : String) (notes : Footnotes) (w : Writing String)
    (e : Expansion) : Prop :=
  ∀ s : Session, s.renderer = r → s.context = Context.atPage page 1 notes →
    w s = spelled e.draft { s with context := Context.atPage page 1 e.notes }

/-- A segment is expanded in place as it is drafted. -/
theorem segment_expands (s : Segment) :
    Expands r page notes (segment k page names s)
      ((k.expander r).segment page names notes s) := by
  rintro t rfl ht
  have hsame : { t with context := Context.atPage page 1 notes } = t := by rw [← ht]
  cases s with
  | sample lines closed | plain line =>
    change spelled _ t = spelled _ { t with context := Context.atPage page 1 notes }
    rw [hsame]
    rfl
  | comment line =>
    change EStateM.Result.ok line t =
      spelled (markup line) { t with context := Context.atPage page 1 notes }
    rw [hsame, spelled_text]
  | docs name =>
    have hlookup : (k.expander t.renderer).lookup.find? name = k.lookup.find? name := rfl
    change documentation k page name t = _
    simp only [documentation, Expander.segment, hlookup]
    cases hfound : k.lookup.find? name with
    | none => rw [hsame]
    | some found =>
      let n := Node.binding name found.category found.bodies page
      have hcollected : t.collectFootnotes n =
          { t with context := Context.atPage page 1 (n.collectFootnotes notes) } := by
        rw [Session.collectFootnotes, ht]
        rfl
      change (do
        emit (searched n)
        let text ← renderFragment [n]
        return String.ofList (dropEndWhile (· = '\n') text.toList)) (t.collectFootnotes n) = _
      rw [hcollected]
      refine emit_spelled ?_ (fragment_binding ..)
      rw [searched]
      split <;> rfl

/-- No segment is left out. -/
theorem segments_ne_nil {u : Segment} {ss : List Segment} {texts : List String} {t : Session}
    (h : segments k page names (u :: ss) s = .ok texts t) : texts ≠ [] := by
  change EStateM.bind (segment k page names u) (fun text =>
    EStateM.bind (segments k page names ss) fun texts => pure (text :: texts)) s = _ at h
  cases hfirst : segment k page names u s with
  | error f v => simp only [EStateM.bind, hfirst] at h; cases h
  | ok text v =>
    cases hrest : segments k page names ss v with
    | error f v => simp only [EStateM.bind, hfirst, hrest] at h; cases h
    | ok others v =>
      simp only [EStateM.bind, hfirst, hrest] at h
      cases h
      exact List.cons_ne_nil _ _

/-- Behind a segment that could be expanded, the others are put together from there on. -/
theorem map_segments_cons {u v : Segment} {ss : List Segment} {text : String} {t : Session}
    (h : segment k page names u s = .ok text t) :
    (joinWith "\n" <$> segments k page names (u :: v :: ss)) s =
      ((text ++ ·) <$> ("\n" ++ ·) <$> joinWith "\n" <$> segments k page names (v :: ss)) t := by
  change EStateM.map _ (fun s => EStateM.bind (segment k page names u) (fun text =>
    EStateM.bind (segments k page names (v :: ss)) fun texts => pure (text :: texts)) s) s =
    EStateM.map _ (EStateM.map _ (EStateM.map _ _)) t
  simp only [EStateM.map, EStateM.bind, h]
  cases hrest : segments k page names (v :: ss) t with
  | error f u => rfl
  | ok texts u =>
    obtain ⟨w, others, rfl⟩ := List.exists_cons_of_ne_nil (segments_ne_nil hrest)
    change EStateM.Result.ok (text ++ "\n" ++ joinWith "\n" (w :: others)) u = _
    rw [String.append_assoc]

/-- Segments are put together as they are expanded, up to the first that cannot be. -/
theorem segments_expands (ss : List Segment) :
    Expands r page notes (joinWith "\n" <$> segments k page names ss)
      ((k.expander r).segments page names notes ss) := by
  induction ss generalizing notes with
  | nil =>
    rintro s rfl hs
    change EStateM.Result.ok "" s = spelled empty { s with context := Context.atPage page 1 notes }
    rw [← hs]
    exact (spelled_empty s).symm
  | cons u rest ih =>
    rintro s rfl hs
    have hfirst : segment k page names u s = _ := segment_expands u s rfl hs
    cases hfault : ((k.expander s.renderer).segment page names notes u).draft.fault with
    | some f =>
      change EStateM.map _ (fun s => EStateM.bind (segment k page names u) _ s) s = _
      rw [Expander.segments_of_fault (by simp [hfault]), spelled_of_fault hfault]
      rw [spelled_of_fault hfault] at hfirst
      simp only [EStateM.map, EStateM.bind, hfirst]
    | none =>
      rw [spelled_of_fault_eq_none hfault] at hfirst
      -- The last segment has no line feed behind it.
      cases rest with
      | nil =>
        change EStateM.map _ (fun s => EStateM.bind (segment k page names u) _ s) s = _
        rw [Expander.segments, spelled_of_fault_eq_none hfault]
        simp only [EStateM.map, EStateM.bind, hfirst]
        rfl
      | cons v rest =>
        rw [map_segments_cons hfirst, Expander.draft_segments_cons, spelled_seq hfault,
          Expander.notes_segments_cons hfault]
        let first := (k.expander s.renderer).segment page names notes u
        let t : Session := { s with
          context := Context.atPage page 1 first.notes
          notices := s.notices ++ first.draft.notices }
        have hothers := ih t rfl rfl
        exact (map_congr (map_congr hothers)).trans (map_congr (spelled_markup ..)).symm

/-- Text behind a draft, which goes missing with what goes before it. -/
theorem spelled_when (d : Draft) (condition : Bool) (text : String) (s : Session) :
    spelled (d >> when condition (markup text)) s =
      ((· ++ if condition then text else "") <$> spelled d) s := by
  change _ = EStateM.map _ (spelled d) s
  cases hfault : d.fault with
  | some f => rw [seq_of_fault hfault, EStateM.map, spelled_of_fault hfault]
  | none =>
    rw [spelled_seq hfault, EStateM.map, spelled_of_fault_eq_none hfault]
    change EStateM.map _ (spelled _) _ = _
    cases condition with
    | false =>
      rw [EStateM.map, when, if_neg Bool.false_ne_true, spelled_empty]
      rfl
    | true =>
      rw [EStateM.map, when, if_pos rfl, spelled_text]
      rfl

/-- A page is expanded in place as it is by itself, whatever the pages before it have left. -/
theorem expandPage_eq (k : Collaborators) (page text : String) (hdocs : s.context.inDocs = false) :
    ∃ c : Context, c.inDocs = false ∧
      expandPage k page text s =
        spelled ((k.expander s.renderer).expand page text).draft { s with context := c } := by
  have hstarted : (s.startPage page 1).context = Context.atPage page 1 [] := by
    simp only [Session.startPage, hdocs]
    rfl
  refine ⟨Context.atPage page 1 ((k.expander s.renderer).expand page text).notes, rfl, ?_⟩
  rw [Expander.expand, spelled_when]
  refine Eq.trans ?_ (map_congr (segments_expands (Segment.ofLines (lines text))
    (s.startPage page 1) rfl hstarted))
  change EStateM.bind (segments k page _ _) _ (s.startPage page 1) =
    EStateM.map _ (EStateM.map _ (segments k page _ _)) (s.startPage page 1)
  simp only [EStateM.bind, EStateM.map]
  cases segments k page ((lines text).filterMap documented?) (Segment.ofLines (lines text))
      (s.startPage page 1) with
  | ok texts t => rfl
  | error f t => rfl

/-- A page has the outcome of its draft, and leaves a session in which the next page can be started:
the renderer and what was written before are as they were. -/
theorem expandPage_leaves (k : Collaborators) (page text : String)
    (hdocs : s.context.inDocs = false) :
    outcome (expandPage k page text) s =
        ((k.expander s.renderer).expand page text).draft.outcome ∧
      (after (expandPage k page text) s).renderer = s.renderer ∧
      (after (expandPage k page text) s).context.inDocs = false ∧
      (after (expandPage k page text) s).written = s.written := by
  obtain ⟨c, hc, hpage⟩ := expandPage_eq k page text hdocs
  rw [outcome, after, hpage]
  cases hfault : ((k.expander s.renderer).expand page text).draft.fault with
  | some f =>
    rw [spelled_of_fault hfault, Draft.outcome, hfault]
    exact ⟨rfl, rfl, hc, rfl⟩
  | none =>
    rw [spelled_of_fault_eq_none hfault, Draft.outcome, hfault]
    exact ⟨rfl, rfl, hc, rfl⟩

/-- Files are expanded in order, each with the session that the one in front leaves. -/
theorem expandEach_cons (text : String) (rest : List (String × String)) (s : Session) :
    expandEach k ((page, text) :: rest) s =
      (outcome (expandPage k page text) s ::
          (expandEach k rest (after (expandPage k page text) s)).1,
        (expandEach k rest (after (expandPage k page text) s)).2) := by
  rw [expandEach, outcome, after]
  cases expandPage k page text s with
  | ok expanded t => rfl
  | error f t => rfl

/-- Every file is expanded as it is drafted, and the session writes no text of it. -/
theorem expandEach_eq (k : Collaborators) (files : List (String × String))
    (hdocs : s.context.inDocs = false) :
    (expandEach k files s).1 =
        files.map (fun file => ((k.expander s.renderer).expand file.1 file.2).draft.outcome) ∧
      (expandEach k files s).2.written = s.written := by
  induction files generalizing s with
  | nil => exact ⟨rfl, rfl⟩
  | cons file rest ih =>
    obtain ⟨page, text⟩ := file
    obtain ⟨houtcome, hrenderer, hmark, hwritten⟩ := expandPage_leaves k page text hdocs
    obtain ⟨houtcomes, hothers⟩ := ih hmark
    rw [expandEach_cons, List.map_cons]
    exact ⟨by rw [houtcome, houtcomes, hrenderer], hothers.trans hwritten⟩

/-- In a row of pages that are expanded with one session, each has the outcome that it has alone in
a fresh session, which is that of its draft, also behind pages that cannot be expanded, and none of
them changes what is written. -/
theorem expandEach_alone (k : Collaborators) {s : Session} (hdocs : s.context.inDocs = false)
    (files : List (String × String)) :
    (expandEach k files s).1 =
        files.map (fun file => outcome (expandPage k file.1 file.2) (.fresh s.renderer)) ∧
      (expandEach k files s).1 =
        files.map (fun file => ((k.expander s.renderer).expand file.1 file.2).draft.outcome) ∧
      ∀ n, (expandEach k (files.take n) s).2.written = s.written := by
  have halone (file : String × String) :
      outcome (expandPage k file.1 file.2) (.fresh s.renderer) =
        ((k.expander s.renderer).expand file.1 file.2).draft.outcome :=
    (expandPage_leaves k file.1 file.2 rfl).1
  obtain ⟨houtcomes, -⟩ := expandEach_eq k files hdocs
  refine ⟨?_, houtcomes, fun n => (expandEach_eq k (files.take n) hdocs).2⟩
  simp only [houtcomes, halone]

/-- Who knows two bindings: the documentation of the first has a footnote, and, inside a quote, a
link to a fragment that no page has; that of the second refers to a footnote it does not have. -/
def brokenDocs : Collaborators where
  lookup
    | "first" => some ⟨"function", [.body (.document [
        .footnote "n" [.paragraph [.text "a note"]],
        .quote [.paragraph [.pageLink "guide.md" "nowhere" [.text "there"]]]]) none]⟩
    | "second" => some ⟨"", [.body (.document [.paragraph [.footnoteMark "n"]]) none]⟩
    | _ => none
  evaluator _ := .returned "" (.scalar .null)
  language := "python"

/-- A session of a strict book that holds a text already. -/
def strictSession : Session where
  renderer := ⟨Labels.ofPages "" true [], fun _ => none, none⟩
  context := { Context.atPage "old.md" 5 [("n", [.text "old"])] with inBlock := true }
  written := [.markup "#outline()\n"]

/-- Pages of which the first cannot be expanded. -/
def rawPages : List (String × String) := [
  ("first.typ", "= First\n// @typst-docs first\n"),
  ("second.typ", "// @typst-docs second\nsee @typst-ref(Second)\n")]

/-- The second of two raw pages is expanded as with a session of its own, although the first one
fails. -/
theorem expandEach_alone_rawPages :
    strictSession.context.inDocs = false ∧
      (expandEach brokenDocs rawPages strictSession).1 =
        rawPages.map (fun file =>
          outcome (expandPage brokenDocs file.1 file.2) (.fresh strictSession.renderer)) ∧
      (expandEach brokenDocs rawPages strictSession).1.map (·.isOk) = [false, true] ∧
      (expandEach brokenDocs (rawPages.take 1) strictSession).2.written =
        strictSession.written := by
  have hdocs : strictSession.context.inDocs = false := by rfl
  obtain ⟨halone, hdrafts, hwritten⟩ := expandEach_alone brokenDocs hdocs rawPages
  refine ⟨hdocs, halone, ?_, hwritten 1⟩
  rw [hdrafts]
  decide +kernel

end Writing

end Folio
