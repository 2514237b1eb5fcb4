import Folio.Proofs.Draft.Sequence
import Folio.Render.InPlace

/-!
# Writing in place leaves the surroundings alone

Writing in place comes to adding the draft of the same nodes: with a fault or without one, the
session holds what it held and the draft behind it, and every mark of the surroundings is what it
was. Each rule of writing is followed by one rule for drafts, so that the two agree on every tree.
-/

namespace Folio

open Draft

namespace Writing

/-- A result whose session is changed at last, whatever the result is. -/
def behind {α : Type} (change : Session → Session) :
    EStateM.Result Fault Session α → EStateM.Result Fault Session α
  | .ok x s => .ok x (change s)
  | .error f s => .error f (change s)

/-- What is done at last is done with a fault and without one. -/
theorem finally_apply {α : Type} (w : Writing α) (change : Session → Session) (s : Session) :
    tryFinally w (modify change : Writing Unit) s = behind change (w s) := by
  have hlast (t : Session) : (modify change : Writing Unit) t = .ok () (change t) := rfl
  change EStateM.map Prod.fst (tryFinally' w fun _ => modify change) s = _
  cases h : w s <;> simp [tryFinally', EStateM.map, h, hlast, behind]

/-- Writing with a mark set comes to writing in other surroundings and setting the mark back. -/
theorem under_apply (mark : Mark) (inside : Writing Unit) (s : Session) :
    under mark inside s =
      behind (fun t => { t with context := mark.set (mark.read s.context) t.context })
        (inside { s with context := mark.set true s.context }) :=
  finally_apply inside _ _

/-- Writing apart comes to writing into an empty session and putting back what was written. -/
theorem apart_apply {α : Type} (inside : Writing α) (s : Session) :
    apart inside s =
      behind (fun t => { t with written := s.written }) (inside { s with written := [] }) :=
  finally_apply inside _ _

variable {c : Context} {v w : Writing Unit} {a b d : Draft}

/-- A draft behind another one that has no fault is added as the two are added at once. -/
theorem emit_add (h : a.fault = none) (b : Draft) (s : Session) :
    emit b (s.add a) = emit (a >> b) s := by
  have hseq : a >> b = ⟨a.pieces ++ b.pieces, a.notices ++ b.notices, b.fault⟩ := by
    change a.andThen (fun _ => b) = _
    rw [andThen, h]
  simp only [emit, Session.add, hseq, List.append_assoc]

/-- In certain surroundings, writing adds a draft to the session and changes nothing else. -/
def Adds (c : Context) (w : Writing Unit) (d : Draft) : Prop :=
  ∀ s : Session, s.context = c → w s = emit d s

namespace Adds

theorem emit (d : Draft) : Adds c (emit d) d := fun _ _ => rfl

/-- Writing nothing adds nothing. -/
theorem nothing : Adds c (pure ()) empty := by
  intro s _
  simp [Writing.emit, empty, Session.add, pure, EStateM.pure]

/-- A fault ends the writing and the draft. -/
theorem stop (f : Fault) : Adds c (throw f) (stop f) := by
  intro s _
  change EStateM.Result.error f s = Writing.emit (.stop f) s
  simp [Writing.emit, Draft.stop, Session.add]

/-- Writing in sequence adds the drafts in sequence. -/
theorem seq (ha : Adds c v a) (hb : Adds c w b) : Adds c (do v; w) (a >> b) := by
  intro s hs
  change EStateM.bind v (fun _ => w) s = Writing.emit (a.andThen fun _ => b) s
  rw [EStateM.bind, ha s hs]
  cases hfault : a.fault with
  | some f => simp [Writing.emit, hfault]
  | none =>
    simp only [Writing.emit, hfault]
    exact (hb (s.add a) hs).trans (emit_add hfault b s)

/-- The surroundings that are looked up are those of the draft. -/
theorem surroundings {w : Context → Writing Unit} (h : Adds c (w c) d) :
    Adds c (do w (← surroundings)) d := by
  intro s hs
  change w s.context s = _
  rw [hs]
  exact h s hs

/-- A result that is missing ends both with its fault. -/
theorem given {α : Type} {e : Except Fault α} {w : α → Writing Unit} {next : α → Draft}
    (h : ∀ x, Adds c (w x) (next x)) : Adds c (do w (← given e)) (ofExcept e next) := by
  cases e with
  | ok x => exact h x
  | error f => exact stop f

/-- A mark that is set inside is set back behind, with a fault and without one. -/
theorem under {mark : Mark} (h : Adds (mark.set true c) w d) : Adds c (under mark w) d := by
  intro s hs
  have hinside := h { s with context := mark.set true s.context } (by rw [hs])
  rw [under_apply, hinside]
  cases hfault : d.fault <;>
    simp only [Writing.emit, hfault, behind, Session.add, mark.set_read]

/-- A list inside another one starts on a new line in both. -/
theorem around (h : Adds c w d) (depth : Nat) : Adds c (around depth w) (listAround depth d) :=
  (emit _).seq (h.seq (emit _))

end Adds

section Nodes

variable (r : Renderer) {within : List Node → Writing Unit}
  {expand : Context → List Node → Draft}

/-- The entries of an index hold no footnotes. -/
theorem indexEntries_adds (c : Context) (ns : List Node) :
    Adds c (indexEntries r within ns) (draftIndex r expand ns) := by
  induction ns with
  | nil =>
    rw [indexEntries, draftIndex]
    exact .nothing
  | cons n rest ih =>
    cases n with
    | indexEntry name page label =>
      exact (Adds.emit _).seq ((Adds.emit _).seq ((Adds.emit _).seq ((Adds.emit _).seq
        ((Adds.emit _).seq ih))))
    | _ => exact .stop _

mutual

/-- Writing a node in place adds its draft. -/
theorem node_adds (hexpand : ∀ c cs, Adds c (within cs) (expand c cs)) :
    (c : Context) → (n : Node) → Adds c (node r within n) (draftNode r expand c n)
  | c, .document cs => by
    rw [node, draftNode]
    exact top_adds hexpand c cs
  | c, .heading level cs anchor => by
    have hcs : Adds c (under .heading (all r within cs))
        (draftAll r expand { c with inHeading := true } cs) :=
      .under (all_adds hexpand (Mark.heading.set true c) cs)
    rw [node, draftNode]
    refine .surroundings ((Adds.emit _).seq (hcs.seq (.surroundings ?_)))
    split <;> exact .emit _
  | c, .paragraph cs => by
    rw [node, draftNode]
    exact (all_adds hexpand c cs).seq (.surroundings (.emit _))
  | c, .list ordered items => by
    rw [node, draftNode]
    exact (listItems_adds hexpand c 0 _ items).around 0
  | c, .listItem cs => by
    rw [node, draftNode]
    exact .under (all_adds hexpand c.block cs)
  | c, .quote cs => by
    rw [node, draftNode]
    exact (Adds.emit _).seq ((Adds.under (all_adds hexpand c.block cs)).seq (.emit _))
  | c, .admonition category title cs => by
    rw [node, draftNode]
    exact (Adds.emit _).seq ((Adds.emit _).seq ((Adds.emit _).seq
      ((Adds.under (all_adds hexpand c.block cs)).seq (.emit _))))
  | c, .table columns rows => by
    rw [node, draftNode]
    exact (Adds.emit _).seq ((Adds.under (all_adds hexpand c.block rows)).seq (.emit _))
  | c, .tableRow cells => by
    rw [node, draftNode]
    exact (all_adds hexpand c cells).seq (.emit _)
  | c, .tableCell cs => by
    rw [node, draftNode]
    exact (Adds.emit _).seq ((all_adds hexpand c cs).seq (.emit _))
  | c, .footnote id cs => by
    rw [node, draftNode]
    exact .nothing
  | c, .strong cs | c, .emph cs => by
    rw [node, draftNode]
    exact (Adds.emit _).seq ((all_adds hexpand c cs).seq (.emit _))
  | c, .pageLink page fragment cs => by
    rw [node, draftNode]
    exact .given fun id =>
      (Adds.emit _).seq ((Adds.emit _).seq ((all_adds hexpand c cs).seq (.emit _)))
  | c, .binding name category cs page => by
    have hbodies : Adds c (under .docs (bodies r within cs))
        (draftBodies r expand { c with inDocs := true } cs) :=
      .under (bodies_adds hexpand (Mark.docs.set true c) cs)
    rw [node, draftNode, bindingAround]
    simp only [seq_assoc]
    exact .surroundings ((Adds.emit _).seq ((Adds.emit _).seq ((Adds.emit _).seq
      ((Adds.emit _).seq (hbodies.seq (.emit _))))))
  | c, .index entries => by
    rw [node, draftNode]
    split
    · exact .emit _
    · exact (Adds.emit _).seq ((indexEntries_adds r c entries).seq (.emit _))
  | c, .contents entries minLevel => by
    rw [node, draftNode]
    split
    · exact .emit _
    · exact contentsEntries_adds hexpand c minLevel 1 entries
  | c, .link destination cs => by
    rw [node, draftNode]
    refine .surroundings ?_
    split
    · exact all_adds hexpand c cs
    · exact .given fun target =>
        (Adds.emit _).seq ((Adds.emit _).seq ((all_adds hexpand c cs).seq (.emit _)))
  | c, .image destination cs isLocal => by
    rw [node, draftNode]
    exact (Adds.emit _).seq (.surroundings ((Adds.emit _).seq ((Adds.emit _).seq ((Adds.emit _).seq
      ((Adds.under (all_adds hexpand c.block cs)).seq (.emit _))))))
  | c, .footnoteMark id => by
    rw [node, draftNode]
    refine .surroundings ?_
    cases c.notes.get? id with
    | none => exact .emit _
    | some cs =>
      exact (Adds.emit _).seq ((Adds.under (hexpand c.block (footnoteText cs))).seq (.emit _))
  | _, .codeBlock .. | _, .displayMath _ | _, .rule | _, .raw .. | _, .text _ | _, .code _
  | _, .math _ | _, .lineBreak | _, .softBreak => by
    rw [node, draftNode]
    exact .emit _
  | _, .body .. | _, .indexEntry .. | _, .contentsEntry .. => by
    rw [node, draftNode]
    exact .stop _
    all_goals nofun

/-- Nodes are written in place one after the other. -/
theorem all_adds (hexpand : ∀ c cs, Adds c (within cs) (expand c cs)) :
    (c : Context) → (ns : List Node) → Adds c (all r within ns) (draftAll r expand c ns)
  | _, [] => by
    rw [all, draftAll]
    exact .nothing
  | c, n :: rest => by
    rw [all, draftAll]
    exact (node_adds hexpand c n).seq (all_adds hexpand c rest)

/-- The nodes at page level are written in place with their line ends. -/
theorem top_adds (hexpand : ∀ c cs, Adds c (within cs) (expand c cs)) :
    (c : Context) → (ns : List Node) → Adds c (top r within ns) (draftTop r expand c ns)
  | _, [] => by
    rw [top, draftTop]
    exact .nothing
  | c, n :: rest => by
    have hn := node_adds hexpand c n
    have hrest := top_adds hexpand c rest
    rw [top, draftTop]
    -- The rest follows in both branches of the choice, and not behind it.
    split
    · exact hn.seq hrest
    · rw [Draft.seq_assoc, Draft.seq_assoc]
      exact (Adds.emit _).seq (hn.seq ((Adds.emit _).seq hrest))

/-- Items are written in place behind their markers. -/
theorem listItems_adds (hexpand : ∀ c cs, Adds c (within cs) (expand c cs)) :
    (c : Context) → (depth : Nat) → (marker : String) → (items : List Node) →
    Adds c (listItems r within depth marker items) (draftItems r expand c depth marker items)
  | _, _, _, [] => by
    rw [listItems, draftItems]
    exact .nothing
  | c, depth, marker, item :: rest => by
    rw [listItems, draftItems]
    have hitem := listItem_adds hexpand c depth item
    exact (Adds.emit _).seq (hitem.seq (listItems_adds hexpand c depth marker rest))

/-- An item is written in place as a block with its contents. -/
theorem listItem_adds (hexpand : ∀ c cs, Adds c (within cs) (expand c cs)) :
    (c : Context) → (depth : Nat) → (item : Node) →
    Adds c (listItem r within depth item) (draftItem r expand c depth item)
  | c, depth, .document cs | c, depth, .heading _ cs _ | c, depth, .paragraph cs
  | c, depth, .listItem cs | c, depth, .quote cs | c, depth, .admonition _ _ cs
  | c, depth, .tableCell cs | c, depth, .footnote _ cs | c, depth, .contentsEntry _ _ _ cs
  | c, depth, .strong cs | c, depth, .emph cs | c, depth, .link _ cs | c, depth, .pageLink _ _ cs
  | c, depth, .image _ cs _ => by
    rw [listItem, draftItem]
    exact (Adds.under (parts_adds hexpand c.block depth false cs)).seq (.emit _)
  | _, _, .list .. | _, _, .codeBlock .. | _, _, .displayMath _ | _, _, .table ..
  | _, _, .tableRow _ | _, _, .rule | _, _, .raw .. | _, _, .binding .. | _, _, .body ..
  | _, _, .index _ | _, _, .indexEntry .. | _, _, .contents .. | _, _, .text _ | _, _, .code _
  | _, _, .math _ | _, _, .lineBreak | _, _, .softBreak | _, _, .footnoteMark _ =>
    .under (.stop _)

/-- The parts of an item are written in place with their indentation. -/
theorem parts_adds (hexpand : ∀ c cs, Adds c (within cs) (expand c cs)) :
    (c : Context) → (depth : Nat) → (further : Bool) → (ns : List Node) →
    Adds c (parts r within depth further ns) (draftParts r expand c depth further ns)
  | _, _, _, [] => by
    rw [parts, draftParts]
    exact .nothing
  | c, depth, further, n :: rest => by
    have hn := node_adds hexpand c n
    have hrest := parts_adds hexpand c depth true rest
    cases n with
    | list ordered items =>
      have hitems := listItems_adds hexpand c (depth + 1) (listMarker (depth + 1) ordered) items
      exact (Adds.emit _).seq ((hitems.around (depth + 1)).seq hrest)
    | _ => exact (Adds.emit _).seq (hn.seq hrest)

/-- Bodies are written in place with their sources. -/
theorem bodies_adds (hexpand : ∀ c cs, Adds c (within cs) (expand c cs)) :
    (c : Context) → (ns : List Node) → Adds c (bodies r within ns) (draftBodies r expand c ns)
  | _, [] => by
    rw [bodies, draftBodies]
    exact .nothing
  | c, n :: rest => by
    have hrest := bodies_adds hexpand c rest
    cases n with
    | body tree source =>
      have htree := contentsOf_adds hexpand c tree
      cases source <;>
        exact (Adds.emit _).seq (htree.seq ((Adds.emit _).seq ((Adds.emit _).seq hrest)))
    | _ => exact (Adds.emit _).seq (.stop _)

/-- What stands in a body is written in place. -/
theorem contentsOf_adds (hexpand : ∀ c cs, Adds c (within cs) (expand c cs)) :
    (c : Context) → (n : Node) → Adds c (contentsOf r within n) (draftContentsOf r expand c n)
  | c, .document cs | c, .heading _ cs _ | c, .paragraph cs | c, .listItem cs | c, .quote cs
  | c, .admonition _ _ cs | c, .tableCell cs | c, .footnote _ cs | c, .contentsEntry _ _ _ cs
  | c, .strong cs | c, .emph cs | c, .link _ cs | c, .pageLink _ _ cs | c, .image _ cs _ => by
    rw [contentsOf, draftContentsOf]
    exact all_adds hexpand c cs
  | _, .list .. | _, .codeBlock .. | _, .displayMath _ | _, .table .. | _, .tableRow _ | _, .rule
  | _, .raw .. | _, .binding .. | _, .body .. | _, .index _ | _, .indexEntry .. | _, .contents ..
  | _, .text _ | _, .code _ | _, .math _ | _, .lineBreak | _, .softBreak | _, .footnoteMark _ =>
    .stop _

/-- The entries of a table of contents are written in place with the bullets of missing levels. -/
theorem contentsEntries_adds (hexpand : ∀ c cs, Adds c (within cs) (expand c cs)) :
    (c : Context) → (minLevel : Int) → (depth : Nat) → (ns : List Node) →
    Adds c (contentsEntries r within minLevel depth ns) (draftContents r expand c minLevel depth ns)
  | _, _, _, [] => by
    rw [contentsEntries, draftContents]
    exact .nothing
  | c, minLevel, depth, n :: rest => by
    have hrest (depth : Nat) := contentsEntries_adds hexpand c minLevel depth rest
    cases n with
    | contentsEntry page label level cs =>
      have hcs := all_adds hexpand c cs
      rw [contentsEntries, draftContents]
      split
      · exact hrest depth
      · exact (Adds.emit _).seq ((Adds.emit _).seq ((Adds.emit _).seq ((Adds.emit _).seq
          (hcs.seq ((Adds.emit _).seq (hrest _))))))
    | heading level cs anchor =>
      rw [contentsEntries, draftContents]
      split
      · exact hrest depth
      · exact (Adds.emit _).seq (.stop _)
    | _ => exact .stop _

end

end Nodes

/-- Nodes with nested footnotes are written in place as they are drafted. -/
theorem upTo_adds (r : Renderer) (depth : Nat) (c : Context) (nodes : List Node) :
    Adds c (upTo r depth nodes) (r.draftUpTo depth c nodes) := by
  induction depth generalizing c nodes with
  | zero => exact .stop _
  | succ depth ih => exact all_adds r ih c nodes

/-- The session after a step of writing, however it ended. -/
def after {α : Type} (w : Writing α) (s : Session) : Session :=
  match w s with
  | .ok _ t => t
  | .error _ t => t

/-- Writing that adds a draft to a session and restores it otherwise: the page, the depth of
headings, the marks and the footnotes are what they were, and what was written before is still
there, with the rest behind it. -/
structure Restores (s : Session) (w : Writing Unit) (d : Draft) : Prop where
  adds : w s = emit d s
  renderer : (after w s).renderer = s.renderer
  context : (after w s).context = s.context
  written : (after w s).written = s.written ++ d.pieces
  text : (after w s).text = s.text ++ d.text

variable {s : Session}

/-- Emitting a draft leaves the session with the draft added to it. -/
theorem after_emit (d : Draft) (s : Session) : after (emit d) s = s.add d := by
  rw [after, emit]
  cases d.fault <;> rfl

/-- The text of a session grows by that of the draft. -/
theorem text_add (s : Session) (d : Draft) : (s.add d).text = s.text ++ d.text := by
  simp only [Session.text, Session.add, List.map_append, String.join_append, Draft.text]

/-- Writing that adds a draft restores everything else. -/
theorem restores_of_eq_emit (h : w s = emit d s) : Restores s w d := by
  have hafter : after w s = s.add d := by rw [← after_emit, after, after, h]
  constructor
  · exact h
  · rw [hafter]
    rfl
  · rw [hafter]
    rfl
  · rw [hafter]
    rfl
  · rw [hafter, text_add]

/-- A node is written into a session as it is drafted. -/
theorem render_eq_emit (s : Session) (n : Node) :
    render n s = emit (s.renderer.node s.context n) s :=
  node_adds s.renderer (upTo_adds s.renderer _) s.context n s rfl

/-- The children of a node are written into a session as they are drafted. -/
theorem renderChildren_eq_emit (s : Session) (nodes : List Node) :
    renderChildren nodes s = emit (s.nodes nodes) s :=
  all_adds s.renderer (upTo_adds s.renderer _) s.context nodes s rfl

/-- The nodes at page level are written into a session as they are drafted. -/
theorem renderTop_eq_emit (s : Session) (nodes : List Node) :
    renderTop nodes s = emit (s.renderer.body s.context nodes) s :=
  top_adds s.renderer (upTo_adds s.renderer _) s.context nodes s rfl

/-- The contents of a tree are written into a session as they are drafted. -/
theorem renderBody_eq_emit (s : Session) (tree : Node) :
    renderBody tree s = emit (s.renderer.tree s.context tree) s := by
  rw [renderBody, Renderer.tree]
  cases tree.contents? with
  | none => exact Adds.stop .misplaced s rfl
  | some cs => exact renderTop_eq_emit s cs

/-- A fragment gives the text of its draft and adds nothing but the notices. -/
theorem renderFragment_eq (s : Session) (nodes : List Node) :
    renderFragment nodes s =
      match (s.nodes nodes).fault with
      | none => .ok (s.nodes nodes).text { s with notices := s.notices ++ (s.nodes nodes).notices }
      | some f => .error f { s with notices := s.notices ++ (s.nodes nodes).notices } := by
  have hinside : renderChildren nodes { s with written := [] } =
      emit (s.nodes nodes) { s with written := [] } :=
    renderChildren_eq_emit { s with written := [] } nodes
  rw [renderFragment, apart_apply]
  change behind _ (EStateM.bind (renderChildren nodes) _ { s with written := [] }) = _
  rw [EStateM.bind, hinside]
  cases hfault : (s.nodes nodes).fault with
  | some f => simp only [emit, hfault, behind, Session.add]
  | none =>
    simp only [emit, hfault]
    change EStateM.Result.ok ({ s with written := [] } |>.add (s.nodes nodes)).text _ = _
    rw [text_add]
    exact congrArg (EStateM.Result.ok · _) String.empty_append

/-- However it ends, writing in place restores the surroundings and only adds to what is written: it
adds the draft of what it writes. A fragment adds nothing; it gives the text that its nodes would
have added, or ends with the fault that they would have ended with. -/
theorem writing_restores (s : Session) (n : Node) (nodes : List Node) :
    Restores s (render n) (s.renderer.node s.context n) ∧
      Restores s (renderChildren nodes) (s.nodes nodes) ∧
      Restores s (renderTop nodes) (s.renderer.body s.context nodes) ∧
      Restores s (renderBody n) (s.renderer.tree s.context n) ∧
      (after (renderFragment nodes) s).context = s.context ∧
      (after (renderFragment nodes) s).written = s.written ∧
      ((∃ text t u, renderFragment nodes s = .ok text t ∧ renderChildren nodes s = .ok () u ∧
          u.text = s.text ++ text) ∨
        ∃ f t u, renderFragment nodes s = .error f t ∧ renderChildren nodes s = .error f u) := by
  have hfragment := renderFragment_eq s nodes
  have hchildren := renderChildren_eq_emit s nodes
  refine ⟨restores_of_eq_emit ?_, restores_of_eq_emit hchildren,
    restores_of_eq_emit (renderTop_eq_emit s nodes),
    restores_of_eq_emit (renderBody_eq_emit s n), ?_⟩
  · exact node_adds s.renderer (upTo_adds s.renderer _) s.context n s rfl
  · rw [emit] at hchildren
    cases hfault : (s.nodes nodes).fault with
    | none =>
      rw [hfault] at hfragment hchildren
      simp only [after, hfragment]
      exact ⟨trivial, trivial, .inl ⟨_, _, _, rfl, hchildren, text_add s _⟩⟩
    | some f =>
      rw [hfault] at hfragment hchildren
      simp only [after, hfragment]
      exact ⟨trivial, trivial, .inr ⟨_, _, _, rfl, hchildren⟩⟩

end Writing

end Folio
