import Folio.Proofs.Render.Steps

/-!
# The same nodes written by two renderers

Two renderers give drafts of the same nodes that differ only where the renderers are asked: where a
fragment is looked up and where an image is looked for. So a relation between drafts that holds
there, that every draft has to itself and that sequences keep holds between the drafts of every
tree.
-/

namespace Folio

open Draft

/-- A relation that every draft has to itself and that sequences keep. -/
structure Draft.Congruence (rel : Draft → Draft → Prop) : Prop where
  refl : ∀ d, rel d d
  seq : ∀ {a a' b b'}, rel a a' → rel b b' → rel (a >> b) (a' >> b')

/-- Whatever two renderers are asked, what they write on the answers is related. -/
structure Renderer.Agrees (rel : Draft → Draft → Prop) (r r' : Renderer) : Prop
    extends Draft.Congruence rel where
  base : r.labels.base = r'.labels.base
  lexers : r.lexers = r'.lexers
  resolve : ∀ page fragment {next next' : LabelId → Draft}, (∀ id, rel (next id) (next' id)) →
    rel (ofExcept (r.labels.resolve page fragment) next)
      (ofExcept (r'.labels.resolve page fragment) next')
  image : ∀ page destination isLocal,
    rel (imageCheck r page destination isLocal) (imageCheck r' page destination isLocal)

namespace Renderer.Agrees

variable {rel : Draft → Draft → Prop} {r r' : Renderer} (h : Agrees rel r r')

include h

/-- Labels have the same full names for both renderers. -/
theorem id_eq : r.labels.id = r'.labels.id := by
  funext page name
  rw [Labels.id, Labels.id, h.base]

/-- Where a link leads is asked of the labels only. -/
theorem linkTarget {page destination : String} {next next' : Target → Draft}
    (hnext : ∀ target, rel (next target) (next' target)) :
    rel (ofExcept (linkTarget r.labels page destination) next)
      (ofExcept (linkTarget r'.labels page destination) next') := by
  have hlabel (page fragment : String) :
      rel (ofExcept ((r.labels.resolve page fragment).map .label) next)
        (ofExcept ((r'.labels.resolve page fragment).map .label) next') := by
    rw [ofExcept_map, ofExcept_map]
    exact h.resolve page fragment fun id => hnext (.label id)
  unfold Folio.linkTarget
  split
  · exact hnext _
  · split
    · exact hlabel _ _
    · split
      · exact hlabel _ _
      · exact hnext _

/-- Where a node's link leads is asked of the labels only. -/
theorem destination (n : Node) (page : String) {next next' : Target → Draft}
    (hnext : ∀ target, rel (next target) (next' target)) :
    rel (ofExcept (n.destination r.labels page) next)
      (ofExcept (n.destination r'.labels page) next') := by
  cases n with
  | link destination cs => exact h.linkTarget hnext
  | pageLink page fragment cs =>
    simp only [Node.destination, ofExcept_map]
    exact h.resolve page fragment fun id => hnext (.label id)
  | indexEntry | contentsEntry =>
    rw [Node.destination, Node.destination, h.id_eq]
    exact hnext _
  | body tree url =>
    cases url with
    | none => exact h.refl _
    | some url => exact hnext _
  | _ => exact h.refl _

end Renderer.Agrees

section Nodes

variable {rel : Draft → Draft → Prop} {r r' : Renderer} (h : Renderer.Agrees rel r r')
  {expand expand' : Context → List Node → Draft}
    (hexpand : ∀ c cs, rel (expand c cs) (expand' c cs))

/-- Steps that are written alike one by one are written alike together. -/
theorem Draft.Congruence.ofSteps {rel : Draft → Draft → Prop} (h : Congruence rel) {ss : List Step}
    (hs : ∀ s ∈ ss, rel (s.draft r expand) (s.draft r' expand')) :
    rel (Draft.ofSteps r expand ss) (Draft.ofSteps r' expand' ss) := by
  induction ss with
  | nil => exact h.refl _
  | cons s rest ih =>
    obtain ⟨hs, hrest⟩ := List.forall_mem_cons.mp hs
    exact h.seq hs (ih hrest)

include h hexpand

/-- A step is written alike. -/
theorem Step.draft_agrees (s : Step)
    (hpassages : ∀ t ∈ s.passages, rel (t.draft r expand) (t.draft r' expand')) :
    rel (s.draft r expand) (s.draft r' expand') := by
  cases s with
  | markup | prose | literal | stop => exact h.refl _
  | code s info =>
    rw [draft, draft, h.lexers]
    exact h.refl _
  | image page destination isLocal => exact h.image ..
  | title | anchor =>
    rw [draft, draft, h.id_eq]
    exact h.refl _
  | refer c n => exact h.destination n c.page fun _ => h.refl _
  | link c n text =>
    have htext := hpassages text (List.mem_singleton_self text)
    exact h.destination n c.page fun _ =>
      h.seq (h.refl _) (h.seq (h.refl _) (h.seq htext (h.refl _)))
  | mark c id =>
    rw [draft, draft]
    cases c.notes.get? id with
    | none => exact h.refl _
    | some cs => exact h.seq (h.refl _) (h.seq (hexpand c.block (footnoteText cs)) (h.refl _))
  | passage t => exact hpassages t (List.mem_singleton_self t)

/-- Whatever is written is written alike. -/
theorem Passage.draft_agrees (t : Passage) : rel (t.draft r expand) (t.draft r' expand') := by
  induction t with
  | rule t ih =>
    rw [draft_eq, draft_eq]
    exact h.ofSteps fun s hs => Step.draft_agrees h hexpand s fun t' ht' =>
      ih t' (List.mem_flatMap.mpr ⟨s, hs, ht'⟩)

end Nodes

namespace Renderer

variable {rel : Draft → Draft → Prop} {r r' : Renderer}

/-- Nodes with nested footnotes are written alike. -/
theorem draftUpTo_agrees (h : Agrees rel r r') (depth : Nat) (c : Context) (nodes : List Node) :
    rel (r.draftUpTo depth c nodes) (r'.draftUpTo depth c nodes) := by
  induction depth generalizing c nodes with
  | zero => exact h.refl _
  | succ depth ih => exact Passage.draft_agrees h ih (.all c nodes)

/-- A tree at page level is written alike. -/
theorem tree_agrees (h : Agrees rel r r') (c : Context) (tree : Node) :
    rel (r.tree c tree) (r'.tree c tree) := by
  rw [Renderer.tree, Renderer.tree]
  cases tree.contents? with
  | none => exact h.refl _
  | some cs => exact Passage.draft_agrees h (draftUpTo_agrees h _) (.top c cs)

/-- The documentation of a binding is written alike. -/
theorem binding_agrees (h : Agrees rel r r') (c : Context) (b : Binding) :
    rel (r.binding c b) (r'.binding c b) := by
  have hbodies := Passage.draft_agrees h (draftUpTo_agrees h c.notes.length)
    (.bodies { c with inDocs := true } b.bodies)
  rw [Renderer.binding, Renderer.binding, h.id_eq, bindingAround, bindingAround]
  exact h.seq (h.refl _) (h.seq (h.refl _) (h.seq (h.refl _) (h.seq (h.refl _)
    (h.seq hbodies (h.refl _)))))

end Renderer

end Folio
