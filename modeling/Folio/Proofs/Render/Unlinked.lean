import Folio.Proofs.Draft.InOrder
import Folio.Proofs.Node.Unlinked
import Folio.Proofs.Render.Items
import Folio.Proofs.Render.Steps

/-!
# Links in a heading

In a heading a link is written as its children, and so is every link in it, however deep: whatever
stands around the link hands the heading down to it, and a footnote is written in the heading that
it belongs to. What is written in a heading is therefore the same without the links.
-/

namespace Folio

open Draft

/-- The surroundings with the links in the footnotes taken out. -/
def Context.unlinked (c : Context) : Context :=
  { c with notes := c.notes.map fun note => (note.1, Node.unlinkedEach note.2) }

theorem Context.get?_unlinked (c : Context) (id : String) :
    c.unlinked.notes.get? id = (c.notes.get? id).map Node.unlinkedEach := by
  rw [unlinked]
  induction c.notes with
  | nil => rfl
  | cons note rest ih =>
    obtain ⟨name, cs⟩ := note
    rw [List.map_cons, Table.get?, Table.get?, ih]
    split <;> rfl

open Node

/-- A passage with the links taken out. -/
def Passage.unlinked : Passage → Passage
  | node c n => node c.unlinked n.unlinked
  | all c ns => all c.unlinked (unlinkedAll ns)
  | top c ns => top c.unlinked (unlinkedEach ns)
  | items c depth ordered ns => items c.unlinked depth ordered (unlinkedItems ns)
  | item c depth n => item c.unlinked depth (unlinkedItem n)
  | parts c depth further ns => parts c.unlinked depth further (unlinkedEach ns)
  | bodies c ns => bodies c.unlinked (unlinkedBodies ns)
  | contentsOf c n => contentsOf c.unlinked (unlinkedTree n)
  | index c ns => index c.unlinked ns
  | contents c minLevel depth ns => contents c.unlinked minLevel depth (unlinkedEntries ns)

/-- A step with the links taken out of what it is about. -/
def Step.unlinked : Step → Step
  | title c h => title c.unlinked { h with children := unlinkedAll h.children }
  | refer c (.body tree (some url)) => refer c.unlinked (.body (unlinkedTree tree) (some url))
  | refer c (.contentsEntry page label level cs) =>
    refer c.unlinked (.contentsEntry page label level (unlinkedAll cs))
  | refer c n => refer c.unlinked n
  | link c (.pageLink page fragment cs) t =>
    link c.unlinked (.pageLink page fragment (unlinkedAll cs)) t.unlinked
  | link c n t => link c.unlinked n t.unlinked
  | mark c id => mark c.unlinked id
  | passage t => passage t.unlinked
  | s => s

/-- Whether a passage starts with a link whose children take its place. -/
def Passage.startsWithLink : Passage → Bool
  | all _ (n :: _) => n.isLink
  | _ => false

/-- In a heading the rules take the same steps without the links. -/
theorem Node.steps_unlinked {c : Context} (h : c.inHeading = true) (n : Node) :
    n.unlinked.steps c.unlinked = (n.steps c).map Step.unlinked := by
  cases n with
  | link destination cs =>
    rw [unlinked, steps, steps, if_pos h]
    exact if_pos h
  | raw target s =>
    rw [steps, apply_ite (List.map Step.unlinked)]
    rfl
  | index entries =>
    rw [steps, apply_ite (List.map Step.unlinked)]
    rfl
  | contents entries minLevel =>
    have hempty : (unlinkedEntries entries).isEmpty = entries.isEmpty := by
      cases entries with
      | nil => rfl
      | cons n rest => cases n <;> rfl
    rw [unlinked, steps, steps, hempty, apply_ite (List.map Step.unlinked)]
    rfl
  | _ => rfl

/-- In a heading a rule takes the same steps without the links, unless it starts with one. -/
theorem Passage.steps_unlinked {t : Passage} (h : t.context.inHeading = true)
    (hstart : t.startsWithLink = false) : t.unlinked.steps = t.steps.map Step.unlinked := by
  cases t with
  | node c n => exact Node.steps_unlinked h n
  | all c ns =>
    cases ns with
    | nil => rfl
    | cons n rest =>
      rw [unlinked, unlinkedAll_cons hstart]
      rfl
  | top c ns =>
    cases ns with
    | nil => rfl
    | cons n rest =>
      have hstructural : n.unlinked.isStructural = n.isStructural := by cases n <;> rfl
      rw [unlinked, unlinkedEach, steps, steps, hstructural, List.map_append,
        apply_ite (List.map Step.unlinked)]
      rfl
  | item c depth n =>
    have hitem : (unlinkedItem n).contents? = n.contents?.map unlinkedEach := by cases n <;> rfl
    rw [unlinked, steps, steps, hitem]
    cases n.contents? with
    | none => rfl
    | some cs => cases cs <;> rfl
  | parts c depth further ns =>
    cases ns with
    | nil => rfl
    | cons n rest =>
      cases n with
      | list ordered items => rfl
      | _ => cases further <;> rfl
  | bodies c ns =>
    cases ns with
    | nil => rfl
    | cons n rest =>
      cases n with
      | body tree url =>
        have hsource : Step.source c.unlinked (unlinkedTree tree) url =
            (Step.source c tree url).map Step.unlinked := by
          cases url with
          | none => rfl
          | some url =>
            rw [Step.source, Step.source, apply_ite (List.map Step.unlinked)]
            rfl
        rw [unlinked, unlinkedBodies, steps, steps, hsource, List.map_append, List.map_append]
        rfl
      | _ => rfl
  | contents c minLevel depth ns =>
    cases ns with
    | nil => rfl
    | cons n rest =>
      have hbullets (level : Nat) :
          (Step.bullets depth level).map Step.unlinked = Step.bullets depth level := by
        rw [Step.bullets, List.map_map]
        rfl
      cases n with
      | contentsEntry page label level cs =>
        rw [unlinked, unlinkedEntries, steps, steps]
        simp only [apply_ite (List.map Step.unlinked), List.map_append, hbullets]
        rfl
      | heading level cs given =>
        rw [unlinked, unlinkedEntries, steps, steps]
        · simp only [apply_ite (List.map Step.unlinked), List.map_append, hbullets]
          rfl
        · rintro _ _ _ _ ⟨⟩
      | _ => rfl
  | items c depth ordered ns => cases ns <;> rfl
  | contentsOf c n => cases n <;> rfl
  | index c ns =>
    cases ns with
    | nil => rfl
    | cons n rest => cases n <;> rfl

section Nodes

variable {r : Renderer} {expand expand' : Context → List Node → Draft}

/-- Nodes in two parts are written one part after the other. -/
theorem draftAll_append (c : Context) (ns ms : List Node) :
    draftAll r expand c (ns ++ ms) = draftAll r expand c ns >> draftAll r expand c ms := by
  induction ns with
  | nil => rw [List.nil_append, draftAll, empty_seq]
  | cons n rest ih => rw [List.cons_append, draftAll, draftAll, ih, seq_assoc]

variable (hexpand : ∀ c : Context, c.inHeading = true → ∀ cs,
    expand' c.unlinked (footnoteText (unlinkedEach cs)) = expand c (footnoteText cs))

include hexpand

/-- A step of a rule in a heading writes the same without the links. -/
theorem Step.draft_unlinked {t : Passage} (h : t.context.inHeading = true) {s : Step}
    (hs : s.IsOf t)
    (hpassages : ∀ t' ∈ s.passages, t'.unlinked.draft r expand' = t'.draft r expand) :
    s.unlinked.draft r expand' = s.draft r expand := by
  cases s with
  | markup | prose | literal | stop | code | image | anchor => rfl
  | title c heading =>
    rw [unlinked, draft, draft, label_unlinkedAll]
    rfl
  | refer c n =>
    cases n with
    | body tree url => cases url <;> rfl
    | _ => rfl
  | link c n t' =>
    have htext := hpassages t' (List.mem_singleton_self t')
    cases n with
    | pageLink page fragment cs =>
      rw [unlinked, draft, draft, htext]
      rfl
    | _ =>
      rw [unlinked, draft, draft, htext]
      · rfl
      · rintro _ _ _ ⟨⟩
  | mark c id =>
    obtain ⟨rfl, -⟩ := hs
    rw [unlinked, draft, draft, Context.get?_unlinked]
    cases t.context.notes.get? id with
    | none => rfl
    | some cs => exact congrArg (_ >> · >> _) (hexpand t.context.block h cs)
  | passage t' => exact hpassages t' (List.mem_singleton_self t')

/-- In a heading a passage is written like the passage without the links. -/
theorem Passage.draft_unlinked (t : Passage) (h : t.context.inHeading = true) :
    t.unlinked.draft r expand' = t.draft r expand := by
  induction t with
  | rule t ih =>
    have hwithin (t' : Passage) (ht' : t' ∈ t.within) :
        t'.unlinked.draft r expand' = t'.draft r expand :=
      ih t' ht' ((hands_of_mem_within ht').context.inHeading h)
    cases hstart : t.startsWithLink with
    | false =>
      rw [draft_eq, draft_eq, steps_unlinked h hstart]
      exact ofSteps_map fun s hs => Step.draft_unlinked hexpand h (isOf_steps t s hs)
        fun t' ht' => hwithin t' (List.mem_flatMap.mpr ⟨s, hs, ht'⟩)
    | true =>
      -- The children of the link take the place of the link, which is written as they are.
      cases t with
      | all c ns =>
        cases ns with
        | nil => cases hstart
        | cons n rest =>
          have hrest := hwithin (all c rest) (List.mem_cons_of_mem _ List.mem_cons_self)
          have hn := hwithin (node c n) List.mem_cons_self
          cases n with
          | link destination cs =>
            change draftNode r expand' c.unlinked (.link destination (unlinkedAll cs)) = _ at hn
            rw [draftNode, if_pos (show c.unlinked.inHeading = true from h)] at hn
            change draftAll r expand' c.unlinked (unlinkedAll (.link destination cs :: rest)) =
              draftAll r expand c (.link destination cs :: rest)
            rw [unlinkedAll, draftAll_append, draftAll, hn]
            exact congrArg (_ >> ·) hrest
          | _ => cases hstart
      | _ => cases hstart

/-- Nodes in a heading are written like the nodes without the links in them. -/
theorem draftAll_unlinkedEach (c : Context) (h : c.inHeading = true) (ns : List Node) :
    draftAll r expand' c.unlinked (unlinkedEach ns) = draftAll r expand c ns := by
  induction ns with
  | nil => rfl
  | cons n rest ih =>
    have hn := Passage.draft_unlinked (r := r) hexpand (.node c n) h
    rw [unlinkedEach, draftAll, draftAll, ih]
    exact congrArg (· >> _) hn

end Nodes

/-- The text of a footnote is written one node after the other if it is a single paragraph, and
otherwise it is the footnote itself. -/
theorem footnoteText_unlinkedEach (cs : List Node) :
    footnoteText (unlinkedEach cs) = unlinkedAll (footnoteText cs) ∨
      footnoteText (unlinkedEach cs) = unlinkedEach (footnoteText cs) := by
  match cs with
  | [] => exact .inr rfl
  | [n] =>
    cases n with
    | paragraph ps => exact .inl rfl
    | _ => exact .inr rfl
  | n :: m :: rest => cases n <;> exact .inr rfl

/-- Footnotes included, nodes in a heading are written like the nodes without the links. -/
theorem Renderer.draftUpTo_unlinked (r : Renderer) (depth : Nat) (c : Context)
    (h : c.inHeading = true) (ns : List Node) :
    r.draftUpTo depth c.unlinked (unlinkedAll ns) = r.draftUpTo depth c ns ∧
      r.draftUpTo depth c.unlinked (unlinkedEach ns) = r.draftUpTo depth c ns := by
  induction depth generalizing c ns with
  | zero => exact ⟨rfl, rfl⟩
  | succ depth ih =>
    have hexpand (c : Context) (h : c.inHeading = true) (cs : List Node) :
        r.draftUpTo depth c.unlinked (footnoteText (unlinkedEach cs)) =
          r.draftUpTo depth c (footnoteText cs) := by
      rcases footnoteText_unlinkedEach cs with htext | htext
      · rw [htext, (ih c h _).1]
      · rw [htext, (ih c h _).2]
    exact ⟨Passage.draft_unlinked hexpand (.all c ns) h, draftAll_unlinkedEach hexpand c h ns⟩

end Folio
