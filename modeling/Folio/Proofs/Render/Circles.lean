import Folio.Proofs.Render.Compare
import Folio.Proofs.Render.Marks
import Folio.Proofs.Table
import Mathlib.Logic.Relation
import Mathlib.Data.List.Perm.Subperm

/-!
# Footnotes that refer to each other in a circle

Footnotes are written where they are referred to, and the writing gives up when they are nested too
deep. How deep they may be nested changes nothing once the writing does not give up. With as many
levels as there are footnotes it gives up only if it would give up at every depth: on the way down
to a mark that is written at the next depth no footnote comes twice, since a footnote ends no
earlier inside another one than outside. So giving up means that a circle of footnotes is reached,
and nothing is written to its end from which a circle is reached.
-/

namespace Folio

open Draft Relation

/-! ### Circles -/

namespace Footnotes

variable {notes : Footnotes} {id other : String}

/-- Whether the text of a footnote asks for another footnote. -/
def Asks (notes : Footnotes) (id other : String) : Prop :=
  ∃ cs, notes.get? id = some cs ∧ other ∈ Node.marksAll (footnoteText cs)

/-- Whether a footnote leads to one that leads back to itself. -/
def Circles (notes : Footnotes) (id : String) : Prop :=
  ∃ turn, ReflTransGen notes.Asks id turn ∧ TransGen notes.Asks turn turn

/-- A footnote that asks for one that leads to a circle leads to it. -/
theorem Circles.of_asks (hasks : notes.Asks id other) (h : notes.Circles other) :
    notes.Circles id := by
  obtain ⟨turn, hway, hturn⟩ := h
  exact ⟨turn, .head hasks hway, hturn⟩

/-- A footnote that leads to a circle asks for one that does. -/
theorem Circles.next (h : notes.Circles id) :
    ∃ other, notes.Asks id other ∧ notes.Circles other := by
  obtain ⟨turn, hway, hturn⟩ := h
  rcases hway.cases_head with rfl | ⟨other, hasks, hrest⟩
  · obtain ⟨other, hasks, hback⟩ := TransGen.head'_iff.mp hturn
    exact ⟨other, hasks, id, hback, hturn⟩
  · exact ⟨other, hasks, turn, hrest, hturn⟩

/-- The name of a footnote is one of the names in the table. -/
theorem mem_keys {cs : List Node} (h : notes.get? id = some cs) : id ∈ notes.keys :=
  List.mem_map.mpr ⟨(id, cs), Table.mem_of_get?_eq_some h, rfl⟩

/-- Going down from one footnote to another that has not come yet ends after as many steps as there
are footnotes. -/
theorem add_length_le {P : Nat → List String → Prop}
    (hstep : ∀ k seen, P (k + 1) seen → ∃ id cs, notes.get? id = some cs ∧ id ∉ seen ∧
      P k (id :: seen))
    {k : Nat} {seen : List String} (h : P k seen) (hnodup : seen.Nodup)
    (hknown : ∀ id ∈ seen, id ∈ notes.keys) : k + seen.length ≤ notes.length := by
  induction k generalizing seen with
  | zero =>
    have hlength := (List.subperm_of_subset hnodup hknown).length_le
    rw [Table.keys, List.length_map] at hlength
    omega
  | succ k ih =>
    obtain ⟨id, cs, hid, hnew, hnext⟩ := hstep k seen h
    have hle := ih hnext (List.nodup_cons.mpr ⟨hnew, hnodup⟩)
      (List.forall_mem_cons.mpr ⟨mem_keys hid, hknown⟩)
    rw [List.length_cons] at hle
    omega

/-- The same for the steps below a first footnote. -/
theorem lt_length {P : Nat → List String → Prop}
    (hstep : ∀ k seen, P (k + 1) seen → ∃ id cs, notes.get? id = some cs ∧ id ∉ seen ∧
      P k (id :: seen))
    {k : Nat} {cs : List Node} (hid : notes.get? id = some cs) (h : P k [id]) :
    k < notes.length :=
  add_length_le hstep h (List.nodup_cons.mpr ⟨List.not_mem_nil, List.nodup_nil⟩)
    (List.forall_mem_singleton.mpr (mem_keys hid))

end Footnotes

namespace Draft

/-- Whether the writing gave up on nested footnotes. -/
def GivesUp (d : Draft) : Prop := d.fault = some .circularFootnote

/-- Nothing that is written to its end gives up. -/
theorem not_givesUp_of_fault {d : Draft} (h : d.fault = none) : ¬d.GivesUp := by
  intro hup
  rw [GivesUp, h] at hup
  cases hup

/-- Nothing that ends with a fault that is reported gives up. -/
theorem FaultsIn.not_givesUp {d : Draft} (h : d.FaultsIn Fault.IsReported) : ¬d.GivesUp :=
  fun hup => (h _ hup).ne_circularFootnote rfl

/-- A sequence gives up in its first part, or behind it. -/
theorem givesUp_seq {a b : Draft} :
    (a >> b).GivesUp ↔ a.GivesUp ∨ a.fault = none ∧ b.GivesUp := by
  cases hfault : a.fault with
  | none => simp [GivesUp, fault_seq hfault, hfault]
  | some f => simp [GivesUp, seq_of_fault hfault, hfault]

/-- Whether a draft that has no fault or gives up ends as another one does. -/
def EndsLike (d d' : Draft) : Prop := d.fault = none ∨ d.GivesUp → d'.fault = d.fault

theorem EndsLike.ofEnds : OfEnds EndsLike where
  plain := fun hd hd' _ => hd'.trans hd.symm
  stop := by
    rintro d d' f hd hf (hnone | hup)
    · rw [hd] at hnone
      cases hnone
    · exact absurd (Option.some.inj (hd.symm.trans hup)) hf
  seq := by
    intro a a' b b' ha hb hends
    rw [GivesUp] at hends
    cases hfault : a.fault with
    | none =>
      have ha' : a'.fault = none := (ha (.inl hfault)).trans hfault
      rw [fault_seq hfault] at hends ⊢
      rw [fault_seq ha']
      exact hb hends
    | some f =>
      rw [seq_of_fault hfault] at hends ⊢
      have ha' : a'.fault = a.fault := ha hends
      rw [seq_of_fault (ha'.trans hfault)]
      exact ha'

/-- Not giving up looks only at how a draft ends. -/
theorem ofEnds_not_givesUp : OfEnds fun d _ => ¬d.GivesUp where
  plain := fun hd _ => not_givesUp_of_fault hd
  stop := by
    intro d d' f hd hf hup
    exact hf (Option.some.inj (hd.symm.trans hup))
  seq := by
    intro a a' b b' ha hb hup
    rcases givesUp_seq.mp hup with hup | ⟨-, hup⟩
    · exact ha hup
    · exact hb hup

/-- Whether a draft that does not give up is the same as another one. -/
def Settles (d d' : Draft) : Prop := ¬d.GivesUp → d' = d

theorem Settles.congruence : Congruence Settles where
  refl _ _ := rfl
  seq := by
    intro a a' b b' ha hb hup
    rw [givesUp_seq, not_or, not_and] at hup
    obtain ⟨hupa, hupb⟩ := hup
    rw [ha hupa]
    cases hfault : a.fault with
    | none => rw [hb (hupb hfault)]
    | some f => rw [seq_of_fault hfault, seq_of_fault hfault]

end Draft

namespace Renderer

variable (r : Renderer) {c c' : Context} {cs : List Node} {k k' : Nat}

/-! ### Deeper nesting -/

/-- Whatever is asked of a renderer gives the same answer again. -/
theorem agrees_settles : Agrees Settles r r where
  toCongruence := Settles.congruence
  base := rfl
  lexers := rfl
  resolve page fragment next next' hnext := by
    cases r.labels.resolve page fragment with
    | ok id => exact hnext id
    | error f => exact Settles.congruence.refl _
  image page destination isLocal := Settles.congruence.refl _

/-- One more level of footnotes changes nothing once the writing does not give up. -/
theorem draftUpTo_settles_succ (k : Nat) (c : Context) (cs : List Node) :
    Settles (r.draftUpTo k c cs) (r.draftUpTo (k + 1) c cs) := by
  induction k generalizing c cs with
  | zero => exact fun hup => absurd rfl hup
  | succ k ih => exact Passage.draft_agrees r.agrees_settles ih (.all c cs)

/-- More levels of footnotes change nothing once the writing does not give up. -/
theorem draftUpTo_settles (hk : k ≤ k') (c : Context) (cs : List Node) :
    Settles (r.draftUpTo k c cs) (r.draftUpTo k' c cs) := by
  intro hup
  induction hk with
  | refl => rfl
  | @step k' _ ih =>
    rw [← ih] at hup
    rw [r.draftUpTo_settles_succ k' c cs hup, ih]

/-- The same at page level. -/
theorem draftTop_settles (hk : k ≤ k') (c : Context) (cs : List Node) :
    Settles (draftTop r (r.draftUpTo k) c cs) (draftTop r (r.draftUpTo k') c cs) :=
  Passage.draft_agrees r.agrees_settles (r.draftUpTo_settles hk) (.top c cs)

/-- Nodes that give up at some depth give up at every smaller one. -/
theorem givesUp_of_le (hk : k ≤ k') (h : (r.draftUpTo k' c cs).GivesUp) :
    (r.draftUpTo k c cs).GivesUp := by
  by_contra hup
  rw [r.draftUpTo_settles hk c cs hup] at h
  exact hup h

/-- Nodes end further inside as they do outside, unless a fault of their own ends them outside. -/
theorem draftUpTo_endsLike (k : Nat) (hc : c.Within c') (cs : List Node) :
    EndsLike (r.draftUpTo k c cs) (r.draftUpTo k c' cs) := by
  induction k generalizing c c' cs with
  | zero => exact fun _ => rfl
  | succ k ih =>
    let w : Comparison := ⟨r.draftUpTo k, r.draftUpTo k, c, EndsLike⟩
    have hfollows := draftAll_follows r (w := w) EndsLike.ofEnds c c' (.refl c) hc cs
    refine hfollows.compares fun id _ note _ e e' _ he => ?_
    exact ih he (footnoteText note)

/-- Nodes that give up further outside give up further inside. -/
theorem givesUp_of_within (hc : c.Within c') (h : (r.draftUpTo k c cs).GivesUp) :
    (r.draftUpTo k c' cs).GivesUp :=
  (r.draftUpTo_endsLike k hc cs (.inr h)).trans h

/-! ### Footnotes on the way down -/

/-- The footnotes below some surroundings, written at two depths. -/
def depths (k k' : Nat) (c : Context) (rel : Draft → Draft → Prop) : Comparison :=
  ⟨r.draftUpTo k, r.draftUpTo k', c, rel⟩

/-- What gives up asks for a footnote that gives up. -/
theorem exists_asked {ids : List String} {d d' : Draft}
    (h : (r.depths k k c fun d _ => ¬d.GivesUp).Follows ids d d') (hd : d.GivesUp) :
    ∃ id ∈ ids, ∃ cs, c.notes.get? id = some cs ∧ ∃ c', c.Within c' ∧
      (r.draftUpTo k c' (footnoteText cs)).GivesUp := by
  by_contra hnone
  refine h.compares (fun id hid cs hcs e e' he _ hup => ?_) hd
  exact hnone ⟨id, hid, cs, hcs, e, he, hup⟩

/-- What gives up at one depth but not at the next one asks for a footnote that does so. -/
theorem exists_asked_late {ids : List String} {d d' : Draft}
    (h : (r.depths k (k + 1) c EndsLike).Follows ids d d') (hd : d.GivesUp) (hd' : ¬d'.GivesUp) :
    ∃ id ∈ ids, ∃ cs, c.notes.get? id = some cs ∧ ∃ c', c.Within c' ∧
      (r.draftUpTo k c' (footnoteText cs)).GivesUp ∧
      ¬(r.draftUpTo (k + 1) c' (footnoteText cs)).GivesUp := by
  by_contra hnone
  have hcompares : (r.depths k (k + 1) c EndsLike).Compares ids := by
    intro id hid cs hcs e e' he he' hends
    have hinside : (r.draftUpTo k e' (footnoteText cs)).fault = _ :=
      r.draftUpTo_endsLike k he' (footnoteText cs) hends
    change (r.draftUpTo (k + 1) e' (footnoteText cs)).fault =
      (r.draftUpTo k e (footnoteText cs)).fault
    by_cases hup : (r.draftUpTo k e' (footnoteText cs)).GivesUp
    · -- Giving up there goes on at the next depth, or there would be such a footnote.
      have hup' : (r.draftUpTo (k + 1) e' (footnoteText cs)).GivesUp := by
        by_contra hup'
        exact hnone ⟨id, hid, cs, hcs, e', he.trans he', hup, hup'⟩
      exact (hup'.trans hup.symm).trans hinside
    · rw [r.draftUpTo_settles_succ k e' _ hup, hinside]
  exact hd' ((h.compares hcompares (.inr hd)).trans hd)

/-- Whether some nodes first end at the next depth, and the footnotes seen so far give up further
outside. -/
def EndsLate (notes : Footnotes) (k : Nat) (seen : List String) : Prop :=
  ∃ c cs, c.notes = notes ∧ (r.draftUpTo k c cs).GivesUp ∧ ¬(r.draftUpTo (k + 1) c cs).GivesUp ∧
    ∀ id ∈ seen, ∃ note, notes.get? id = some note ∧ ∃ outer, outer.Within c ∧
      (r.draftUpTo k outer (footnoteText note)).GivesUp

/-- Nodes that end late ask for a footnote that has not been seen and ends late. -/
theorem EndsLate.next {notes : Footnotes} {seen : List String} (h : r.EndsLate notes (k + 1) seen) :
    ∃ id cs, notes.get? id = some cs ∧ id ∉ seen ∧ r.EndsLate notes k (id :: seen) := by
  obtain ⟨c, cs, rfl, hup, hends, hseen⟩ := h
  have hfollows := draftAll_follows r (w := r.depths k (k + 1) c EndsLike) EndsLike.ofEnds
    c c (.refl c) (.refl c) cs
  obtain ⟨id, hid, note, hnote, e, hce, heup, heends⟩ := r.exists_asked_late hfollows hup hends
  refine ⟨id, note, hnote, fun hmem => ?_, e, footnoteText note, hce.notes, heup, heends, ?_⟩
  · -- It gave up further outside, and so it does here.
    obtain ⟨other, hother, outer, houter, hgives⟩ := hseen id hmem
    obtain rfl := Option.some.inj (hnote.symm.trans hother)
    exact heends (r.givesUp_of_within (houter.trans hce) hgives)
  · refine List.forall_mem_cons.mpr ⟨⟨note, hnote, e, .refl e, heup⟩, fun s hs => ?_⟩
    obtain ⟨other, hother, outer, houter, hgives⟩ := hseen s hs
    exact ⟨other, hother, outer, houter.trans hce, r.givesUp_of_le (Nat.le_succ k) hgives⟩

/-- Whether some nodes give up, although no circle is reached, behind footnotes that lead to all
they ask for. -/
def GivesUpBehind (notes : Footnotes) (k : Nat) (seen : List String) : Prop :=
  ∃ c cs, c.notes = notes ∧ (r.draftUpTo k c cs).GivesUp ∧
    (∀ id ∈ Node.marksAll cs, ¬notes.Circles id) ∧
    ∀ id ∈ seen, ∀ other ∈ Node.marksAll cs, TransGen notes.Asks id other

/-- Nodes that give up ask for a footnote that has not been seen and gives up. -/
theorem GivesUpBehind.next {notes : Footnotes} {seen : List String}
    (h : r.GivesUpBehind notes (k + 1) seen) :
    ∃ id cs, notes.get? id = some cs ∧ id ∉ seen ∧ r.GivesUpBehind notes k (id :: seen) := by
  obtain ⟨c, cs, rfl, hup, hcircles, hseen⟩ := h
  have hfollows := draftAll_follows r (w := r.depths k k c fun d _ => ¬d.GivesUp)
    ofEnds_not_givesUp c c (.refl c) (.refl c) cs
  obtain ⟨id, hid, note, hnote, e, hce, heup⟩ := r.exists_asked hfollows hup
  have hasks : ∀ other ∈ Node.marksAll (footnoteText note), c.notes.Asks id other :=
    fun other hother => ⟨note, hnote, hother⟩
  refine ⟨id, note, hnote, fun hmem => ?_, e, footnoteText note, hce.notes, heup,
    fun other hother hcircle => ?_, ?_⟩
  · exact hcircles id hid ⟨id, .refl, hseen id hmem id hid⟩
  · exact hcircles id hid (hcircle.of_asks (hasks other hother))
  · refine List.forall_mem_cons.mpr ⟨fun other hother => .single (hasks other hother), ?_⟩
    intro s hs other hother
    exact .tail (hseen s hs id hid) (hasks other hother)

/-! ### Giving up -/

/-- With as many levels as there are footnotes the writing gives up only if it does so at every
depth. -/
theorem draftTop_givesUp (h : (draftTop r (r.draftUpTo c.notes.length) c cs).GivesUp) (k : Nat) :
    (draftTop r (r.draftUpTo k) c cs).GivesUp := by
  induction k with
  | zero =>
    by_contra hup
    rw [r.draftTop_settles (Nat.zero_le _) c cs hup] at h
    exact hup h
  | succ k ih =>
    by_contra hends
    have hk : c.notes.length ≤ k := by
      by_contra hlt
      rw [r.draftTop_settles (Nat.lt_of_not_le hlt) c cs hends] at h
      exact hends h
    have hfollows := draftTop_follows r (w := r.depths k (k + 1) c EndsLike) EndsLike.ofEnds
      c c (.refl c) (.refl c) cs
    obtain ⟨id, hid, note, hnote, e, hce, heup, heends⟩ := r.exists_asked_late hfollows ih hends
    have hlate : r.EndsLate c.notes k [id] := by
      refine ⟨e, footnoteText note, hce.notes, heup, heends, List.forall_mem_singleton.mpr ?_⟩
      exact ⟨note, hnote, e, .refl e, heup⟩
    have hlt := Footnotes.lt_length (fun k seen => EndsLate.next r) hnote hlate
    omega

/-- Where the writing gives up a circle of footnotes is reached. -/
theorem exists_circles (h : (draftTop r (r.draftUpTo c.notes.length) c cs).GivesUp) :
    ∃ id ∈ Node.marksAll cs, c.notes.Circles id := by
  by_contra hnone
  have hfollows := draftTop_follows r
    (w := r.depths c.notes.length c.notes.length c fun d _ => ¬d.GivesUp)
    ofEnds_not_givesUp c c (.refl c) (.refl c) cs
  obtain ⟨id, hid, note, hnote, e, hce, heup⟩ := r.exists_asked hfollows h
  have hbehind : r.GivesUpBehind c.notes c.notes.length [id] := by
    refine ⟨e, footnoteText note, hce.notes, heup, fun other hother hcircle => ?_, ?_⟩
    · exact hnone ⟨id, hid, hcircle.of_asks ⟨note, hnote, hother⟩⟩
    · exact List.forall_mem_singleton.mpr fun other hother => .single ⟨note, hnote, hother⟩
  have hlt := Footnotes.lt_length (fun k seen => GivesUpBehind.next r) hnote hbehind
  exact Nat.lt_irrefl _ hlt

/-- From what is written to its end no circle of footnotes is reached. -/
theorem not_circles_of_follows {ids : List String} {d d' : Draft}
    (h : (r.depths k k c fun d _ => ¬d.GivesUp).Follows ids d d') (hd : d.fault = none) :
    ∀ id ∈ ids, ¬c.notes.Circles id := by
  induction k generalizing c ids d d' with
  | zero =>
    rintro id hid hcircle
    obtain ⟨other, ⟨note, hnote, -⟩, -⟩ := hcircle.next
    obtain ⟨e, -, he⟩ := h.complete hd id hid note hnote
    cases he
  | succ k ih =>
    rintro id hid hcircle
    obtain ⟨other, ⟨note, hnote, hother⟩, hnext⟩ := hcircle.next
    obtain ⟨e, hce, he⟩ := h.complete hd id hid note hnote
    have hfollows := draftAll_follows r (w := r.depths k k e fun d _ => ¬d.GivesUp)
      ofEnds_not_givesUp e e (.refl e) (.refl e) (footnoteText note)
    have hnotes : e.notes = c.notes := hce.notes
    have hnot := ih hfollows he other hother
    rw [hnotes] at hnot
    exact hnot hnext

/-- Nothing is written to its end from which a circle of footnotes is reached. -/
theorem not_circles (h : (draftTop r (r.draftUpTo k) c cs).fault = none) :
    ∀ id ∈ Node.marksAll cs, ¬c.notes.Circles id :=
  r.not_circles_of_follows (draftTop_follows r (w := r.depths k k c fun d _ => ¬d.GivesUp)
    ofEnds_not_givesUp c c (.refl c) (.refl c) cs) h

end Renderer

end Folio
