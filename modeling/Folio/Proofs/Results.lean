import Mathlib.Data.List.Forall2

/-!
# Results in order

A sequence of steps that may fail has a result if each step has one. A function that is applied to
the elements of a list in order relates the list to the list of its results, element by element, and
what holds of the elements is handed on along the relation.
-/

namespace Folio

variable {α β γ ε : Type}

/-- A step that goes on with the result of another one succeeds when both do. -/
theorem bind_ok {first : Except ε α} {next : α → Except ε β} {b : β}
    (h : first >>= next = .ok b) : ∃ a, first = .ok a ∧ next a = .ok b := by
  cases first with
  | error e => cases h
  | ok a => exact ⟨a, rfl, h⟩

section Related

variable {R : α → β → Prop} {l : List α} {l' : List β}

/-- What stands on the right of lists that are related in order is related to something on the
left. -/
theorem exists_left_of_forall₂ (h : List.Forall₂ R l l') {b : β} (hb : b ∈ l') :
    ∃ a ∈ l, R a b := by
  induction h with
  | nil => cases hb
  | cons hfirst _ ih =>
    rcases List.mem_cons.mp hb with rfl | hb
    · exact ⟨_, List.mem_cons_self, hfirst⟩
    · obtain ⟨a, ha, hab⟩ := ih hb
      exact ⟨a, List.mem_cons_of_mem _ ha, hab⟩

/-- Lists that are related in order have the same attributes if related elements have. -/
theorem map_eq_map_of_forall₂ {f : α → γ} {g : β → γ} (h : List.Forall₂ R l l')
    (hR : ∀ a b, R a b → g b = f a) : l'.map g = l.map f := by
  induction h with
  | nil => rfl
  | cons hfirst _ ih => rw [List.map_cons, List.map_cons, hR _ _ hfirst, ih]

/-- A property is handed on along related lists. -/
theorem forall_mem_of_forall₂ {p : α → Prop} {q : β → Prop} (hR : ∀ a b, R a b → p a → q b)
    (h : List.Forall₂ R l l') (hl : ∀ a ∈ l, p a) : ∀ b ∈ l', q b := by
  intro b hb
  obtain ⟨a, ha, hab⟩ := exists_left_of_forall₂ h hb
  exact hR a b hab (hl a ha)

end Related

section InOrder

variable {f : α → Except ε β} {l : List α} {l' : List β}

/-- Results of a function in order are results for the arguments in order. -/
theorem forall₂_of_mapM_eq_ok (h : l.mapM f = .ok l') :
    List.Forall₂ (fun a b => f a = .ok b) l l' := by
  induction l generalizing l' with
  | nil =>
    cases h
    exact .nil
  | cons a rest ih =>
    rw [List.mapM_cons] at h
    obtain ⟨b, hb, h⟩ := bind_ok h
    obtain ⟨bs, hbs, h⟩ := bind_ok h
    cases h
    exact .cons hb (ih hbs)

/-- A result of a function in order is the result for one of the arguments. -/
theorem exists_of_mem_of_mapM_eq_ok (h : l.mapM f = .ok l') {b : β} (hb : b ∈ l') :
    ∃ a ∈ l, f a = .ok b :=
  exists_left_of_forall₂ (forall₂_of_mapM_eq_ok h) hb

/-- A function that succeeds in order has a result for each of the arguments. -/
theorem exists_result_of_mapM_eq_ok (h : l.mapM f = .ok l') {a : α} (ha : a ∈ l) :
    ∃ b ∈ l', f a = .ok b :=
  exists_left_of_forall₂ (forall₂_of_mapM_eq_ok h).flip ha

end InOrder

end Folio
