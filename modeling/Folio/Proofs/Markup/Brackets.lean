import Folio.Markup.Escape
import Folio.Text.Cut
import Mathlib.Data.List.Basic

/-!
# Well-nested brackets

A text is well nested if every closing bracket, round or square, matches the most recent open one
and none is left open. Reading it with a stack of the closing brackets that are awaited accepts
exactly these texts, and what a part of a text opens or closes is what it does to the stack.
-/

namespace Folio.Markup

/-- The brackets that count. -/
def brackets : List Char := ['(', ')', '[', ']']

/-- The texts in which round and square brackets match. -/
inductive WellNested : List Char → Prop
  | nil : WellNested []
  | other {c : Char} {rest : List Char} (hc : c ∉ brackets) (hrest : WellNested rest) :
    WellNested (c :: rest)
  | round {inside rest : List Char} (hinside : WellNested inside) (hrest : WellNested rest) :
    WellNested ('(' :: inside ++ ')' :: rest)
  | square {inside rest : List Char} (hinside : WellNested inside) (hrest : WellNested rest) :
    WellNested ('[' :: inside ++ ']' :: rest)

/-- The closing brackets awaited behind a character, the next one first, given those awaited before
it. A closing bracket must be the one awaited next. -/
def await (stack : List Char) (c : Char) : Option (List Char) :=
  if c = '(' then some (')' :: stack)
  else if c = '[' then some (']' :: stack)
  else if c = ')' ∨ c = ']' then
    if stack.head? = some c then some stack.tail else none
  else some stack

/-- The closing brackets awaited behind a text. -/
def awaited (stack cs : List Char) : Option (List Char) := cs.foldlM await stack

/-- Characters are read from the front. -/
theorem awaited_cons (stack : List Char) (c : Char) (cs : List Char) :
    awaited stack (c :: cs) = (await stack c).bind (awaited · cs) := rfl

/-- A text in two parts is read one part after the other. -/
theorem awaited_append (stack a b : List Char) :
    awaited stack (a ++ b) = (awaited stack a).bind (awaited · b) :=
  List.foldlM_append

/-- A character that is no bracket leaves the stack as it is. -/
theorem await_other {c : Char} (hc : c ∉ brackets) (stack : List Char) :
    await stack c = some stack := by
  simp only [brackets, List.mem_cons, List.not_mem_nil, or_false, not_or] at hc
  simp [await, hc]

/-- A text without brackets is well nested. -/
theorem WellNested.of_forall {cs : List Char} (h : ∀ c ∈ cs, c ∉ brackets) : WellNested cs := by
  induction cs with
  | nil => exact .nil
  | cons c rest ih =>
    exact .other (h c List.mem_cons_self) (ih fun d hd => h d (List.mem_cons_of_mem _ hd))

/-- A well-nested text leaves the stack as it is. -/
theorem WellNested.awaited_eq {cs : List Char} (h : WellNested cs) (stack : List Char) :
    awaited stack cs = some stack := by
  induction h generalizing stack with
  | nil => rfl
  | other hc _ ih => rw [awaited_cons, await_other hc, Option.bind_some, ih]
  | round _ _ ihinside ihrest =>
    rw [List.cons_append, awaited_cons, await, if_pos rfl, Option.bind_some, awaited_append,
      ihinside, Option.bind_some, awaited_cons]
    exact ihrest stack
  | square _ _ ihinside ihrest =>
    rw [List.cons_append, awaited_cons]
    change awaited (']' :: stack) _ = _
    rw [awaited_append, ihinside, Option.bind_some, awaited_cons]
    exact ihrest stack

/-- The texts that close what is awaited: well-nested texts, with the awaited brackets between
them. -/
def Closing : List Char → List Char → Prop
  | [], cs => WellNested cs
  | next :: stack, cs =>
    ∃ inside rest, cs = inside ++ next :: rest ∧ WellNested inside ∧ Closing stack rest

/-- What may stand in front of every well-nested text may stand in front of a closing text. -/
theorem Closing.prepend (front : List Char)
    (hfront : ∀ rest, WellNested rest → WellNested (front ++ rest)) {stack cs : List Char}
    (h : Closing stack cs) : Closing stack (front ++ cs) := by
  cases stack with
  | nil => exact hfront cs h
  | cons next stack =>
    obtain ⟨inside, rest, rfl, hinside, hrest⟩ := h
    exact ⟨front ++ inside, rest, (List.append_assoc ..).symm, hfront inside hinside, hrest⟩

/-- A text behind which nothing is awaited closes what was awaited in front of it. -/
theorem closing_of_awaited {stack cs : List Char} (h : awaited stack cs = some []) :
    Closing stack cs := by
  induction cs generalizing stack with
  | nil =>
    obtain rfl : stack = [] := Option.some.inj h
    exact .nil
  | cons c cs ih =>
    rw [awaited_cons] at h
    by_cases hround : c = '('
    · subst hround
      obtain ⟨inside, rest, rfl, hinside, hrest⟩ : Closing (')' :: stack) cs := ih h
      have hgroup := hrest.prepend ('(' :: inside ++ [')'])
        fun rest hrest => by simpa using WellNested.round hinside hrest
      simpa using hgroup
    by_cases hsquare : c = '['
    · subst hsquare
      obtain ⟨inside, rest, rfl, hinside, hrest⟩ : Closing (']' :: stack) cs := ih h
      have hgroup := hrest.prepend ('[' :: inside ++ [']'])
        fun rest hrest => by simpa using WellNested.square hinside hrest
      simpa using hgroup
    rw [await, if_neg hround, if_neg hsquare] at h
    split at h
    · split at h
      · next hhead =>
        obtain ⟨rest, rfl⟩ := List.head?_eq_some_iff.mp hhead
        exact ⟨[], cs, rfl, .nil, ih h⟩
      · cases h
    · next hclosing =>
      have hc : c ∉ brackets := by
        simpa [brackets, hround, hsquare, not_or] using hclosing
      exact (ih h).prepend [c] fun rest hrest => .other hc hrest

/-- The stack tells the well-nested texts. -/
theorem wellNested_iff {cs : List Char} : WellNested cs ↔ awaited [] cs = some [] :=
  ⟨fun h => h.awaited_eq [], closing_of_awaited⟩

instance (cs : List Char) : Decidable (WellNested cs) := decidable_of_iff _ wellNested_iff.symm

example : WellNested "#table((1fr,), [a], [#mi(\"b\")])".toList := by decide

example : ¬WellNested "#strong([a)]".toList := by decide

/-- A text without brackets. -/
def Bare (s : String) : Prop := ∀ c ∈ s.toList, c ∉ brackets

instance (s : String) : Decidable (Bare s) := List.decidableBAll _ s.toList

theorem Bare.append {s t : String} (hs : Bare s) (ht : Bare t) : Bare (s ++ t) := by
  intro c hc
  rw [String.toList_append, List.mem_append] at hc
  exact hc.elim (hs c) (ht c)

/-- A text whose characters are those of a text without brackets, or none themselves. -/
theorem Bare.of_subset {s t : String} (hs : Bare s)
    (h : ∀ c ∈ t.toList, c ∈ s.toList ∨ c ∉ brackets) : Bare t :=
  fun c hc => (h c hc).elim (hs c) id

/-- Behind a text, `after` is awaited where `before` was awaited in front of it. -/
def Turns (before after : List Char) (s : String) : Prop :=
  ∀ stack, awaited (before ++ stack) s.toList = some (after ++ stack)

namespace Turns

variable {a b c : List Char} {s t : String}

/-- What a text opens or closes is what its parts do one after the other. -/
theorem append (hs : Turns a b s) (ht : Turns b c t) : Turns a c (s ++ t) := by
  intro stack
  rw [String.toList_append, awaited_append, hs stack, Option.bind_some, ht stack]

/-- A text without brackets leaves awaited what was. -/
theorem bare (hs : Bare s) (a : List Char) : Turns a a s :=
  fun stack => (WellNested.of_forall hs).awaited_eq (a ++ stack)

/-- A text that leaves nothing awaited where nothing was is well nested. -/
theorem wellNested (h : Turns [] [] s) : WellNested s.toList := wellNested_iff.mpr (h [])

end Turns

end Folio.Markup
