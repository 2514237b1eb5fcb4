import Folio.Node.Stack
import Folio.Proofs.Node.Notes
import Mathlib.Data.Nat.Init
import Mathlib.Logic.Function.Iterate

/-!
# Walks with a stack as recursions

With the nodes to be visited in order, the first of them on top of the stack, a turn puts what is
below this one in its place. So a walk gathers what a recursion gathers that goes through what is
below a node and then on, and it comes to its end because there are fewer nodes left after each
turn. The headings, the bindings and the footnotes of a tree, each of them gathered with a stack,
are those of the recursions.
-/

namespace Folio

variable {α β : Type}

/-- A search that finds nothing more is the search so far. -/
theorem FootnoteSearch.append_nothing (s : FootnoteSearch) : s ++ nothing = s := by
  rw [append_eq]
  cases hcomplete : s.complete with
  | false => rfl
  | true => simp [nothing, ← hcomplete]

namespace Node

/-! ### The recursions, one node at a time -/

/-- Things are listed by recursion: what is taken from a node, or else what its children list. -/
def Lists (take? : Node → Option β) (list : Node → List β) : Prop :=
  ∀ n, list n = match take? n with
    | some taken => [taken]
    | none => n.children.flatMap list

/-- The bindings of nodes are those of each of them, in order. -/
theorem bindingsAll_eq_flatMap (ns : List Node) : bindingsAll ns = ns.flatMap bindings := by
  induction ns with
  | nil => rfl
  | cons n rest ih => rw [bindingsAll, ih, List.flatMap_cons]

/-- The walk for headings takes them from the headings. -/
theorem lists_headings : Lists heading? headings := by
  intro n
  rw [← headingsAll_eq_flatMap]
  cases n <;> rfl

/-- The walk for bindings takes them from the bindings. -/
theorem lists_bindings : Lists binding? bindings := by
  intro n
  rw [← bindingsAll_eq_flatMap]
  cases n <;> rfl

/-- Walking deep into nodes walks into each of them, in order. -/
theorem deepWalkAll_eq_flatMap (ns : List Node) : deepWalkAll ns = ns.flatMap deepWalk := by
  induction ns with
  | nil => rfl
  | cons n rest ih => rw [deepWalkAll, ih, List.flatMap_cons]

/-- Walking deep into bodies walks into the trees that they hold. -/
theorem deepWalkBodies_eq (bodies : List Node) :
    deepWalkBodies bodies = deepWalkAll (bodies.filterMap tree?) := by
  induction bodies with
  | nil => rfl
  | cons b rest ih =>
    cases b with
    | body tree source => exact congrArg (tree.deepWalk ++ ·) ih
    | _ => exact ih

/-- The walk with the documentation starts with the node and goes on through what is below it. -/
theorem deepWalk_eq (n : Node) : n.deepWalk = n :: n.branches.flatMap deepWalk := by
  rw [← deepWalkAll_eq_flatMap]
  cases n with
  | binding name category bodies page =>
    rw [deepWalk, deepWalkBodies_eq]
    rfl
  | _ => simp [deepWalk, branches, children, bodies, deepWalkAll]

/-- Searching bodies searches the trees that they hold. -/
theorem searchBodies_eq (bodies : List Node) :
    searchBodies bodies = searchFootnotesAll (bodies.filterMap tree?) := by
  induction bodies with
  | nil => rfl
  | cons b rest ih =>
    cases b with
    | body tree source => exact congrArg (tree.searchFootnotes ++ ·) ih
    | _ => exact ih

/-- The search finds the footnote that a node is, and goes on through what is below the node. -/
theorem searchFootnotes_branches (n : Node) : n.searchFootnotes =
    if n.bodies.all isBody then ⟨n.note?.toList, true⟩ ++ searchFootnotesAll n.branches
    else .stopped := by
  have hnothing (s : FootnoteSearch) : ⟨[], true⟩ ++ s = s := rfl
  cases n with
  | binding name category bodies page =>
    rw [searchFootnotes, searchBodies_eq]
    rfl
  | footnote id cs => simp [searchFootnotes, branches, bodies, children, note?]
  | _ =>
    simp [searchFootnotes, FootnoteSearch.nothing, branches, children, bodies, searchFootnotesAll,
      note?, hnothing]

/-- A search goes through nodes if it goes through each of them. -/
theorem complete_searchFootnotesAll_iff (ns : List Node) :
    (searchFootnotesAll ns).complete = true ↔ ∀ n ∈ ns, n.isSearchable = true := by
  induction ns with
  | nil => exact iff_of_true rfl nofun
  | cons n rest ih =>
    rw [searchFootnotesAll, FootnoteSearch.complete_append, Bool.and_eq_true, ih,
      List.forall_mem_cons, isSearchable]

/-- A walk meets the node that it starts from. -/
theorem deepWalk_ne_nil (n : Node) : n.deepWalk ≠ [] := by
  rw [deepWalk_eq]
  exact List.cons_ne_nil _ _

/-- The walk with the documentation meets fewer nodes below a node than with it. -/
theorem length_deepWalkAll_branches (n : Node) :
    (deepWalkAll n.branches).length < n.deepWalk.length := by
  rw [deepWalk_eq, deepWalkAll_eq_flatMap, List.length_cons]
  exact Nat.lt_succ_self _

/-- What holds of a node if it holds of all that is below it holds of all nodes. -/
theorem induction_branches {p : Node → Prop} (h : ∀ n : Node, (∀ m ∈ n.branches, p m) → p n)
    (n : Node) : p n := by
  induction hlength : n.deepWalk.length using Nat.strong_induction_on generalizing n with
  | _ k ih =>
    subst hlength
    refine h n fun m hm => ih m.deepWalk.length ?_ m rfl
    have hsub : m.deepWalk.length ≤ (n.branches.flatMap deepWalk).length :=
      (List.sublist_flatten_of_mem (List.mem_map_of_mem hm)).length_le
    rw [deepWalk_eq n, List.length_cons]
    exact Nat.lt_succ_of_le hsub

/-- Every binding that the walk with the documentation meets holds nothing but documentation
bodies. -/
def BodiesOnly (n : Node) : Prop := ∀ m ∈ n.deepWalk, ∀ b ∈ m.bodies, b.isBody = true

instance (n : Node) : Decidable n.BodiesOnly := inferInstanceAs (Decidable (∀ m ∈ n.deepWalk, _))

/-- A search comes to its end if every binding that it meets holds nothing but documentation
bodies. -/
theorem isSearchable_iff (n : Node) : n.isSearchable = true ↔ n.BodiesOnly := by
  induction n using induction_branches with
  | h n ih =>
    have hbranches : (searchFootnotesAll n.branches).complete = true ↔
        ∀ m ∈ n.branches.flatMap deepWalk, ∀ b ∈ m.bodies, b.isBody = true := by
      rw [complete_searchFootnotesAll_iff, List.forall_mem_flatMap]
      exact forall₂_congr ih
    rw [BodiesOnly, deepWalk_eq, List.forall_mem_cons, ← hbranches, isSearchable,
      searchFootnotes_branches]
    by_cases hbodies : n.bodies.all isBody = true
    · rw [if_pos hbodies, FootnoteSearch.complete_append, Bool.true_and]
      simpa using fun _ => hbodies
    · rw [if_neg hbodies]
      exact iff_of_false Bool.false_ne_true fun h => hbodies (by simpa using h.1)

end Node

/-! ### Walks with a stack -/

namespace Visitor

/-- Goes on unless there is a fault. -/
def goOn : α × Option Fault → (α → α × Option Fault) → α × Option Fault
  | (gathered, none), next => next gathered
  | (gathered, some f), _ => (gathered, some f)

/-- What nodes come to one after the other, if each of them comes to something by itself. -/
def visitAll (visit : Node → α → α × Option Fault) : List Node → α → α × Option Fault
  | [], gathered => (gathered, none)
  | n :: rest, gathered => goOn (visit n gathered) (visitAll visit rest)

/-- Visiting nodes in two parts goes on behind the first part unless a fault ended it. -/
theorem visitAll_append (visit : Node → α → α × Option Fault) (ns ms : List Node) (gathered : α) :
    visitAll visit (ns ++ ms) gathered = goOn (visitAll visit ns gathered) (visitAll visit ms) := by
  induction ns generalizing gathered with
  | nil => rfl
  | cons n rest ih =>
    rw [List.cons_append, visitAll, visitAll]
    cases visit n gathered with
    | mk gathered fault =>
      cases fault with
      | none => exact ih gathered
      | some f => rfl

variable {v : Visitor α}

/-- A recursion does what a visitor does at a node, and goes on through what is below it. -/
def Recurs (v : Visitor α) (visit : Node → α → α × Option Fault) : Prop :=
  ∀ n gathered, visit n gathered = match v.below n with
    | .ok ns => visitAll visit ns (v.gather n gathered)
    | .error f => (v.gather n gathered, some f)

/-- Fewer nodes are met below a node than with it. -/
def Descends (v : Visitor α) : Prop :=
  ∀ n ns, v.below n = .ok ns → (Node.deepWalkAll ns).length < n.deepWalk.length

/-- After some turns a walk is over, with something gathered, by a fault or without. -/
def Ends (v : Visitor α) (s : Visit α) (gathered : α) (fault : Option Fault) : Prop :=
  ∃ turns, (v.turn^[turns] s).isOver = true ∧ (v.turn^[turns] s).gathered = gathered ∧
    (v.turn^[turns] s).fault = fault

/-- A visit that is over ends with what it has gathered. -/
theorem ends_of_isOver {s : Visit α} (h : s.isOver = true) : v.Ends s s.gathered s.fault :=
  ⟨0, h, rfl, rfl⟩

/-- A visit ends with what its next turn ends with. -/
theorem ends_of_turn {s : Visit α} {gathered : α} {fault : Option Fault}
    (h : v.Ends (v.turn s) gathered fault) : v.Ends s gathered fault := by
  obtain ⟨turns, h⟩ := h
  exact ⟨turns + 1, h⟩

/-- A turn visits the first node, and puts what is below it in its place. -/
theorem turn_start (n : Node) (rest : List Node) (gathered : α) :
    v.turn (.start (n :: rest) gathered) = match v.below n with
      | .ok ns => .start (ns ++ rest) (v.gather n gathered)
      | .error f => ⟨rest.reverse, v.gather n gathered, some f⟩ := by
  cases hbelow : v.below n <;>
    simp only [turn, Visit.start, List.reverse_cons, List.getLast?_concat, List.dropLast_concat,
      List.reverse_append, hbelow]

/-- A walk with a stack comes to its end with what the recursion gathers. -/
theorem ends_of_recurs (hdescends : v.Descends) {visit : Node → α → α × Option Fault}
    (hrecurs : v.Recurs visit) (ns : List Node) (gathered : α) :
    v.Ends (.start ns gathered) (visitAll visit ns gathered).1 (visitAll visit ns gathered).2 := by
  induction hlength : (Node.deepWalkAll ns).length using Nat.strong_induction_on
    generalizing ns gathered with
  | _ k ih =>
    subst hlength
    cases ns with
    | nil => exact ends_of_isOver rfl
    | cons n rest =>
      refine ends_of_turn ?_
      rw [turn_start, visitAll, hrecurs]
      cases hbelow : v.below n with
      | error f => exact ends_of_isOver (Bool.or_true _)
      | ok ms =>
        have hless := hdescends n ms hbelow
        have hrest := ih _ ?_ (ms ++ rest) (v.gather n gathered) rfl
        · rwa [visitAll_append] at hrest
        · simp only [Node.deepWalkAll_eq_flatMap, List.flatMap_append, List.flatMap_cons,
            List.length_append] at hless ⊢
          omega

/-- A walk that lists nodes goes down as far as the recursion does. -/
theorem descends_listing (take? : Node → Option β) : (listing take?).Descends := by
  rintro n ns h
  obtain rfl := Except.ok.inj h
  have hbranches := Node.length_deepWalkAll_branches n
  have hpos := List.length_pos_iff.mpr (Node.deepWalk_ne_nil n)
  rw [Node.branches, Node.deepWalkAll_eq_flatMap, List.flatMap_append, List.length_append,
    ← Node.deepWalkAll_eq_flatMap] at hbranches
  split
  · exact hpos
  · omega

/-- What is listed with a stack is what is listed by recursion. -/
theorem ends_listing {take? : Node → Option β} {list : Node → List β}
    (h : Node.Lists take? list) (ns : List Node) :
    (listing take?).Ends (.start ns []) (ns.flatMap list) none := by
  have hall (ns : List Node) (taken : List β) :
      visitAll (fun n taken => (taken ++ list n, none)) ns taken =
        (taken ++ ns.flatMap list, none) := by
    induction ns generalizing taken with
    | nil => rw [visitAll, List.flatMap_nil, List.append_nil]
    | cons n rest ih =>
      rw [visitAll, goOn, ih, List.flatMap_cons, List.append_assoc]
  have hrecurs : (listing take?).Recurs fun n taken => (taken ++ list n, none) := by
    intro n taken
    change (taken ++ list n, none) =
      visitAll _ (if (take? n).isSome then [] else n.children) (taken ++ (take? n).toList)
    rw [hall, h n]
    cases take? n with
    | none => simp
    | some b => simp
  have hends := ends_of_recurs (descends_listing take?) hrecurs ns []
  rwa [hall, List.nil_append] at hends

/-- The search for footnotes goes down as far as the recursion does. -/
theorem descends_footnotes : footnotes.Descends := by
  intro n ns h
  change (if n.bodies.all Node.isBody then Except.ok n.branches
    else .error Fault.misplaced) = _ at h
  split at h
  · obtain rfl := Except.ok.inj h
    exact Node.length_deepWalkAll_branches n
  · cases h

/-- The footnotes that a search adds to a table, and the fault that stops it. -/
def searched (s : FootnoteSearch) (notes : Footnotes) : Footnotes × Option Fault :=
  (notes.putAll s.found, if s.complete then none else some .misplaced)

/-- A search in two parts goes on behind the first part unless that was not complete. -/
theorem searched_append (s t : FootnoteSearch) (notes : Footnotes) :
    searched (s ++ t) notes = goOn (searched s notes) (searched t) := by
  rw [FootnoteSearch.append_eq, searched, searched]
  cases hcomplete : s.complete with
  | false => simp [hcomplete, goOn]
  | true => simp [goOn, searched, Table.putAll, List.foldl_append]

/-- Searching nodes one by one gathers what searching all of them does. -/
theorem visitAll_searched (ns : List Node) (notes : Footnotes) :
    visitAll (fun n => searched n.searchFootnotes) ns notes =
      searched (Node.searchFootnotesAll ns) notes := by
  induction ns generalizing notes with
  | nil => rfl
  | cons n rest ih => rw [visitAll, Node.searchFootnotesAll, searched_append, funext ih]

/-- The visitor gathers the footnote that a node is. -/
theorem gather_footnotes (n : Node) (notes : Footnotes) :
    footnotes.gather n notes = notes.putAll n.note?.toList := by
  cases n <;> rfl

/-- The search for footnotes is what the visitor does by recursion. -/
theorem recurs_footnotes : footnotes.Recurs fun n => searched n.searchFootnotes := by
  intro n notes
  change searched n.searchFootnotes notes =
    match if n.bodies.all Node.isBody then Except.ok n.branches else .error Fault.misplaced with
    | .ok ns => visitAll (fun n => searched n.searchFootnotes) ns (footnotes.gather n notes)
    | .error f => (footnotes.gather n notes, some f)
  rw [Node.searchFootnotes_branches]
  by_cases hbodies : n.bodies.all Node.isBody = true
  · rw [if_pos hbodies, if_pos hbodies, searched_append]
    change searched (Node.searchFootnotesAll n.branches) (notes.putAll n.note?.toList) = _
    rw [gather_footnotes, ← visitAll_searched]
  · have hnote : n.note? = none := by
      cases n with
      | footnote id cs => exact absurd rfl hbodies
      | _ => rfl
    rw [if_neg hbodies, if_neg hbodies, gather_footnotes, hnote]
    rfl

end Visitor

namespace Node

/-- The walks with a stack come to their ends with what the recursions list: headings and bindings
in document order, none below another one and none in documentation; and the footnotes of a walk
that goes through the children and then through the documentation, the last one of each name in the
place of the first one, with the rest of the table as it was. Only a binding that holds something
else than documentation bodies stops the search for footnotes. -/
theorem stack_walks_recurse :
    (Lists heading? headings ∧ Lists binding? bindings ∧
      ∀ n : Node, n.deepWalk = n :: n.branches.flatMap deepWalk) ∧
    (∀ ns, Visitor.headings.Ends (.start ns []) (ns.flatMap headings) none ∧
      Visitor.bindings.Ends (.start ns []) (ns.flatMap bindings) none) ∧
    ∀ (n : Node) (notes : Footnotes),
      Visitor.footnotes.Ends (.start [n] notes) (n.collectFootnotes notes)
        (if n.BodiesOnly then none else some .misplaced) ∧
      (n.BodiesOnly →
        Table.Updates (n.deepWalk.filterMap note?) notes (n.collectFootnotes notes)) := by
  refine ⟨⟨lists_headings, lists_bindings, deepWalk_eq⟩, fun ns => ⟨?_, ?_⟩,
    fun n notes => ⟨?_, ?_⟩⟩
  · exact Visitor.ends_listing lists_headings ns
  · exact Visitor.ends_listing lists_bindings ns
  · have hends := Visitor.ends_of_recurs Visitor.descends_footnotes Visitor.recurs_footnotes
      [n] notes
    rw [Visitor.visitAll_searched, searchFootnotesAll, searchFootnotesAll,
      FootnoteSearch.append_nothing] at hends
    simp only [← isSearchable_iff]
    exact hends
  · intro hbodies
    have hfound : n.footnotes = n.deepWalk.filterMap note? :=
      searchFootnotes_finds n ((isSearchable_iff n).mpr hbodies)
    rw [collectFootnotes, hfound]
    exact Table.updates_putAll _ notes

/-- Footnotes in footnotes, in documentation and in a quote, two of them with names from before. -/
def notedTree : Node := .document [
  .footnote "b" [.text "1", .footnote "a" [.text "2"]],
  .binding "f" "Function"
    [.body (.document [.footnote "c" [], .footnote "a" [.text "3"], .heading 1 [] none]) none] "",
  .heading 1 [.binding "g" "Function" [] ""] none,
  .quote [.footnote "b" [.text "4"], .heading 2 [] none]]

/-- A tree with a footnote in a body and one that is defined twice is walked in all three ways. -/
theorem stack_walks_recurse_notedTree :
    notedTree.BodiesOnly ∧
      (notedTree.collectFootnotes [("a", [.text "0"]), ("z", [])]).get? "a" = some [.text "3"] ∧
      (notedTree.collectFootnotes [("a", [.text "0"]), ("z", [])]).keys = ["a", "z", "b", "c"] := by
  have hbodies : notedTree.BodiesOnly := by decide
  obtain ⟨-, -, hwalk⟩ := stack_walks_recurse
  obtain ⟨-, hcollect⟩ := hwalk notedTree [("a", [.text "0"]), ("z", [])]
  have hupdates := hcollect hbodies
  exact ⟨hbodies, hupdates.get? "a", hupdates.keys⟩

end Node

end Folio
