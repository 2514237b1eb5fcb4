import Folio.Proofs.Label.Index
import Mathlib.Data.List.Perm.Basic

/-!
# The label index and the order of pages

The index of labels is filled page by page, and which of two entries with one key is kept depends on
their order. As long as pages have different paths, and no path holds the character of the keys, all
entries with a key come from one page, and so do all headings on a path. Then only the order within
a page matters, and a book answers alike in whatever order its pages are listed.
-/

namespace Folio

/-- Lists of which no two have elements are joined to the same list in any order. -/
theorem flatMap_eq_of_perm {α β : Type} {f : α → List β} {l m : List α} (hperm : l.Perm m)
    (hone : l.Pairwise fun a b => f a = [] ∨ f b = []) : l.flatMap f = m.flatMap f := by
  induction hperm with
  | nil => rfl
  | cons a _ ih => rw [List.flatMap_cons, List.flatMap_cons, ih (List.pairwise_cons.mp hone).2]
  | swap a b l =>
    have hempty : f b = [] ∨ f a = [] := (List.pairwise_cons.mp hone).1 a List.mem_cons_self
    rcases hempty with h | h <;> simp [h]
  | trans hperm _ ihl ihm =>
    rw [ihl hone]
    exact ihm (hperm.pairwise hone Or.symm)

namespace Labels

/-- Pages that can be told apart in the index: no two of them share a path, no path holds the
character of the keys, and bindings belong to the page on which they stand. Pages without contents,
such as the titles of sections, may share their path with any page. -/
structure PagesApart (base : String) (pages : List Page) : Prop where
  paths : pages.Pairwise fun p q =>
    p.contents = [] ∨ q.contents = [] ∨ Path.normal base p.path ≠ Path.normal base q.path
  keys : ∀ p ∈ pages, '#' ∉ (Path.normal base p.path).toList
  owners : ∀ p ∈ pages, ∀ b ∈ Node.bindingsAll p.contents,
    b.page = "" ∨ Path.normal base b.page = Path.normal base p.path

/-- Labels that give the same answer to every question. -/
structure AnswerAlike (labels others : Labels) : Prop where
  resolveName : ∀ page fragment, labels.resolveName page fragment = others.resolveName page fragment
  resolve : ∀ page fragment, labels.resolve page fragment = others.resolve page fragment
  id : ∀ page name, labels.id page name = others.id page name
  hasHeadings : ∀ page, labels.hasHeadings page = others.hasHeadings page

/-- Answers depend on what is found under a key and on a path only. -/
theorem AnswerAlike.of_get? {labels others : Labels} (hbase : labels.base = others.base)
    (hstrict : labels.strict = others.strict)
    (hindex : ∀ key, labels.index.get? key = others.index.get? key)
    (hfirst : ∀ path, labels.first.get? path = others.first.get? path) :
    AnswerAlike labels others := by
  have hname (page fragment : String) :
      labels.resolveName page fragment = others.resolveName page fragment := by
    simp only [Labels.resolveName, hbase, hstrict, hindex, hfirst]
  have hid : labels.id = others.id := by
    funext page name
    rw [Labels.id, Labels.id, hbase]
  constructor
  · exact hname
  · intro page fragment
    rw [Labels.resolve, Labels.resolve, hname, hid]
  · exact fun page name => congrFun (congrFun hid page) name
  · intro page
    rw [Labels.hasHeadings, Labels.hasHeadings, Table.has, Table.has, hbase, hfirst]

variable {base : String} {pages others : List Page}

/-- Whether all labels of a choice are on one page, if no path holds the character of the keys. -/
def KeepsToOnePage (choice : LabelId → Bool) : Prop :=
  ∀ i j : LabelId, '#' ∉ i.page.toList → '#' ∉ j.page.toList → choice i = true →
    choice j = true → i.page = j.page

theorem keepsToOnePage_key (k : String) : KeepsToOnePage fun id => key id.page id.name = k := by
  intro i j hi hj hik hjk
  have hsame := (of_decide_eq_true hik).trans (of_decide_eq_true hjk).symm
  exact ((key_inj hi hj).mp hsame).1

theorem keepsToOnePage_path (path : String) : KeepsToOnePage fun id => id.page = path := by
  intro i j _ _ hi hj
  exact (of_decide_eq_true hi).trans (of_decide_eq_true hj).symm

/-- Labels chosen from one page are met in the same order in whatever order the pages are listed. -/
theorem PagesApart.filter_flatMap (h : PagesApart base pages) (hperm : pages.Perm others)
    {ids : Page → List LabelId} (hnone : ∀ p ∈ pages, p.contents = [] → ids p = [])
    (hids : ∀ p ∈ pages, ∀ id ∈ ids p, id.page = Path.normal base p.path)
    {choice : LabelId → Bool} (hchoice : KeepsToOnePage choice) :
    (pages.flatMap ids).filter choice = (others.flatMap ids).filter choice := by
  rw [List.filter_flatMap, List.filter_flatMap]
  refine flatMap_eq_of_perm hperm (h.paths.imp_of_mem ?_)
  intro p q hp hq hpq
  by_contra hboth
  obtain ⟨hpne, hqne⟩ := not_or.mp hboth
  obtain ⟨i, hi⟩ := List.exists_mem_of_ne_nil _ hpne
  obtain ⟨j, hj⟩ := List.exists_mem_of_ne_nil _ hqne
  obtain ⟨hip, hichosen⟩ := List.mem_filter.mp hi
  obtain ⟨hjq, hjchosen⟩ := List.mem_filter.mp hj
  have hpath : Path.normal base p.path = Path.normal base q.path := by
    rw [← hids p hp i hip, ← hids q hq j hjq]
    apply hchoice i j
    · rw [hids p hp i hip]
      exact h.keys p hp
    · rw [hids q hq j hjq]
      exact h.keys q hq
    · exact hichosen
    · exact hjchosen
  rcases hpq with hempty | hempty | hne
  · rw [hnone p hp hempty] at hip
    cases hip
  · rw [hnone q hq hempty] at hjq
    cases hjq
  · exact hne hpath

theorem PagesApart.filter_headingIds (h : PagesApart base pages) (hperm : pages.Perm others)
    {choice : LabelId → Bool} (hchoice : KeepsToOnePage choice) :
    (headingIds base pages).filter choice = (headingIds base others).filter choice := by
  refine h.filter_flatMap hperm (fun p _ hempty => ?_) (fun p _ id hid => ?_) hchoice
  · rw [hempty]
    rfl
  · obtain ⟨_, _, rfl⟩ := List.mem_map.mp hid
    rfl

theorem PagesApart.filter_bindingIds (h : PagesApart base pages) (hperm : pages.Perm others)
    {choice : LabelId → Bool} (hchoice : KeepsToOnePage choice) :
    (bindingIds base pages).filter choice = (bindingIds base others).filter choice := by
  refine h.filter_flatMap hperm (fun p _ hempty => ?_) (fun p hp id hid => ?_) hchoice
  · rw [hempty]
    rfl
  · obtain ⟨b, hb, rfl⟩ := List.mem_map.mp hid
    split
    · rfl
    · next hpage => exact (h.owners p hp b hb).resolve_left hpage

/-- Under every key of the index the same label is found. -/
theorem PagesApart.get?_index (h : PagesApart base pages) (hperm : pages.Perm others)
    (strict : Bool) (k : String) :
    (ofPages base strict pages).index.get? k = (ofPages base strict others).index.get? k := by
  simp only [ofPages, Table.get?_foldl_putNew (fun id => key id.page id.name) LabelId.name,
    Table.get?_foldl_put (fun id => key id.page id.name) LabelId.name, ← List.head?_filter,
    h.filter_headingIds hperm (keepsToOnePage_key k),
    h.filter_bindingIds hperm (keepsToOnePage_key k)]

/-- On every path the same heading comes first. -/
theorem PagesApart.get?_first (h : PagesApart base pages) (hperm : pages.Perm others)
    (strict : Bool) (path : String) :
    (ofPages base strict pages).first.get? path = (ofPages base strict others).first.get? path := by
  simp only [ofPages, Table.get?_foldl_putNew LabelId.page LabelId.name, ← List.head?_filter,
    h.filter_headingIds hperm (keepsToOnePage_path path)]

/-- Pages that can be told apart have the same labels in whatever order they are listed: every page
and every fragment that one asks for, in strict mode or not, gets the same answer or the same
fault. -/
theorem answers_regardless_of_order (strict : Bool) (hperm : pages.Perm others)
    (h : PagesApart base pages) :
    AnswerAlike (ofPages base strict pages) (ofPages base strict others) :=
  .of_get? rfl rfl (h.get?_index hperm strict) (h.get?_first hperm strict)

/-- Two sections of one page each; the pages have names that differ in case only, a binding that
names its page, and a label with the character of the keys. -/
def sectionedPages : List Page := [
  ⟨"", none, "First", 1⟩,
  ⟨"./build/guide.md", some (.document [.heading 1 [.text "Intro"] none,
    .binding "setup" "Function" [] "build\\guide.md", .heading 2 [.text "INTRO"] none]), "", 2⟩,
  ⟨"", none, "Second", 1⟩,
  ⟨"notes.md", some (.document [.heading 1 [.text "Notes"] (some "a#b"),
    .heading 2 [.text "Setup"] none]), "", 2⟩]

theorem answers_regardless_of_order_sectionedPages :
    sectionedPages.Perm sectionedPages.reverse ∧ PagesApart "build" sectionedPages ∧
      (ofPages "build" true sectionedPages.reverse).resolveName "guide.md" "Setup" = .ok "setup" ∧
      (ofPages "build" true sectionedPages.reverse).resolveName "guide.md" "intro" = .ok "INTRO" ∧
      (ofPages "build" true sectionedPages.reverse).resolveName "guide.md" "Notes" =
        .error (.unresolved "Notes" "guide.md") := by
  have hperm : sectionedPages.Perm sectionedPages.reverse := (List.reverse_perm _).symm
  have happart : PagesApart "build" sectionedPages := by
    constructor
    · decide
    · decide
    · decide
  have halike := answers_regardless_of_order true hperm happart
  refine ⟨hperm, happart, ?_, ?_, ?_⟩
  · rw [← halike.resolveName]
    rfl
  · rw [← halike.resolveName]
    rfl
  · rw [← halike.resolveName]
    rfl

end Labels

end Folio
