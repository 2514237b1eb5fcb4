import Folio.Label
import Folio.Proofs.Table
import Mathlib.Data.List.Basic

/-!
# The label index and the pages it is built from

The index holds one flat key for a page and a label. As long as no page path holds the character
between the two, a key determines both, and looking a label up comes to the same as searching the
pages: the last heading of the name, else the first binding, else nothing. A link to a page as a
whole leads to the first heading of any page with that path.
-/

namespace Folio

open Text

namespace Path

/-- Removing leading `./` only drops characters. -/
theorem dropHere_suffix (cs : List Char) : dropHere cs <:+ cs := by
  fun_induction dropHere cs with
  | case1 rest ih => exact ih.trans ⟨['.', '/'], rfl⟩
  | case2 cs => exact List.suffix_refl cs

/-- A normal path is the end of the path with slashes. -/
theorem normalChars_suffix (base path : List Char) :
    normalChars base path <:+ withSlashes path := by
  have hdrop := dropHere_suffix (withSlashes path)
  simp only [normalChars]
  split
  · exact hdrop
  · generalize hafter : after? _ _ = tail
    cases tail with
    | none => exact hdrop
    | some rest => exact List.IsSuffix.trans ⟨_, (after?_eq_some_iff.mp hafter).symm⟩ hdrop

/-- Bringing a path into normal form adds no character but slashes. -/
theorem mem_of_mem_normal {base path : String} {c : Char} (h : c ∈ (normal base path).toList)
    (hc : c ≠ '/') : c ∈ path.toList := by
  rw [normal, String.toList_ofList] at h
  have hslash := (normalChars_suffix base.toList path.toList).subset h
  obtain ⟨d, hd, rfl⟩ := List.mem_map.mp hslash
  split at hc
  · exact absurd rfl hc
  · next hne => simpa only [if_neg hne] using hd

end Path

namespace Labels

/-- Whether no page of a book, and no page that one of its bindings is given to, has the character
of the index keys in its path. -/
def KeysApart (pages : List Page) : Prop :=
  ∀ p ∈ pages, '#' ∉ p.path.toList ∧ ∀ b ∈ Node.bindingsAll p.contents, '#' ∉ b.page.toList

private theorem cut_unique {c : Char} {p q m n : List Char} (hp : c ∉ p) (hq : c ∉ q)
    (h : p ++ c :: m = q ++ c :: n) : p = q ∧ m = n := by
  have htake (a b : List Char) (ha : c ∉ a) : (a ++ c :: b).takeWhile (· ≠ c) = a := by
    rw [List.takeWhile_append_of_pos (by simpa using fun x hx => ne_of_mem_of_not_mem hx ha)]
    simp
  have hpq : p = q := by rw [← htake p m hp, h, htake q n hq]
  subst hpq
  exact ⟨rfl, (List.cons.inj (List.append_cancel_left h)).2⟩

instance (pages : List Page) : Decidable (KeysApart pages) :=
  inferInstanceAs (Decidable (∀ p ∈ pages, _ ∧ ∀ b ∈ Node.bindingsAll p.contents, _))

/-- A key determines its path and its name up to case. -/
theorem key_inj {p q m n : String} (hp : '#' ∉ p.toList) (hq : '#' ∉ q.toList) :
    key p m = key q n ↔ p = q ∧ lower m = lower n := by
  have hlist (a b : String) : (key a b).toList = a.toList ++ '#' :: (lower b).toList := by
    simp [key]
  constructor
  · intro h
    rw [← String.toList_inj, hlist, hlist] at h
    obtain ⟨hpq, hmn⟩ := cut_unique hp hq h
    exact ⟨String.toList_inj.mp hpq, String.toList_inj.mp hmn⟩
  · rintro ⟨rfl, h⟩
    rw [key, key, h]

/-- The headings that stand on a path, in the order of the book; several pages may share it. -/
def headingsOn (base : String) (pages : List Page) (path : String) : List Heading :=
  (pages.filter fun p => Path.normal base p.path = path).flatMap fun p =>
    Node.headingsAll p.contents

/-- The page that a binding belongs to: the one it names, or else the one it stands on. -/
def owner (p : Page) (b : Binding) : String := if b.page = "" then p.path else b.page

/-- The bindings that belong to a path, in the order of the book. -/
def bindingsOn (base : String) (pages : List Page) (path : String) : List Binding :=
  pages.flatMap fun p =>
    (Node.bindingsAll p.contents).filter fun b => Path.normal base (owner p b) = path

/-- The last heading of a name on a path, whatever its case. -/
def lastHeading? (base : String) (pages : List Page) (path name : String) : Option Heading :=
  ((headingsOn base pages path).filter fun h => lower h.label = lower name).getLast?

/-- The first binding of a name on a path, whatever its case. -/
def firstBinding? (base : String) (pages : List Page) (path name : String) : Option Binding :=
  (bindingsOn base pages path).find? fun b => lower b.name = lower name

/-- The labels of the headings on a path are the entries of the index for that path. -/
theorem filter_headingIds (base : String) (pages : List Page) (path : String) :
    ((headingIds base pages).filter fun id => id.page = path) =
      (headingsOn base pages path).map fun h => ⟨path, h.label⟩ := by
  induction pages with
  | nil => rfl
  | cons p rest ih =>
    have hcons : headingIds base (p :: rest) =
        ((Node.headingsAll p.contents).map fun h => ⟨Path.normal base p.path, h.label⟩) ++
          headingIds base rest := rfl
    rw [hcons, List.filter_append, ih, List.filter_map]
    by_cases hp : Path.normal base p.path = path
    · subst hp
      simp [headingsOn, Function.comp_def]
    · simp [headingsOn, Function.comp_def, hp]

/-- The labels of the bindings of a path are the entries of the index for that path. -/
theorem filter_bindingIds (base : String) (pages : List Page) (path : String) :
    ((bindingIds base pages).filter fun id => id.page = path) =
      (bindingsOn base pages path).map fun b => ⟨path, b.name⟩ := by
  induction pages with
  | nil => rfl
  | cons p rest ih =>
    have hcons : bindingIds base (p :: rest) =
        ((Node.bindingsAll p.contents).map fun b => ⟨Path.normal base (owner p b), b.name⟩) ++
          bindingIds base rest := rfl
    have hon : bindingsOn base (p :: rest) path =
        ((Node.bindingsAll p.contents).filter fun b => Path.normal base (owner p b) = path) ++
          bindingsOn base rest path := rfl
    have hpage : (((Node.bindingsAll p.contents).filter fun b =>
          Path.normal base (owner p b) = path).map fun b =>
            (⟨Path.normal base (owner p b), b.name⟩ : LabelId)) =
        ((Node.bindingsAll p.contents).filter fun b =>
          Path.normal base (owner p b) = path).map fun b => ⟨path, b.name⟩ := by
      refine List.map_congr_left fun b hb => ?_
      rw [of_decide_eq_true (List.mem_filter.mp hb).2]
    rw [hcons, hon, List.filter_append, ih, List.filter_map, List.map_append, ← hpage,
      Function.comp_def]

/-- No label of a book has the character of the index keys in its path. -/
theorem KeysApart.notMem_ids {pages : List Page} (hkeys : KeysApart pages) (base : String) :
    (∀ id ∈ headingIds base pages, '#' ∉ id.page.toList) ∧
      ∀ id ∈ bindingIds base pages, '#' ∉ id.page.toList := by
  constructor
  · intro id hid hmem
    obtain ⟨p, hp, hid⟩ := List.mem_flatMap.mp hid
    obtain ⟨h, _, rfl⟩ := List.mem_map.mp hid
    exact (hkeys p hp).1 (Path.mem_of_mem_normal hmem (by decide))
  · intro id hid hmem
    obtain ⟨p, hp, hid⟩ := List.mem_flatMap.mp hid
    obtain ⟨b, hb, rfl⟩ := List.mem_map.mp hid
    have howner := Path.mem_of_mem_normal hmem (by decide)
    split at howner
    · exact (hkeys p hp).1 howner
    · exact (hkeys p hp).2 b hb howner

/-- Filtering labels by their keys is filtering them by path and by name up to case. -/
theorem filter_key {ids : List LabelId} (hids : ∀ id ∈ ids, '#' ∉ id.page.toList)
    {path : String} (hpath : '#' ∉ path.toList) (name : String) :
    (ids.filter fun id => key id.page id.name = key path name) =
      (ids.filter fun id => id.page = path).filter fun id => lower id.name = lower name := by
  rw [List.filter_filter]
  refine List.filter_congr fun id hid => ?_
  rw [← Bool.decide_and, decide_eq_decide, key_inj (hids id hid) hpath, and_comm]

section Lookup

variable {pages : List Page} (base : String) (strict : Bool)

/-- A look-up in the index finds the last heading of the name, or else the first binding with the
key. -/
theorem get?_index_or (hheadings : ∀ id ∈ headingIds base pages, '#' ∉ id.page.toList)
    {path : String} (hpath : '#' ∉ path.toList) (name : String) :
    (ofPages base strict pages).index.get? (key path name) =
      ((lastHeading? base pages path name).map Heading.label).or
        (((bindingIds base pages).find? fun id => key id.page id.name = key path name).map
          LabelId.name) := by
  simp only [ofPages]
  rw [Table.get?_foldl_putNew (fun id => key id.page id.name) LabelId.name,
    Table.get?_foldl_put (fun id => key id.page id.name) LabelId.name,
    filter_key hheadings hpath, filter_headingIds, List.filter_map, List.getLast?_map,
    Option.map_map]
  simp only [Table.get?, Option.or_none]
  rfl

/-- A look-up in the index finds the last heading of the name, or else its first binding. -/
theorem get?_index (hkeys : KeysApart pages) {path : String} (hpath : '#' ∉ path.toList)
    (name : String) :
    (ofPages base strict pages).index.get? (key path name) =
      ((lastHeading? base pages path name).map Heading.label).or
        ((firstBinding? base pages path name).map Binding.name) := by
  obtain ⟨hheadings, hbindings⟩ := hkeys.notMem_ids base
  rw [get?_index_or base strict hheadings hpath, ← List.head?_filter,
    filter_key hbindings hpath, filter_bindingIds, List.filter_map, List.head?_map,
    List.head?_filter, Option.map_map]
  rfl

/-- The first label of a path is that of the first heading on it. -/
theorem get?_first (pages : List Page) (path : String) :
    (ofPages base strict pages).first.get? path =
      (headingsOn base pages path).head?.map Heading.label := by
  simp only [ofPages]
  rw [Table.get?_foldl_putNew LabelId.page LabelId.name, ← List.head?_filter, filter_headingIds,
    List.head?_map, Option.map_map]
  rfl

/-- What a link to a fragment of a path leads to when the pages themselves are searched. -/
def scan (pages : List Page) (path fragment : String) : Except Fault String :=
  if fragment = "" then .ok (((headingsOn base pages path).head?.map Heading.label).getD pageLabel)
  else match lastHeading? base pages path fragment, firstBinding? base pages path fragment with
    | some h, _ => .ok h.label
    | none, some b => .ok b.name
    | none, none => if strict then .error (.unresolved fragment path) else .ok fragment

/-- Looking up and searching come to the same. -/
theorem resolveName_ofPages (hkeys : KeysApart pages) {page : String} (hpage : '#' ∉ page.toList)
    (fragment : String) :
    (ofPages base strict pages).resolveName page fragment =
      scan base strict pages (Path.normal base page) fragment := by
  have hpath : '#' ∉ (Path.normal base page).toList :=
    fun h => hpage (Path.mem_of_mem_normal h (by decide))
  have hbase : (ofPages base strict pages).base = base := rfl
  have hstrict : (ofPages base strict pages).strict = strict := rfl
  simp only [resolveName, scan, hbase, hstrict, get?_first, get?_index base strict hkeys hpath]
  split
  · rfl
  · cases lastHeading? base pages (Path.normal base page) fragment with
    | some h => rfl
    | none => cases firstBinding? base pages (Path.normal base page) fragment <;> rfl

/-- A search fails in strict mode only, and only for a fragment that names nothing. -/
theorem scan_eq_error_iff (path fragment : String) (f : Fault) :
    scan base strict pages path fragment = .error f ↔
      strict = true ∧ fragment ≠ "" ∧ lastHeading? base pages path fragment = none ∧
        firstBinding? base pages path fragment = none ∧ f = .unresolved fragment path := by
  simp only [scan]
  split
  · next h => simp [h]
  · next h =>
    cases lastHeading? base pages path fragment with
    | some _ => simp
    | none =>
      cases firstBinding? base pages path fragment with
      | some _ => simp
      | none => cases strict <;> simp [h, eq_comm]

/-- A page has headings in the index exactly when one stands on its path. -/
theorem hasHeadings_ofPages (pages : List Page) (page : String) :
    (ofPages base strict pages).hasHeadings page = true ↔
      headingsOn base pages (Path.normal base page) ≠ [] := by
  have hbase : (ofPages base strict pages).base = base := rfl
  rw [hasHeadings, Table.has, hbase, get?_first]
  cases headingsOn base pages (Path.normal base page) <;> simp

/-- Without a fragment, a path leads to the label of a page as a whole exactly when no heading
stands on it whose label is another. -/
theorem scan_eq_pageLabel_iff (path : String) :
    scan base strict pages path "" = .ok pageLabel ↔
      ∀ h, (headingsOn base pages path).head? = some h → h.label = pageLabel := by
  rw [scan, if_pos rfl]
  cases (headingsOn base pages path).head? <;> simp

/-- The index agrees with the pages: a fragment leads to what a search of the pages finds, and it is
a fault exactly when strict mode finds nothing. Without a fragment, the label of a page as a whole
is found exactly when no heading stands on the path, or the first one has that very label; the index
knows which of the two it is. -/
theorem index_agrees_with_pages (hkeys : KeysApart pages) {page : String}
    (hpage : '#' ∉ page.toList) (fragment : String) :
    (ofPages base strict pages).resolveName page fragment =
        scan base strict pages (Path.normal base page) fragment ∧
      (∀ f, (ofPages base strict pages).resolveName page fragment = .error f ↔
        strict = true ∧ fragment ≠ "" ∧
          lastHeading? base pages (Path.normal base page) fragment = none ∧
          firstBinding? base pages (Path.normal base page) fragment = none ∧
          f = .unresolved fragment (Path.normal base page)) ∧
      ((ofPages base strict pages).resolveName page "" = .ok pageLabel ↔
        ∀ h, (headingsOn base pages (Path.normal base page)).head? = some h →
          h.label = pageLabel) ∧
      ((ofPages base strict pages).hasHeadings page = false ↔
        headingsOn base pages (Path.normal base page) = []) := by
  have hscan := resolveName_ofPages base strict hkeys hpage
  refine ⟨hscan fragment, fun f => ?_, ?_, ?_⟩
  · rw [hscan, scan_eq_error_iff]
  · rw [hscan, scan_eq_pageLabel_iff]
  · rw [← Bool.not_eq_true, hasHeadings_ofPages, ne_eq, not_not]

/-- Two pages of one path, with names that differ in case only and a binding under one of them. -/
def sharedPath : List Page := [
  ⟨"./build/guide.md", some (.document [.heading 2 [.text "Intro"] none,
    .binding "setup" "Function" [] ""]), "", 1⟩,
  ⟨"build\\guide.md", some (.document [.quote [.heading 1 [.text "INTRO"] none],
    .heading 1 [.text "Setup"] (some "")]), "", 2⟩]

theorem index_agrees_with_pages_sharedPath :
    KeysApart sharedPath ∧ '#' ∉ "guide.md".toList ∧
      (ofPages "build/" true sharedPath).resolveName "guide.md" "intro" = .ok "INTRO" ∧
      (ofPages "build/" true sharedPath).resolveName "guide.md" "" ≠ .ok pageLabel := by
  have hkeys : KeysApart sharedPath := by decide
  obtain ⟨hscan, -, hpage, -⟩ :=
    index_agrees_with_pages "build/" true hkeys (show '#' ∉ "guide.md".toList by decide) "intro"
  refine ⟨hkeys, by decide, ?_, fun h => ?_⟩
  · rw [hscan]
    rfl
  · exact absurd (hpage.mp h _ rfl) (by decide)

/-- A page whose one heading spells the label of a page as a whole. -/
def pageNamedPage : List Page := [
  ⟨"p.md", some (.document [.heading 1 [.code "__page__"] none]), "", 1⟩]

/-- The label of a page as a whole may be found on a path where a heading stands. -/
theorem not_pageLabel_iff_no_heading :
    ¬∀ (base : String) (strict : Bool) (pages : List Page) (page : String), KeysApart pages →
      '#' ∉ page.toList → ((ofPages base strict pages).resolveName page "" = .ok pageLabel ↔
        headingsOn base pages (Path.normal base page) = []) := by
  intro h
  have hnone := (h "" false pageNamedPage "p.md" (by decide) (by decide)).mp rfl
  exact absurd hnone (by decide)

end Lookup

end Labels

end Folio
