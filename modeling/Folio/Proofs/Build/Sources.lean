import Folio.Proofs.Book.Compare
import Folio.Proofs.Build.Loading

/-!
# What a build writes

Behind the steps of a build that succeed, the files of the working copy are known one by one.
-/

namespace Folio.Manuscript

open Disk Job Location Text

variable (m : Manuscript)

/-- A book of some pages, where nobody looks for images and hand-written pages. -/
def bareBook (pages : List Page) : Book := .ofPages m.lexers "" m.config.strictLinks none pages

/-- The text of the book: the preamble and the pages. -/
def bookText (pages : List Page) (preamble : String) : String :=
  ((m.bareBook pages).draft preamble pages).text

/-- What the text of a hand-written page is expanded to. -/
def expansion (pages : List Page) (path text : String) : String :=
  ((m.expander (m.bareBook pages).renderer).expand path
    (String.ofList (plainLineEnds text.toList))).draft.text

variable {m} {copy : Location} {pages : List Page} {path : String} {desk desk' : Desk}

/-- A book that is written reads as if nobody had looked for images and hand-written pages. -/
theorem draft_readsAs (disk : Disk) (preamble : String) :
    ((m.book copy pages disk).draft preamble pages).ReadsAs
      ((m.bareBook pages).draft preamble pages) :=
  Book.draft_agrees (Book.agrees_unlooked _ _ _) preamble pages

theorem expand_readsAs (disk : Disk) (text : String) :
    ((m.expander (m.book copy pages disk).renderer).expand path text).draft.ReadsAs
      ((m.expander (m.bareBook pages).renderer).expand path text).draft :=
  Expander.expand_agrees (Renderer.agrees_unlooked _ _ _) (m.expander (m.bareBook pages).renderer)
    path text

/-- Looking for the style of the project changes nothing. -/
theorem customStyle_ok {style : Option String} (h : customStyle copy desk = .ok style desk') :
    desk' = desk := by
  unfold customStyle at h
  obtain ⟨found, mid, hfound, hnext⟩ := bind_eq_ok.mp h
  obtain ⟨-, rfl⟩ := read_ok hfound
  split at hnext
  · obtain ⟨text, last, htext, hend⟩ := bind_eq_ok.mp hnext
    obtain ⟨-, rfl⟩ := read_ok htext
    cases hend
    rfl
  · cases hnext
    rfl

/-- What is written as the book is its text, below a preamble with the style of the project. -/
theorem write_ok {file : Location} (h : m.write copy pages desk = .ok file desk') :
    ∃ style text, customStyle copy desk = .ok style desk ∧
      preamble m.engine m.template (m.imprint style) = .ok text ∧
      ∃ stem, artifactStem? m.config.sitename m.config.version = some stem ∧
        file = copy.below (.ofString (stem ++ ".typ")) ∧
        desk.disk.write file (.text (m.bookText pages text)) = .ok desk'.disk := by
  unfold write at h
  obtain ⟨style, mid, hstyle, hwritten⟩ := bind_eq_ok.mp h
  obtain rfl := customStyle_ok hstyle
  cases htext : preamble m.engine m.template (m.imprint style) with
  | error name =>
    rw [htext] at hwritten
    cases hwritten
  | ok text =>
    refine ⟨style, text, hstyle, htext, ?_⟩
    simp only [htext] at hwritten
    obtain ⟨_, _, hget, hdrafted⟩ := bind_eq_ok.mp hwritten
    cases hget
    obtain ⟨_, _, hnotices, hchecked⟩ := bind_eq_ok.mp hdrafted
    cases hnotices
    cases hfault : ((m.book copy pages mid.disk).draft text pages).fault with
    | some f =>
      simp only [hfault] at hchecked
      cases hchecked
    | none =>
      simp only [hfault] at hchecked
      obtain ⟨file, _, hfile, hput⟩ := bind_eq_ok.mp hchecked
      obtain ⟨rfl, stem, hstem, rfl⟩ := source_ok hfile
      obtain ⟨_, _, hwrite, hend⟩ := bind_eq_ok.mp hput
      cases hend
      rw [bookText, (draft_readsAs mid.disk text).text_eq hfault]
      exact ⟨stem, hstem, rfl, (change_ok hwrite).1⟩

/-- What is written over a hand-written page is the expansion of the text that it has. -/
theorem expandPage_ok (h : m.expandPage copy pages path desk = .ok () desk') :
    ∃ text, desk.disk.file? (copy.below (.ofString path)).resolved = some (.text text) ∧
      desk.disk.write (copy.below (.ofString path)) (.text (m.expansion pages path text)) =
        .ok desk'.disk := by
  unfold expandPage at h
  obtain ⟨text, mid, hread, hexpand⟩ := bind_eq_ok.mp h
  obtain ⟨hread, rfl⟩ := read_ok hread
  obtain ⟨s, hfile, rfl⟩ := readText_ok hread
  refine ⟨s, hfile, ?_⟩
  obtain ⟨_, _, hget, hexpanded⟩ := bind_eq_ok.mp hexpand
  cases hget
  obtain ⟨_, _, hnotices, hrecorded⟩ := bind_eq_ok.mp hexpanded
  cases hnotices
  obtain ⟨_, _, hrecord, hchecked⟩ := bind_eq_ok.mp hrecorded
  cases hrecord
  cases hfault : ((m.expander (m.book copy pages mid.disk).renderer).expand path
      (String.ofList (plainLineEnds s.toList))).draft.fault with
  | some f =>
    simp only [hfault] at hchecked
    cases hchecked
  | none =>
    simp only [hfault] at hchecked
    rw [expansion, (expand_readsAs mid.disk _).text_eq hfault]
    exact (change_ok hchecked).1

/-- What a file holds when hand-written pages are expanded in it one after the other. -/
def rewritten (m : Manuscript) (pages : List Page) (paths : List String)
    (content : Option Content) : Option Content :=
  paths.foldl (fun content path =>
    match content with
    | some (.text text) => some (.text (m.expansion pages path text))
    | other => other) content

/-- Only texts are expanded. -/
theorem text_of_rewritten {paths : List String} {content : Option Content} {text : String}
    (h : m.rewritten pages paths content = some (.text text)) :
    ∃ text, content = some (.text text) := by
  induction paths generalizing content with
  | nil => exact ⟨text, h⟩
  | cons path rest ih =>
    obtain ⟨s, hs⟩ := ih h
    change (match content with | some (.text text) => _ | other => other) = _ at hs
    split at hs
    · exact ⟨_, rfl⟩
    · exact ⟨s, hs⟩

/-- The hand-written pages among some paths that are at a place. -/
def pathsAt (copy place : Location) (paths : List String) : List String :=
  paths.filter fun path => (copy.below (.ofString path)).resolved = place

/-- Expanding a page changes the file of the page, which is a text. -/
theorem file?_expandPage (h : m.expandPage copy pages path desk = .ok () desk') :
    (∃ text, desk.disk.file? (copy.below (.ofString path)).resolved = some (.text text)) ∧
      ∀ place, desk'.disk.file? place =
        m.rewritten pages (pathsAt copy place [path]) (desk.disk.file? place) := by
  obtain ⟨text, hfile, hwrite⟩ := expandPage_ok h
  refine ⟨⟨text, hfile⟩, fun place => ?_⟩
  rw [file?_write hwrite, pathsAt]
  by_cases hplace : (copy.below (.ofString path)).resolved = place
  · rw [List.filter_cons_of_pos (by simpa using hplace), if_pos hplace, ← hplace, hfile]
    rfl
  · rw [List.filter_cons_of_neg (by simpa using hplace), if_neg hplace]
    rfl

/-- Expanding pages changes their files, all of which are texts, page after page. -/
theorem file?_expandPages {paths : List String}
    (h : m.expandPages copy pages paths desk = .ok () desk') :
    (∀ path ∈ paths, ∃ text,
        desk.disk.file? (copy.below (.ofString path)).resolved = some (.text text)) ∧
      ∀ place, desk'.disk.file? place =
        m.rewritten pages (pathsAt copy place paths) (desk.disk.file? place) := by
  induction paths generalizing desk with
  | nil =>
    cases h
    exact ⟨nofun, fun _ => rfl⟩
  | cons path rest ih =>
    obtain ⟨_, mid, hfirst, hrest⟩ := bind_eq_ok.mp h
    obtain ⟨htext, hplaces⟩ := file?_expandPage hfirst
    obtain ⟨htexts, hothers⟩ := ih hrest
    refine ⟨List.forall_mem_cons.mpr ⟨htext, fun other hother => ?_⟩, fun place => ?_⟩
    · obtain ⟨text, hmid⟩ := htexts other hother
      exact text_of_rewritten ((hplaces _).symm.trans hmid)
    · rw [hothers, hplaces, rewritten, rewritten, rewritten, ← List.foldl_append]
      congr 1
      exact (List.filter_append [path] rest).symm

/-- What is found out while the book is written: its pages, its preamble and the name of its
file. -/
structure Loads (m : Manuscript) (copy : Location) (desk : Desk) (pages : List Page)
    (preamble stem : String) : Prop where
  pages : ∃ mid, m.pages copy desk = .ok pages mid ∧
    ∃ style, customStyle copy mid = .ok style mid ∧
      Folio.preamble m.engine m.template (m.imprint style) = .ok preamble
  stem : artifactStem? m.config.sitename m.config.version = some stem

/-- What a file of the working copy holds when the book is written, by its place and what it held
before. -/
def contentAt (m : Manuscript) (copy : Location) (pages : List Page) (preamble stem : String)
    (place : Location) (before : Option Content) : Option Content :=
  if (copy.child Style.fileName).resolved = place then some (.text Style.library)
  else m.rewritten pages (pathsAt copy place (rawPaths pages))
    (if (copy.child (stem ++ ".typ")).resolved = place then some (.text (m.bookText pages preamble))
      else before)

section Content

variable {preamble stem : String} {before : Option Content} {names : List String}
  (hcopy : copy.resolved = copy)

include hcopy

theorem resolved_style : (copy.child Style.fileName).resolved = copy.child Style.fileName := by
  rw [resolved_child (by decide), hcopy]

theorem resolved_book (stem : String) :
    (copy.child (stem ++ ".typ")).resolved = copy.child (stem ++ ".typ") := by
  rw [resolved_child (typ_ne (by decide)), hcopy]

/-- The style is written last. -/
theorem contentAt_style :
    m.contentAt copy pages preamble stem (copy.child Style.fileName) before =
      some (.text Style.library) := by
  rw [contentAt, if_pos (resolved_style hcopy)]

/-- The book stays as it is written, but for hand-written pages at its place. -/
theorem contentAt_book (hne : stem ++ ".typ" ≠ Style.fileName) :
    m.contentAt copy pages preamble stem (copy.child (stem ++ ".typ")) before =
      m.rewritten pages (pathsAt copy (copy.child (stem ++ ".typ")) (rawPaths pages))
        (some (.text (m.bookText pages preamble))) := by
  have hstyle : copy.child Style.fileName ≠ copy.child (stem ++ ".typ") := fun h =>
    hne (child_injective h).symm
  rw [contentAt, resolved_style hcopy, resolved_book hcopy, if_neg hstyle, if_pos rfl]

/-- Everything but the style and the book is as it was, but for hand-written pages. -/
theorem contentAt_other (hstyle : names ≠ [Style.fileName]) (hbook : names ≠ [stem ++ ".typ"]) :
    m.contentAt copy pages preamble stem (copy.below ⟨"", names⟩) before =
      m.rewritten pages (pathsAt copy (copy.below ⟨"", names⟩) (rawPaths pages)) before := by
  have hne {name : String} (hname : names ≠ [name]) : copy.child name ≠ copy.below ⟨"", names⟩ :=
    fun h => hname (below_injective h).symm
  rw [contentAt, resolved_style hcopy, resolved_book hcopy, if_neg (hne hstyle), if_neg (hne hbook)]

end Content

/-- Behind the writing of a book every file is known. -/
theorem writeAll_ok {book : WrittenBook} (hsite : '/' ∉ m.config.sitename.toList)
    (h : m.writeAll copy desk = .ok book desk') :
    ∃ pages preamble stem, m.Loads copy desk pages preamble stem ∧
      book = ⟨copy.child (stem ++ ".typ"), rawPaths pages⟩ ∧
      (∀ place, desk'.disk.file? place =
        m.contentAt copy pages preamble stem place (desk.disk.file? place)) ∧
      ∀ path ∈ rawPaths pages,
        (copy.child (stem ++ ".typ")).resolved ≠ (copy.below (.ofString path)).resolved →
        ∃ text, desk.disk.file? (copy.below (.ofString path)).resolved = some (.text text) := by
  unfold writeAll at h
  obtain ⟨pages, mid, hpages, hwritten⟩ := bind_eq_ok.mp h
  obtain ⟨source, drafted, hwrite, hexpand⟩ := bind_eq_ok.mp hwritten
  obtain ⟨_, expanded, hexpanded, hput⟩ := bind_eq_ok.mp hexpand
  obtain ⟨_, last, hlast, hend⟩ := bind_eq_ok.mp hput
  cases hend
  obtain ⟨style, preamble, hstyle, hpreamble, stem, hstem, rfl, hput⟩ := write_ok hwrite
  rw [below_stem hsite hstem] at hput ⊢
  obtain ⟨htexts, hfiles⟩ := file?_expandPages hexpanded
  obtain ⟨hlibrary, -⟩ := change_ok hlast
  have hread : desk.disk = mid.disk := (pages_respects isFrame_eq).ok hpages
  refine ⟨pages, preamble, stem, ⟨⟨mid, hpages, style, hstyle, hpreamble⟩, hstem⟩, rfl, ?_, ?_⟩
  · intro place
    rw [file?_write hlibrary, hfiles, file?_write hput, contentAt, hread]
  · intro path hpath hne
    obtain ⟨text, htext⟩ := htexts path hpath
    rw [file?_write hput, if_neg hne, ← hread] at htext
    exact ⟨text, htext⟩

end Folio.Manuscript

namespace Folio.Build

open Disk Job Location

variable {b : Build} {desk desk' : Desk} {book : WrittenBook}

/-- In a fresh place, the location of the working copy is its place. -/
theorem straight_copy {disk : Disk} (h : disk.IsFresh b.places.scratch) : ".." ∉ b.copy.names := by
  intro hmem
  rcases List.mem_append.mp hmem with hmem | hmem
  · exact h.straight hmem
  · exact absurd (List.mem_singleton.mp hmem) (by decide)

theorem resolved_copy {disk : Disk} (h : disk.IsFresh b.places.scratch) :
    b.copy.resolved = b.copy :=
  resolved_of_not_mem (straight_copy h)

/-- The steps up to the compilation. -/
theorem prepare_ok (h : b.prepare desk = .ok book desk') :
    ∃ copied mid last, b.copySource desk = .ok () copied ∧ mid.disk = copied.disk ∧
      b.manuscript.writeAll b.copy mid = .ok book last ∧ desk'.disk = last.disk := by
  obtain ⟨_, copied, hcopy, hnoticed⟩ := bind_eq_ok.mp h
  obtain ⟨_, mid, hnotice, hwritten⟩ := bind_eq_ok.mp hnoticed
  cases hnotice
  obtain ⟨book, last, hwrite, hend⟩ := bind_eq_ok.mp hwritten
  obtain ⟨_, _, hnotice, hend⟩ := bind_eq_ok.mp hend
  cases hnotice
  cases hend
  let mid : Desk :=
    { copied with notices := copied.notices ++ [.converting b.config.pages.length] }
  exact ⟨copied, mid, last, hcopy, rfl, hwrite, rfl⟩

/-- The book is written to a file of the working copy itself. -/
theorem parent_of_prepare (hsite : '/' ∉ b.config.sitename.toList)
    (h : b.prepare desk = .ok book desk') : book.source.parent = b.copy := by
  obtain ⟨_, _, _, -, -, hwrite, -⟩ := prepare_ok h
  obtain ⟨_, _, stem, -, rfl, -⟩ := Manuscript.writeAll_ok hsite hwrite
  exact Location.parent_child ..

end Folio.Build
