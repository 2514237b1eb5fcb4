import Folio.Proofs.Build.Sources
import Folio.Proofs.Disk.Copy

/-!
# What the compiler finds

When a book is compiled, the working copy holds the style library, the book, and the hand-written
pages, expanded; everything else in it is as in the source directory. The steps of a build write
over each other where names coincide: the style is put down last, and a hand-written page that is
listed twice is expanded twice, the second time from what the first time has left.
-/

namespace Folio.Build

open Disk Job Location Manuscript

variable {b : Build} {desk desk' : Desk} {book : WrittenBook} {names : List String}

/-- The sources are copied in full. -/
theorem copySource_ok (h : b.copySource desk = .ok () desk') :
    desk.disk.copyTree b.config.sourceDir b.copy = .ok (desk'.disk, true) := by
  unfold copySource at h
  obtain ⟨found, mid, hfound, hnext⟩ := bind_eq_ok.mp h
  obtain ⟨-, rfl⟩ := read_ok hfound
  split at hnext
  · exact Job.copyTree_ok hnext
  · obtain ⟨_, _, hthrow, -⟩ := bind_eq_ok.mp hnext
    cases hthrow

/-- The working copy holds what the source directory holds. -/
theorem at?_copySource (hfresh : desk.disk.IsFresh b.places.scratch) (hkeys : desk.disk.keys.Nodup)
    (h : b.copySource desk = .ok () desk') :
    desk'.disk.at? b.copy = some .directory ∧
      ∀ names ≠ [], desk'.disk.at? (b.copy.below ⟨"", names⟩) =
        desk.disk.at? (b.config.sourceDir.resolved.below ⟨"", names⟩) := by
  refine at?_copyTree (copySource_ok h) hkeys (straight_copy hfresh) fun name names => ?_
  have hbelow : b.copy.below ⟨"", name :: names⟩ =
      b.places.scratch.below ⟨"", "build" :: name :: names⟩ := (below_cons ..).symm
  rw [hbelow]
  exact hfresh.empty _ _

/-- What the working copy holds, by what the source directory holds: the style, the book, the
hand-written pages, and everything else. Only where names coincide is one of them missing. -/
structure HoldsBook (b : Build) (original disk : Disk) (pages : List Page)
    (preamble stem : String) : Prop where
  style : disk.file? (b.copy.child Style.fileName) = some (.text Style.library)
  /-- The book is there, unless the style or a hand-written page is at its place. -/
  book : stem ++ ".typ" ≠ Style.fileName →
    pathsAt b.copy (b.copy.child (stem ++ ".typ")) (rawPaths pages) = [] →
    disk.file? (b.copy.child (stem ++ ".typ")) = some (.text (b.manuscript.bookText pages preamble))
  /-- A hand-written page is expanded from its original text as often as it is listed; listed once,
  it is the expansion of the original text. -/
  page : ∀ path ∈ rawPaths pages, ∀ names, (Location.ofString path).inside? = some names →
    names ≠ [Style.fileName] → names ≠ [stem ++ ".typ"] →
    ∃ text, original.file? (b.config.sourceDir.resolved.below ⟨"", names⟩) = some (.text text) ∧
      disk.file? (b.copy.below ⟨"", names⟩) = b.manuscript.rewritten pages
        (pathsAt b.copy (b.copy.below ⟨"", names⟩) (rawPaths pages)) (some (.text text)) ∧
      (pathsAt b.copy (b.copy.below ⟨"", names⟩) (rawPaths pages) = [path] →
        disk.file? (b.copy.below ⟨"", names⟩) =
          some (.text (b.manuscript.expansion pages path text)))
  /-- Everything else is as it was. -/
  other : ∀ names, names ≠ [] → names ≠ [Style.fileName] → names ≠ [stem ++ ".typ"] →
    pathsAt b.copy (b.copy.below ⟨"", names⟩) (rawPaths pages) = [] →
    disk.file? (b.copy.below ⟨"", names⟩) =
      original.file? (b.config.sourceDir.resolved.below ⟨"", names⟩)

/-- When the compilation begins, the working copy holds the style, the book and the hand-written
pages as they are written and expanded from the source directory. -/
theorem prepare_holdsBook (b : Build) {desk desk' : Desk} {book : WrittenBook}
    (hsite : '/' ∉ b.config.sitename.toList)
    (hfresh : desk.disk.IsFresh b.places.scratch) (hkeys : desk.disk.keys.Nodup)
    (h : b.prepare desk = .ok book desk') :
    ∃ copied pages preamble stem,
      (∀ names ≠ [], copied.disk.file? (b.copy.below ⟨"", names⟩) =
        desk.disk.file? (b.config.sourceDir.resolved.below ⟨"", names⟩)) ∧
      b.manuscript.Loads b.copy copied pages preamble stem ∧
      book = ⟨b.copy.child (stem ++ ".typ"), rawPaths pages⟩ ∧
      b.HoldsBook desk.disk desk'.disk pages preamble stem := by
  obtain ⟨copied, mid, last, hcopy, hmid, hwrite, hlast⟩ := prepare_ok h
  obtain ⟨hcopyDir, hcopied⟩ := at?_copySource hfresh hkeys hcopy
  rw [← hmid] at hcopied hcopyDir
  obtain ⟨pages, preamble, stem, hloads, hbook, hfiles, htexts⟩ :=
    writeAll_ok hsite hwrite
  have hsame (names : List String) (hnames : names ≠ []) :
      mid.disk.file? (b.copy.below ⟨"", names⟩) =
        desk.disk.file? (b.config.sourceDir.resolved.below ⟨"", names⟩) :=
    file?_congr (hcopied names hnames)
  refine ⟨mid, pages, preamble, stem, hsame, hloads, hbook, ?_⟩
  rw [hlast]
  have hplace : b.copy.resolved = b.copy := resolved_copy hfresh
  constructor
  · rw [hfiles, contentAt_style hplace]
  · intro hne hnone
    rw [hfiles, contentAt_book hplace hne, hnone]
    rfl
  · intro path hpath names hnames hstyle hstem
    have hresolved : (b.copy.below (.ofString path)).resolved = b.copy.below ⟨"", names⟩ := by
      rw [resolved_below hnames, hplace]
    have hnotBook : (b.copy.child (stem ++ ".typ")).resolved ≠
        (b.copy.below (.ofString path)).resolved := by
      rw [resolved_book hplace, hresolved]
      exact fun heq => hstem (below_injective heq).symm
    obtain ⟨text, htext⟩ := htexts path hpath hnotBook
    rw [hresolved] at htext
    -- The page is a file, and so it is not the working copy itself.
    have hbelow : names ≠ [] := by
      rintro rfl
      rw [below_nil, file?, hcopyDir] at htext
      cases htext
    have hfile : last.disk.file? (b.copy.below ⟨"", names⟩) = b.manuscript.rewritten pages
        (pathsAt b.copy (b.copy.below ⟨"", names⟩) (rawPaths pages)) (some (.text text)) := by
      rw [hfiles, contentAt_other hplace hstyle hstem, htext]
    refine ⟨text, ?_, hfile, fun honce => ?_⟩
    · rw [← hsame names hbelow, htext]
    · rw [hfile, honce]
      rfl
  · intro names hnames hstyle hstem hnone
    rw [hfiles, contentAt_other hplace hstyle hstem, hnone, ← hsame names hnames]
    rfl

/-- A hand-written page that shows a reference in an example. -/
def guideText : String :=
  "// @typst-example\n// see @typst-ref(add)\n// @typst-example-end\n"

/-- A directory with the page. -/
def guideDisk : Disk :=
    [(⟨"", ["src"]⟩, .directory), (⟨"", ["src", "guide.typ"]⟩, .file (.text guideText))]

/-- A build of a book that lists some paths, and is not compiled. -/
def guideBuild (paths : List String) : Build where
  manuscript :=
    { config :=
        { sitename := "Docs", pages := paths.map fun path => ⟨"", path, 1⟩
          sourceDir := ⟨"", ["src"]⟩, buildDir := ⟨"", ["build"]⟩, authors := "", version := ""
          compile := ⟨.none, none, "", false, true, []⟩, debugDir := none, sourceUrl := none
          strictLinks := false, projectRoot := ⟨"", []⟩ }
      template := "T\n"
      engine template _ := .ok template
      lexers _ := none
      lookup _ := none
      evaluator _ := .returned "" (.scalar .null)
      markdown _ := none
      today := ⟨2024, 3, 5⟩ }
  compiler := .none
  optimizer _ := pure false
  debugVariable := none
  places := ⟨⟨"", ["tmp"]⟩, ⟨"", ["failed"]⟩, ⟨"", ["debug"]⟩⟩

theorem isFresh_guideDisk (paths : List String) :
    IsFresh guideDisk (guideBuild paths).places.scratch := by
  have hscratch : (guideBuild paths).places.scratch = ⟨"", ["tmp"]⟩ := rfl
  rw [hscratch]
  exact ⟨by decide, by decide,
    fun name names => by simp [guideDisk, at?, Table.get?, Location.below]⟩

/-- A book with one page is prepared in a fresh working copy. -/
theorem prepare_holdsBook_guide :
    '/' ∉ (guideBuild ["guide.typ"]).config.sitename.toList ∧
      IsFresh guideDisk (guideBuild ["guide.typ"]).places.scratch ∧ guideDisk.keys.Nodup ∧
      ∃ book desk', (guideBuild ["guide.typ"]).prepare (.ofDisk guideDisk) = .ok book desk' ∧
        ∃ copied pages preamble stem,
          (guideBuild ["guide.typ"]).manuscript.Loads (guideBuild ["guide.typ"]).copy copied pages
            preamble stem ∧
          (guideBuild ["guide.typ"]).HoldsBook guideDisk desk'.disk pages preamble stem := by
  have hsite : '/' ∉ (guideBuild ["guide.typ"]).config.sitename.toList := by decide
  have hkeys : guideDisk.keys.Nodup := by decide
  have hok : (match (guideBuild ["guide.typ"]).prepare (.ofDisk guideDisk) with
    | .ok .. => true
    | .error .. => false) = true := by decide +kernel
  split at hok
  · next book desk' hdone =>
    obtain ⟨copied, pages, preamble, stem, -, hloads, -, hholds⟩ :=
      prepare_holdsBook _ hsite (isFresh_guideDisk _) hkeys hdone
    exact ⟨hsite, isFresh_guideDisk _, hkeys, book, desk', hdone, copied, pages, preamble, stem,
      hloads, hholds⟩
  · cases hok

/-- A page that is listed twice does not hold the expansion of its original text: the reference that
the example shows is expanded the second time. -/
theorem page_listed_twice :
    let b := guideBuild ["guide.typ", "guide.typ"]
    let page : Page := ⟨"guide.typ", none, "", 1⟩
    '/' ∉ b.config.sitename.toList ∧
      (∀ entry ∈ b.config.pages, (Location.ofString entry.path).StaysInside) ∧
      (∀ desk, b.manuscript.pages b.copy desk = .ok [page, page] desk) ∧
      guideDisk.file? (b.config.sourceDir.child "guide.typ") = some (.text guideText) ∧
      ∃ book desk', b.prepare (.ofDisk guideDisk) = .ok book desk' ∧
        desk'.disk.file? (b.copy.child "guide.typ") ≠
          some (.text (b.manuscript.expansion [page, page] "guide.typ" guideText)) := by
  intro b page
  refine ⟨by decide, by decide +kernel, fun desk => rfl, by decide, ?_⟩
  have hok : (match b.prepare (.ofDisk guideDisk) with
    | .ok _ desk => decide (desk.disk.file? (b.copy.child "guide.typ") ≠
        some (.text (b.manuscript.expansion [page, page] "guide.typ" guideText)))
    | .error .. => false) = true := by decide +kernel
  split at hok
  · next book desk' hdone => exact ⟨book, desk', hdone, of_decide_eq_true hok⟩
  · cases hok

end Folio.Build
