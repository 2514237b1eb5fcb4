import Folio.Proofs.Build.Sources
import Folio.Proofs.Compile.Effects

/-!
# What a build leaves alone

Each step of a build changes files below one place: the working copy, the directory kept for a
failed compilation, the debugging copy, or the directory of the build. So every set of places that
keeps clear of those of the steps made so far holds the same files as before, at whichever step the
build ends. The sources keep clear of all four. Until the book is published, so does the directory
of the build of the other three, unless it lies in one of them.
-/

namespace Folio

open Disk Job Location

namespace Manuscript

variable {m : Manuscript} {copy : Location} {R : Disk → Disk → Prop} {S : Location → Prop}

section Writing

variable (hS : Clear S copy.resolved)

include hS

/-- Writing the book changes no file outside of the working copy. -/
theorem write_respects (hsite : '/' ∉ m.config.sitename.toList) (pages : List Page) :
    Respects (Agree S) (m.write copy pages) := by
  have hR := isFrame_agree S
  unfold write
  refine hR.bind (customStyle_respects hR) fun customStyle => ?_
  simp only
  split
  · exact hR.throw _
  · refine hR.bind hR.get fun desk => hR.bind (hR.notices _) fun _ => ?_
    split
    · exact hR.throw _
    · refine hR.bind_of_ok (source_respects hR) fun file desk desk' hfile => ?_
      obtain ⟨-, stem, hstem, rfl⟩ := source_ok hfile
      refine hR.bind (hR.change _ fun d d' hwrite => ?_) fun _ => hR.pure _
      rw [below_stem hsite hstem] at hwrite
      refine agree_of_write hwrite ?_
      rw [resolved_child (typ_ne (by decide))]
      exact hS.of_contains (contains_child ..)

/-- Expanding a page whose path stays inside the copy changes nothing outside of it. -/
theorem expandPage_respects (pages : List Page) {path : String}
    (hpath : (Location.ofString path).StaysInside) :
    Respects (Agree S) (m.expandPage copy pages path) := by
  have hR := isFrame_agree S
  unfold expandPage
  refine hR.bind (hR.read _ _) fun text => hR.bind hR.get fun desk => ?_
  refine hR.bind (hR.notices _) fun _ => hR.bind (hR.modify fun _ => rfl) fun _ => ?_
  split
  · exact hR.throw _
  · refine hR.change _ fun d d' hwrite => agree_of_write hwrite ?_
    exact hS.of_contains (contains_resolved_below hpath)

/-- Expanding pages whose paths stay inside the copy changes nothing outside of it. -/
theorem expandPages_respects (pages : List Page) {paths : List String}
    (hpaths : ∀ path ∈ paths, (Location.ofString path).StaysInside) :
    Respects (Agree S) (m.expandPages copy pages paths) := by
  have hR := isFrame_agree S
  induction paths with
  | nil => exact hR.pure _
  | cons path rest ih =>
    obtain ⟨hpath, hrest⟩ := List.forall_mem_cons.mp hpaths
    exact hR.bind (expandPage_respects hS pages hpath) fun _ => ih hrest

/-- Writing the book with everything that belongs to it changes no file outside of the working
copy. -/
theorem writeAll_respects (hsite : '/' ∉ m.config.sitename.toList)
    (hpages : ∀ entry ∈ m.config.pages, (Location.ofString entry.path).StaysInside) :
    Respects (Agree S) (m.writeAll copy) := by
  have hR := isFrame_agree S
  refine hR.bind_of_ok (pages_respects hR) fun pages desk desk' hloaded => ?_
  have hpaths : ∀ path ∈ rawPaths pages, (Location.ofString path).StaysInside := by
    intro path hpath
    obtain ⟨entry, hentry, rfl⟩ := mem_of_mem_rawPaths hloaded hpath
    exact hpages entry hentry
  refine hR.bind (write_respects hS hsite pages) fun source => ?_
  refine hR.bind (expandPages_respects hS pages hpaths) fun _ => ?_
  refine hR.bind (hR.change _ fun d d' hwrite => agree_of_write hwrite ?_) fun _ => hR.pure _
  rw [resolved_child (by decide)]
  exact hS.of_contains (contains_child ..)

end Writing

end Manuscript

namespace Build

variable {b : Build} {S : Location → Prop}

/-- Copying the sources changes nothing outside of the copy. -/
theorem copySource_respects (hS : Clear S b.copy.resolved) : Respects (Agree S) b.copySource := by
  have hR := isFrame_agree S
  exact hR.bind (hR.read _ _) fun _ => hR.refusing _
    (hR.copyTree _ fun _ _ _ hcopy => agree_of_copyTree hcopy hS)

/-- Copying for debugging changes nothing outside of the place that it is made for. -/
theorem copyForDebugging_respects
    (hdebug : ∀ place, b.debugPlace? = some place → Clear S place.resolved) :
    Respects (Agree S) b.copyForDebugging := by
  have hR := isFrame_agree S
  unfold copyForDebugging
  split
  · exact hR.pure _
  · next place hplace =>
    exact hR.bind (hR.copyTree _ fun _ _ _ hcopy => agree_of_copyTree hcopy (hdebug place hplace))
      fun _ => hR.notice _

/-- Compiling the book changes no file outside of the working copy, the directory kept for a failed
compilation and the debugging copy. -/
theorem compile_respects {source : Location} (hcompiler : b.compiler.StaysIn b.copy)
    (hoptimizer : b.optimizer.StaysIn b.copy) (hsource : source.parent = b.copy)
    (hS : Clear S b.copy.resolved) (hkept : Clear S b.places.kept.resolved)
    (hdebug : ∀ place, b.debugPlace? = some place → Clear S place.resolved) :
    Respects (Agree S) (b.compile source) := by
  have hR := isFrame_agree S
  have hbook : Respects (Agree S)
      (Compile.book b.compiler b.optimizer b.places.kept b.config.compile source) :=
    Compile.book_respects hcompiler hoptimizer hsource hS hkept
  have hcopied (next : Job BuildFault (Option Location)) (hnext : Respects (Agree S) next) :
      Respects (Agree S) (b.copyForDebugging *> next) :=
    hR.bind (copyForDebugging_respects hdebug) fun _ => hnext
  intro desk
  cases hdone : Compile.book b.compiler b.optimizer b.places.kept b.config.compile source desk with
  | ok artifact mid =>
    refine hR.goOn (hbook.ok hdone) (hcopied (pure artifact) (hR.pure _)) ?_
    simp only [behind, compile, hdone]
  | error fault mid =>
    cases fault with
    | failed fault =>
      refine hR.goOn (hbook.error hdone) (hcopied (throw (.compilation fault)) (hR.throw _)) ?_
      simp only [behind, compile, hdone]
    | disk fault =>
      refine hR.goOn (hbook.error hdone) (hcopied (throw (.disk fault)) (hR.throw _)) ?_
      simp only [behind, compile, hdone]
    | interrupted kind =>
      refine hR.goOn (hbook.error hdone) (hcopied (throw (.interrupted kind)) (hR.throw _)) ?_
      simp only [behind, compile, hdone]

/-- Publishing changes files below the directory of the build only. -/
theorem publish_respects (hS : Clear S b.config.buildDir.resolved) (book : WrittenBook)
    (artifact : Option Location) : Respects (Agree S) (b.publish book artifact) := by
  have hR := isFrame_agree S
  have hcopy : Respects (Agree S) (b.publishCopy book) :=
    hR.bind (hR.copyTree _ fun _ _ _ hcopy => agree_of_copyTree hcopy hS) fun _ => hR.pure _
  refine hR.bind (hR.change _ fun _ _ hmade => agree_of_makeDirectory hmade) fun _ => ?_
  cases artifact with
  | none => exact hcopy
  | some pdf =>
    simp only
    split
    · exact hcopy
    · exact hR.bind (hR.change _ fun _ _ hput => agree_of_copyFile hput hS) fun _ => hR.pure _

/-- The desk behind a build: that behind its steps, without the working copy. -/
theorem behind_run (b : Build) (desk : Desk) :
    b.run.behind desk = b.cleared (b.steps.behind desk) := by
  unfold behind run
  cases b.steps desk <;> rfl

/-- A book that cannot be made is not published. -/
theorem run_of_makeBook_error {desk mid : Desk} {fault : BuildFault}
    (h : b.makeBook desk = .error fault mid) : b.run desk = .error fault (b.cleared mid) := by
  have hsteps : b.steps desk = .error fault mid := by
    change EStateM.bind b.makeBook _ desk = _
    simp only [EStateM.bind, h]
  rw [run, hsteps]

/-- Places outside of a fresh scratch directory are clear of the copy in it. -/
theorem clear_copy {disk : Disk} (hscratch : disk.IsFresh b.places.scratch)
    (hS : ∀ p, S p → ¬b.places.scratch.Contains p) : Clear S b.copy.resolved := by
  rw [resolved_copy hscratch]
  exact fun p hp hcopy => hS p hp ((contains_child ..).trans hcopy)

/-- Removing the working copy changes no file elsewhere. -/
theorem agree_cleared (b : Build) (desk : Desk) (hS : ∀ p, S p → ¬b.places.scratch.Contains p) :
    Agree S desk.disk (b.cleared desk).disk := fun p hp => by
  rw [cleared, file?_remove, if_neg (hS p hp)]

/-- Whether the places that a build works in are apart from its sources: its names and page paths do
not lead out of the working copy, its fresh places are fresh, the directory of the build and the
debugging copy are apart from the sources, and its tools stay in the working copy. -/
structure IsWellPlaced (b : Build) (disk : Disk) : Prop where
  sitename : '/' ∉ b.config.sitename.toList
  pages : ∀ entry ∈ b.config.pages, (Location.ofString entry.path).StaysInside
  scratch : disk.IsFresh b.places.scratch
  kept : disk.IsFresh b.places.kept
  buildDir : Apart b.config.buildDir.resolved b.config.sourceDir.resolved
  debugPlace : ∀ place, b.debugPlace? = some place →
    Apart place.resolved b.config.sourceDir.resolved
  compiler : b.compiler.StaysIn b.copy
  optimizer : b.optimizer.StaysIn b.copy

/-- Making the book changes no file outside of the working copy, the directory kept for a failed
compilation and the debugging copy, however it ends. -/
theorem makeBook_respects {disk : Disk} (h : b.IsWellPlaced disk)
    (hscratch : ∀ p, S p → ¬b.places.scratch.Contains p)
    (hkept : ∀ p, S p → ¬b.places.kept.Contains p)
    (hdebug : ∀ place, b.debugPlace? = some place → Clear S place.resolved) :
    Respects (Agree S) b.makeBook := by
  have hR := isFrame_agree S
  have hcopy := clear_copy h.scratch hscratch
  have hkeptPlace : Clear S b.places.kept.resolved := by rwa [h.kept.resolved_eq]
  have hprepare : Respects (Agree S) b.prepare :=
    hR.bind (copySource_respects hcopy) fun _ => hR.bind (hR.notice _) fun _ =>
      hR.bind (Manuscript.writeAll_respects hcopy h.sitename h.pages) fun _ =>
        hR.bind (hR.notice _) fun _ => hR.pure _
  refine hR.bind_of_ok hprepare fun book desk desk' hbook => ?_
  have hsource := parent_of_prepare h.sitename hbook
  exact hR.bind (compile_respects h.compiler h.optimizer hsource hcopy hkeptPlace hdebug)
    fun _ => hR.pure _

/-- A build leaves its sources alone, however it ends. One that fails before it publishes changes no
file at all, below the directory of the build or elsewhere, wherever it fails, but in the debugging
copy, which is made of a failed compilation too, and in the directory kept for it. -/
theorem run_spares (b : Build) (desk : Desk) (h : b.IsWellPlaced desk.disk) :
    (∀ place content, b.config.sourceDir.resolved.Contains place →
      desk.disk.file? place = some content →
      (b.run.behind desk).disk.file? place = some content) ∧
    ∀ fault mid, b.makeBook desk = .error fault mid →
      b.run desk = .error fault (b.cleared mid) ∧
      ∀ place, ¬b.places.kept.Contains place →
        (∀ debug, b.debugPlace? = some debug → ¬debug.resolved.Contains place) →
        (b.cleared mid).disk.file? place = desk.disk.file? place := by
  constructor
  · intro place content hplace hcontent
    -- The fresh places may lie below the sources, but no file is there before the build.
    let S (p : Location) : Prop := b.config.sourceDir.resolved.Contains p ∧
      ¬b.places.scratch.Contains p ∧ ¬b.places.kept.Contains p
    have hS : S place := by
      refine ⟨hplace, fun hin => ?_, fun hin => ?_⟩
      · rw [h.scratch.file?_eq_none hin] at hcontent
        cases hcontent
      · rw [h.kept.file?_eq_none hin] at hcontent
        cases hcontent
    have hR := isFrame_agree S
    have hmake : Respects (Agree S) b.makeBook :=
      makeBook_respects h (fun p hp => hp.2.1) (fun p hp => hp.2.2)
        fun debug hdir p hp => (h.debugPlace debug hdir).not_contains hp.1
    have hpublish (book : WrittenBook) (artifact : Option Location) :
        Respects (Agree S) (b.publish book artifact) :=
      publish_respects (fun p hp => h.buildDir.not_contains hp.1) book artifact
    have hsteps : Respects (Agree S) b.steps := hR.bind hmake fun _ => hpublish _ _
    rw [behind_run, agree_cleared b _ (fun p hp => hp.2.1) place hS, hsteps desk place hS, hcontent]
  · intro fault mid hfault
    refine ⟨run_of_makeBook_error hfault, fun place hnotKept hnotDebug => ?_⟩
    by_cases hin : b.places.scratch.Contains place
    -- The working copy is gone, and nothing was in its place before.
    · rw [cleared, file?_remove, if_pos hin, h.scratch.file?_eq_none hin]
    · let S (p : Location) : Prop := ¬b.places.scratch.Contains p ∧ ¬b.places.kept.Contains p ∧
        ∀ debug, b.debugPlace? = some debug → ¬debug.resolved.Contains p
      have hmake : Respects (Agree S) b.makeBook :=
        makeBook_respects h (fun p hp => hp.1) (fun p hp => hp.2.1)
          fun debug hdir p hp => hp.2.2 debug hdir
      have hS : S place := ⟨hin, hnotKept, hnotDebug⟩
      exact (agree_cleared b mid (fun p hp => hp.1) place hS).trans (hmake.error hfault place hS)

/-- A directory with a hand-written page and a file in a directory of its own. -/
def notesDisk : Disk := [
  (⟨"", ["src"]⟩, .directory), (⟨"", ["src", "guide.typ"]⟩, .file (.text "= Guide\n")),
  (⟨"", ["src", "build"]⟩, .directory),
    (⟨"", ["src", "build", "notes.txt"]⟩, .file (.text "notes\n"))]

/-- A machine whose compiler leaves a file in a directory and fails. -/
def failingMachine (directory : Location) : Machine where
  executable name := some ("/usr/bin/" ++ name)
  outcome _ _ := ⟨fun d => d.put (directory.child "Docs.pdf") (.file (.text "half")), "boom",
    .failed 1⟩
  bundled := none

/-- The compiler that fails writes in the directory that it is given only. -/
theorem writesIn_failingMachine {directory : Location} (h : ".." ∉ directory.names) :
    (failingMachine directory).WritesIn directory where
  runs _ _ d := by
    refine agree_of_put (by simp [Location.child]) _ fun p hp hin => hp ?_
    rw [resolved_of_not_mem h]
    exact (contains_child ..).trans hin
  calls := nofun

/-- A build in a directory that is not compiled, with a debugging copy. -/
def failingBuild (buildDir : Location) : Build where
  manuscript :=
    { config :=
        { sitename := "Docs", pages := [⟨"", "guide.typ", 1⟩], sourceDir := ⟨"", ["src"]⟩, buildDir
          authors := "", version := "", compile := ⟨.system, none, "", true, true, []⟩
          debugDir := some ⟨"", ["out"]⟩, sourceUrl := none, strictLinks := false
          projectRoot := ⟨"", []⟩ }
      template := "T\n"
      engine template _ := .ok template
      lexers _ := none
      lookup _ := none
      evaluator _ := .returned "" (.scalar .null)
      markdown _ := none
      today := ⟨2024, 3, 5⟩ }
  compiler := .ofBackend (failingMachine ⟨"", ["tmp", "build"]⟩) false .system
  optimizer := .external (failingMachine ⟨"", ["tmp", "build"]⟩) false none
  debugVariable := none
  places := ⟨⟨"", ["tmp"]⟩, ⟨"", ["failed"]⟩, ⟨"", ["debug"]⟩⟩

/-- A name in the working directory of the notes is fresh unless it is the sources'. -/
theorem isFresh_notesDisk {name : String} (hup : name ≠ "..") (hsource : name ≠ "src") :
    IsFresh notesDisk ⟨"", [name]⟩ where
  straight := by simpa using Ne.symm hup
  noFile := by simp [file?, notesDisk, at?, Table.get?, Ne.symm hsource]
  empty _ _ := by simp [notesDisk, at?, Table.get?, Location.below, Ne.symm hsource]

/-- The tools of the failing build stay in its copy. -/
theorem staysIn_failingBuild (buildDir : Location) :
    (failingBuild buildDir).compiler.StaysIn (failingBuild buildDir).copy ∧
      (failingBuild buildDir).optimizer.StaysIn (failingBuild buildDir).copy := by
  have hm : (failingMachine ⟨"", ["tmp", "build"]⟩).WritesIn ⟨"", ["tmp", "build"]⟩ :=
    writesIn_failingMachine (by decide)
  exact ⟨Compiler.ofBackend_staysIn hm false .system, Optimizer.external_staysIn hm false none⟩

/-- The failing build is well placed unless it is built into its sources. -/
theorem isWellPlaced_failingBuild {buildDir : Location}
    (hbuild : Apart buildDir.resolved ⟨"", ["src"]⟩) :
    (failingBuild buildDir).IsWellPlaced notesDisk where
  sitename := by
    have hname : (failingBuild buildDir).config.sitename = "Docs" := rfl
    rw [hname]
    decide
  pages := by
    have hpages : (failingBuild buildDir).config.pages = [⟨"", "guide.typ", 1⟩] := rfl
    rw [hpages]
    decide +kernel
  scratch := isFresh_notesDisk (by decide) (by decide)
  kept := isFresh_notesDisk (by decide) (by decide)
  buildDir := hbuild
  debugPlace := by
    rintro place ⟨⟩
    change Apart (Location.resolved ⟨"", ["out"]⟩) (Location.resolved ⟨"", ["src"]⟩)
    decide
  compiler := (staysIn_failingBuild buildDir).1
  optimizer := (staysIn_failingBuild buildDir).2

/-- The failing build leaves its sources as they were and publishes nothing. -/
theorem run_spares_failingBuild :
    let b := failingBuild ⟨"", ["build"]⟩
    let desk := Desk.ofDisk notesDisk
    b.IsWellPlaced notesDisk ∧
      (b.run.behind desk).disk.file? ⟨"", ["src", "guide.typ"]⟩ = some (.text "= Guide\n") ∧
      ∃ fault mid, b.makeBook desk = .error fault mid ∧
        b.run desk = .error fault (b.cleared mid) ∧
        (b.cleared mid).disk.file? ⟨"", ["build", "Docs.typ"]⟩ = none := by
  intro b desk
  have hplaced : b.IsWellPlaced notesDisk := isWellPlaced_failingBuild (by decide)
  obtain ⟨hsources, hfails⟩ := run_spares b desk hplaced
  refine ⟨hplaced, hsources _ _ (by decide) (by decide), ?_⟩
  have hok : (match b.makeBook desk with
    | .ok .. => true
    | .error .. => false) = false := by decide +kernel
  split at hok
  · cases hok
  · next fault mid hfault =>
    obtain ⟨hrun, hfiles⟩ := hfails fault mid hfault
    refine ⟨fault, mid, hfault, hrun, ?_⟩
    rw [hfiles _ (by decide) (by rintro debug ⟨⟩; decide)]
    decide

/-- A failed build fills the directory of the build if that lies in the debugging copy. -/
theorem build_dir_filled_by_debugging_copy :
    let b := failingBuild ⟨"", ["out", "build"]⟩
    let desk := Desk.ofDisk notesDisk
    b.IsWellPlaced notesDisk ∧
      (∀ place, b.debugPlace? = some place →
        ¬b.config.buildDir.resolved.Contains place.resolved) ∧
      (∃ fault mid, b.makeBook desk = .error fault mid) ∧
      notesDisk.file? (b.config.buildDir.child "notes.txt") = none ∧
      (b.run.behind desk).disk.file? (b.config.buildDir.child "notes.txt") =
        some (.text "notes\n") := by
  intro b desk
  have hok : (match b.makeBook desk with
    | .ok .. => true
    | .error .. => false) = false := by decide +kernel
  refine ⟨isWellPlaced_failingBuild (by decide), by rintro place ⟨⟩; decide, ?_, by decide,
    by decide +kernel⟩
  split at hok
  · cases hok
  · next fault mid hfault => exact ⟨fault, mid, hfault⟩

end Build

end Folio
