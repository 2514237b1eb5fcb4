import Folio.Compile
import Folio.Proofs.Disk.Jobs

/-!
# What compiling a book leaves alone

The external programs of a build may do anything in the directory that they are given, and are taken
to change files nowhere else. Then the compilers and the optimiser stay in that directory, and so
does the compilation of a book, but for the directory that is kept when it fails.
-/

namespace Folio

open Disk Job Location

/-- Whether the programs of a machine, the bundled compiler included, change files in a directory
only, whatever they do there and however they end. -/
structure Machine.WritesIn (m : Machine) (directory : Location) : Prop where
  runs : ∀ count run d, Agree (fun p => ¬directory.resolved.Contains p) d
    ((m.outcome count run).effect d)
  calls : ∀ bundled, m.bundled = some bundled → ∀ call d,
    Agree (fun p => ¬directory.resolved.Contains p) d (bundled call d).disk

/-- Whether a compiler changes files in the directory of the source only. -/
def Compiler.StaysIn (c : Compiler) (directory : Location) : Prop :=
  ∀ settings source, source.parent = directory →
    Respects (Agree fun p => ¬directory.resolved.Contains p) (c.compile settings source)

/-- Whether an optimiser changes files in a directory only. -/
def Optimizer.StaysIn (o : Optimizer) (directory : Location) : Prop :=
  ∀ pdf, Respects (Agree fun p => ¬directory.resolved.Contains p) (o pdf)

section Tools

variable {m : Machine} {R : Disk → Disk → Prop} {directory source : Location}

/-- Whether what the programs of a machine do to a disk, the bundled compiler included, is in a
relation, whatever they are asked and however they end. -/
structure Machine.Respects (m : Machine) (R : Disk → Disk → Prop) : Prop where
  runs : ∀ count run d, R d ((m.outcome count run).effect d)
  calls : ∀ bundled, m.bundled = some bundled → ∀ call d, R d (bundled call d).disk

/-- Whether writing the logs of the compiler in a directory is in a relation. -/
def Compiler.LogsIn (R : Disk → Disk → Prop) (directory : Location) : Prop :=
  ∀ name ∈ [outputLog, errorLog], ∀ content d d',
    d.write (directory.child name) content = .ok d' → R d d'

/-- A run of a program respects what the program respects, if keeping what it says of errors
does. -/
theorem Machine.Respects.run (hR : IsFrame R) (hm : m.Respects R) (run : Run)
    (herrors : ∀ output errors, run.output = .files output errors → ∀ content d d',
      d.write errors content = .ok d' → R d d') : Job.Respects R (m.run run) := by
  intro desk
  have hbehind : ((m.run run).behind desk).disk =
      after (m.outcome desk.runs.length run) run desk.disk := by
    unfold behind Machine.run
    simp only
    cases (m.outcome desk.runs.length run).ending <;> rfl
  have heffect := hm.runs desk.runs.length run desk.disk
  rw [hbehind, after]
  split
  · next output errors houtput =>
    split
    · exact heffect
    · split
      · next disk hover =>
        obtain ⟨content, -, hwrite⟩ := bind_ok hover
        exact hR.trans heffect (herrors output errors houtput _ _ _ hwrite)
      · exact heffect
  · exact heffect

/-- A call of the bundled compiler respects what the compiler respects. -/
theorem Machine.Respects.call (hm : m.Respects R)
    {bundled : BundledCall → Disk → BundledOutcome} (hbundled : m.bundled = some bundled)
    (call : BundledCall) : Job.Respects R (Machine.call bundled call) := by
  intro desk
  have hbehind : ((Machine.call bundled call).behind desk).disk =
      (bundled call desk.disk).disk := by
    unfold behind Machine.call
    simp only
    cases (bundled call desk.disk).failure <;> rfl
  rw [hbehind]
  exact hm.calls bundled hbundled call desk.disk

theorem Compiler.openLogs_respects (hR : IsFrame R) (hlogs : LogsIn R directory) (verbose : Bool) :
    Job.Respects R (openLogs verbose directory) := by
  have hwrite {name : String} (hname : name ∈ [outputLog, errorLog]) : Job.Respects R
      (Job.change ToolFault.disk fun disk => disk.write (directory.child name) (.text "")) :=
    hR.change _ fun d d' => hlogs name hname _ d d'
  unfold openLogs
  split
  · exact hR.pure _
  · exact hR.bind (hwrite List.mem_cons_self) fun _ =>
      hR.bind (hwrite (List.mem_cons_of_mem _ List.mem_cons_self)) fun _ => hR.pure _

theorem Compiler.openLogs_ok {verbose : Bool} {logs : ProgramOutput} {desk desk' : Desk}
    (h : openLogs verbose directory desk = .ok logs desk') {output errors : Location}
    (hlogs : logs = .files output errors) : errors = directory.child errorLog := by
  unfold openLogs at h
  split at h
  · cases h
    cases hlogs
  · obtain ⟨_, _, -, herrors⟩ := bind_eq_ok.mp h
    obtain ⟨_, _, -, hend⟩ := bind_eq_ok.mp herrors
    cases hend
    cases hlogs
    rfl

/-- The compilers respect what the programs of the machine and the writing of the logs respect. -/
theorem Compiler.ofBackend_respects (hR : IsFrame R) (hm : m.Respects R)
    (hlogs : LogsIn R source.parent) (verbose : Bool) (backend : Backend)
    (settings : CompileSettings) :
    Job.Respects R ((ofBackend m verbose backend).compile settings source) := by
  cases backend with
  | none => exact hR.bind (hR.notice _) fun _ => hR.pure _
  | bundled =>
    simp only [ofBackend, Compiler.bundled]
    split
    · exact hR.throw _
    · next bundled hbundled =>
      exact hR.bind (hR.notice _) fun _ => hR.bind (hm.call hbundled _) fun _ =>
        hR.bind (hR.notice _) fun _ => hR.pure _
  | system =>
    simp only [ofBackend, system]
    split
    · exact hR.throw _
    · next executable _ =>
      refine hR.bind (hR.notice _) fun _ => ?_
      refine hR.bind_of_ok (openLogs_respects hR hlogs verbose) fun logs desk desk' hopen => ?_
      refine hR.bind (hm.run hR _ fun output errors houtput => ?_) fun _ =>
        hR.bind (hR.notice _) fun _ => hR.pure _
      rw [openLogs_ok hopen houtput]
      exact hlogs errorLog (List.mem_cons_of_mem _ List.mem_cons_self)

/-- The optimiser respects what the programs of the machine respect. -/
theorem Optimizer.external_respects (hR : IsFrame R) (hm : m.Respects R) (verbose : Bool)
    (executable : Option String) (pdf : Location) :
    Job.Respects R (external m verbose executable pdf) := by
  have hshrink (executable : String) : Job.Respects R (shrink m verbose executable pdf) := by
    refine hR.bind (hR.read _ _) fun _ => hR.bind (hR.notice _) fun _ => ?_
    refine hR.bind (hm.run hR _ fun output errors houtput => ?_) fun _ =>
      hR.bind (hR.read _ _) fun _ => hR.notice _
    cases verbose <;> cases houtput
  have hfailed (fault : ToolFault) : Job.Respects R (failed fault) := by
    unfold failed
    split
    · exact hR.throw _
    · exact hR.throw _
    · exact hR.bind (hR.notice _) fun _ => hR.pure _
  have hmissing :
      Job.Respects R (Job.notice .optimizerMissing *> pure false : Job OptimizerFault Bool) :=
    hR.bind (hR.notice _) fun _ => hR.pure _
  intro desk
  cases hfound : m.program? executable "pdfcpu" with
  | none => simpa only [behind, external, hfound] using hmissing desk
  | some executable =>
    cases hdone : shrink m verbose executable pdf desk with
    | ok u mid => simpa only [behind, external, hfound, hdone] using (hshrink executable).ok hdone
    | error fault mid =>
      refine hR.goOn ((hshrink executable).error hdone) (hfailed fault) ?_
      simp only [behind, external, hfound, hdone]

theorem Machine.WritesIn.respects (hm : m.WritesIn directory) :
    m.Respects (Agree fun p => ¬directory.resolved.Contains p) := ⟨hm.runs, hm.calls⟩

/-- The logs of the compiler are kept in the directory. -/
theorem Compiler.logsIn_agree (directory : Location) :
    LogsIn (Agree fun p => ¬directory.resolved.Contains p) directory := by
  intro name hname content d d' hwrite
  refine agree_of_write hwrite fun p hp hin => hp ?_
  have hother : name ≠ ".." := by
    rcases List.mem_cons.mp hname with rfl | hname
    · decide
    · rw [List.mem_singleton.mp hname]
      decide
  rw [resolved_child hother] at hin
  exact (contains_child ..).trans hin

/-- The compilers stay in the directory of the source. -/
theorem Compiler.ofBackend_staysIn (hm : m.WritesIn directory) (verbose : Bool)
    (backend : Backend) : (ofBackend m verbose backend).StaysIn directory := by
  rintro settings source rfl
  exact ofBackend_respects (isFrame_agree _) hm.respects (logsIn_agree _) verbose backend settings

/-- The optimiser stays in the directory. -/
theorem Optimizer.external_staysIn (hm : m.WritesIn directory) (verbose : Bool)
    (executable : Option String) : StaysIn (external m verbose executable) directory := fun pdf =>
  external_respects (isFrame_agree _) hm.respects verbose executable pdf

end Tools

namespace Compile

variable {compiler : Compiler} {optimizer : Optimizer} {kept directory source : Location}
  {settings : CompileSettings} {S : Location → Prop}

/-- Compiling a book changes no file outside of the directory of the source and the directory kept
for a failed compilation. -/
theorem book_respects (hcompiler : compiler.StaysIn directory)
    (hoptimizer : optimizer.StaysIn directory) (hsource : source.parent = directory)
    (hS : Clear S directory.resolved) (hkept : Clear S kept.resolved) :
    Respects (Agree S) (book compiler optimizer kept settings source) := by
  have hR := isFrame_agree S
  have hcompile : Respects (Agree S) (compiler.compile settings source) := fun desk =>
    (hcompiler settings source hsource desk).mono hS
  have hfailed (reason : ToolFault) : Respects (Agree S) (failed compiler kept source reason) := by
    unfold failed
    split
    · exact hR.throw _
    · exact hR.bind (hR.bind (hR.copyTree _ fun _ _ _ hcopy => agree_of_copyTree hcopy hkept)
        fun _ => hR.notice _) fun _ => hR.throw _
  have hoptimized (pdf : Location) : Respects (Agree S)
      (optimized optimizer settings pdf *> pure (some pdf)) := by
    have hshrink : Respects (Agree S) (optimizer pdf) := fun desk => (hoptimizer pdf desk).mono hS
    refine hR.bind (hR.bind (hR.read _ _) fun wanted => ?_) fun _ => hR.pure _
    split
    · exact hR.bind (hshrink.adaptExcept _) fun _ => hR.pure _
    · exact hR.pure _
  intro desk
  cases hdone : compiler.compile settings source desk with
  | error reason mid =>
    refine hR.goOn (hcompile.error hdone) (hfailed reason) ?_
    simp only [behind, book, hdone]
  | ok artifact mid =>
    cases artifact with
    | none => simpa only [behind, book, hdone] using hcompile.ok hdone
    | some pdf =>
      refine hR.goOn (hcompile.ok hdone) (hoptimized pdf) ?_
      simp only [behind, book, hdone]

end Compile

end Folio
