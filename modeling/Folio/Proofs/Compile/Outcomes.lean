import Folio.Proofs.Compile.Effects
import Folio.Proofs.Disk.Sound
import Mathlib.Data.List.TakeWhile

/-!
# What comes of compiling a book

When the compiler fails, the compilation fails, and everything in the directory of the source is
found in the directory that is kept, unless something there cannot be copied. When the compiler
succeeds, its PDF is what comes of the compilation, whatever becomes of it when it is optimised.
What stops that is an interrupt, which passes through everywhere, and a PDF whose name is too long
to be looked for, which the PDF of a source file with the suffix of one never is.
-/

namespace Folio

open Disk Job Location

/-- Whether a location, or a name in it, is longer than a disk allows. -/
def Location.IsTooLong (l : Location) : Prop :=
  longestLocation < l.toString.utf8ByteSize ∨ ∃ name ∈ l.names, longestName < name.utf8ByteSize

instance (l : Location) : Decidable l.IsTooLong := inferInstanceAs (Decidable (_ ∨ _))

namespace Location

/-- A name without a dot is its own stem. -/
theorem stem_eq_self {name : String} (h : '.' ∉ name.toList) : stem name = name := by
  have hnone : name.toList.reverse.dropWhile (· ≠ '.') = [] := by
    rw [List.dropWhile_eq_nil_iff]
    intro c hc
    have hdot : c ≠ '.' := by
      rintro rfl
      exact h (List.mem_reverse.mp hc)
    simpa using hdot
  simp only [stem, hnone, List.drop_nil, or_true, if_true]

/-- A suffix behind a name leaves the name as the stem. -/
theorem stem_append {s : String} (h : s ≠ "") : stem (s ++ ".typ") = s := by
  have hne : s.toList.reverse ≠ [] := by simpa using h
  simp [stem, hne]

/-- Joined texts are equally long if only their last parts differ, which are equally long. -/
theorem utf8ByteSize_joinWith_concat (separator : String) (names : List String) {s t : String}
    (h : s.utf8ByteSize = t.utf8ByteSize) :
    (Text.joinWith separator (names ++ [s])).utf8ByteSize =
      (Text.joinWith separator (names ++ [t])).utf8ByteSize := by
  induction names with
  | nil => exact h
  | cons name rest ih =>
    have hcons (u : String) : Text.joinWith separator (name :: rest ++ [u]) =
        name ++ separator ++ Text.joinWith separator (rest ++ [u]) := by
      cases rest <;> rfl
    simp only [hcons, String.utf8ByteSize_append, ih]

/-- A PDF beside a source file with the suffix of one is too long only if the source file is. -/
theorem isTooLong_of_withSuffix {l : Location} {s : String} (hs : s ≠ "")
    (hname : l.name = s ++ ".typ") (h : (l.withSuffix ".pdf").IsTooLong) : l.IsTooLong := by
  have hsize : (s ++ ".pdf").utf8ByteSize = (s ++ ".typ").utf8ByteSize := by
    rw [String.utf8ByteSize_append, String.utf8ByteSize_append]
    rfl
  obtain ⟨root, names⟩ := l
  rcases List.eq_nil_or_concat' names with rfl | ⟨names, name, rfl⟩
  · simp [Location.name, String.append_eq_empty_iff] at hname
  · simp only [Location.name, List.getLast?_concat, Option.getD_some] at hname
    subst hname
    have hpdf : withSuffix ⟨root, names ++ [s ++ ".typ"]⟩ ".pdf" =
        ⟨root, names ++ [s ++ ".pdf"]⟩ := by
      simp [withSuffix, parent, child, Location.name, stem_append hs]
    rw [hpdf] at h
    rcases h with hlocation | ⟨other, hother, hlong⟩
    · have hpath : (root ++ Text.joinWith "/" (names ++ [s ++ ".pdf"])).utf8ByteSize =
          (root ++ Text.joinWith "/" (names ++ [s ++ ".typ"])).utf8ByteSize := by
        simp only [String.utf8ByteSize_append, utf8ByteSize_joinWith_concat "/" names hsize]
      refine .inl (lt_of_lt_of_eq hlocation ?_)
      simp only [Location.toString, ← String.utf8ByteSize_eq_zero_iff, hpath]
      split
      · rfl
      · exact hpath
    · rcases List.mem_append.mp hother with hother | hother
      · exact .inr ⟨other, List.mem_append_left _ hother, hlong⟩
      · rw [List.mem_singleton.mp hother, hsize] at hlong
        exact .inr ⟨_, List.mem_append_right _ (List.mem_singleton_self _), hlong⟩

end Location

namespace Disk

variable {d : Disk} {l whole place : Location} {names : List String} {f : DiskFault}

/-- A name on the way that is too long is all that is wrong with names. -/
theorem trouble_of_follow (h : d.follow whole place names = .error f) :
    f.trouble ≠ .unnameable ∧
      (f.trouble = .tooLong → ∃ name ∈ names, longestName < name.utf8ByteSize) := by
  induction names generalizing place with
  | nil => cases h
  | cons name rest ih =>
    rw [follow] at h
    split at h
    · split at h
      · next hname =>
        cases h
        exact ⟨by simp, fun _ => ⟨name, List.mem_cons_self, hname⟩⟩
      · obtain ⟨hnameable, hlong⟩ := ih h
        refine ⟨hnameable, fun htrouble => ?_⟩
        obtain ⟨name, hname, hlong⟩ := hlong htrouble
        exact ⟨name, List.mem_cons_of_mem _ hname, hlong⟩
    · cases h
      simp
    · cases h
      simp

/-- Only a location that is too long cannot be looked at. -/
theorem isTooLong_of_look (h : d.look l = .error f) : f.trouble = .tooLong ∧ l.IsTooLong := by
  unfold look at h
  split at h
  · cases h
  · next fault hfind =>
    split at h
    · next hlong =>
      cases h
      refine ⟨hlong, ?_⟩
      unfold find check at hfind
      split at hfind
      · cases hfind
        cases hlong
      · split at hfind
        · next hlocation => exact .inl hlocation
        · exact .inr ((trouble_of_follow hfind).2 hlong)
    · cases h

/-- Where names lead to does not depend on the location that is named in faults. -/
theorem follow_ok (h : d.follow whole place names = .ok l) (other : Location) :
    d.follow other place names = .ok l := by
  induction names generalizing place with
  | nil => exact h
  | cons name rest ih =>
    rw [follow] at h ⊢
    split at h
    · split at h
      · cases h
      · next hname => simpa only [if_neg hname] using ih h
    · cases h
    · cases h

/-- Names are followed in two parts if there are directories along the first. -/
theorem follow_append {mid : Location} {others : List String}
    (h : d.follow whole place names = .ok mid) :
    d.follow whole place (names ++ others) = d.follow whole mid others := by
  induction names generalizing place with
  | nil => rw [Except.ok.inj h, List.nil_append]
  | cons name rest ih =>
    rw [follow] at h
    rw [List.cons_append, follow]
    split at h
    · split at h
      · cases h
      · next hname => simpa only [if_neg hname] using ih h
    · cases h
    · cases h

/-- A name that is too long cannot be looked for in a directory that there is. -/
theorem look_child_of_long {name : String} (hl : d.isDirectory l = .ok true)
    (hcheck : check (l.child name) = .ok ()) (hlong : longestName < name.utf8ByteSize) :
    d.look (l.child name) = .error ⟨.tooLong, l.child name⟩ := by
  obtain ⟨hfind, hdirectory⟩ := isDirectory_iff.mp hl
  obtain ⟨u, -, hfollow⟩ := bind_ok hfind
  have hend : d.follow (l.child name) l.resolved [name] = .error ⟨.tooLong, l.child name⟩ := by
    simp only [follow, hdirectory, if_pos hlong]
  have hfault : d.find (l.child name) = .error ⟨.tooLong, l.child name⟩ := by
    unfold find
    rw [hcheck]
    exact (follow_append (follow_ok hfollow (l.child name))).trans hend
  simp only [look, hfault, if_true]

/-- What is a file can be measured. -/
theorem size_of_isFile (h : d.isFile l = .ok true) : check l = .ok () ∧ ∃ n, d.size l = .ok n := by
  unfold isFile look at h
  cases hfind : d.find l with
  | error f =>
    rw [hfind] at h
    simp only at h
    split at h <;> cases h
  | ok place =>
    rw [hfind] at h
    obtain ⟨u, hcheck, -⟩ := bind_ok hfind
    refine ⟨hcheck, ?_⟩
    unfold size
    rw [hfind]
    rcases hplace : d.at? place with _ | _ | content
    · simp [hplace, Except.map] at h
    · simp [hplace, Except.map] at h
    · exact ⟨content.size, by simp only [hplace]⟩

/-- What can be named may be missing when it is measured, but not unnameable. -/
theorem trouble_of_size (hcheck : check l = .ok ()) (h : d.size l = .error f) :
    f.trouble ≠ .unnameable := by
  unfold size at h
  split at h
  · next fault hfind =>
    cases h
    unfold find at hfind
    rw [hcheck] at hfind
    exact (trouble_of_follow hfind).1
  · split at h
    · cases h
    · cases h
    · cases h
      simp

end Disk

namespace Job

variable {ε α β : Type} {first : Job ε α} {next : α → Job ε β} {desk mid : Desk}

/-- A job goes on with the result of its first step. -/
theorem bind_of_ok {a : α} (h : first desk = .ok a mid) : (first >>= next) desk = next a mid := by
  change EStateM.bind first next desk = _
  rw [EStateM.bind, h]

/-- A job ends with the fault of its first step. -/
theorem bind_of_error {e : ε} (h : first desk = .error e mid) :
    (first >>= next) desk = .error e mid := by
  change EStateM.bind first next desk = _
  rw [EStateM.bind, h]

end Job

namespace Optimizer

variable {m : Machine} {verbose : Bool} {executable : Option String} {pdf : Location} {desk : Desk}

/-- The run of the program that optimises a PDF, if there is such a program. -/
def runs (m : Machine) (verbose : Bool) (executable : Option String) (pdf : Location) : List Run :=
  match m.program? executable "pdfcpu" with
  | none => []
  | some executable =>
    [⟨[executable, "optimize", pdf.toString], none, if verbose then .shown else .discarded⟩]

/-- A failed attempt only says so, unless no file can have the name or it is interrupted. -/
theorem failed_eq {fault : ToolFault} (h : ∀ f, fault = .disk f → f.trouble ≠ .unnameable)
    (hgoes : ∀ kind, fault ≠ .interrupted kind) :
    failed fault desk =
      .ok false { desk with notices := desk.notices ++ [.optimizationFailed fault.message] } := by
  unfold failed
  split
  · exact absurd rfl (h _ rfl)
  · exact absurd rfl (hgoes _)
  · rfl

/-- A run of a program is recorded, however it ends; it is interrupted exactly if it ends so. -/
theorem runs_run (run : Run) (desk : Desk) :
    (∃ mid, m.run run desk = .ok () mid ∧ mid.runs = desk.runs ++ [run]) ∨
      ∃ fault mid, m.run run desk = .error fault mid ∧ mid.runs = desk.runs ++ [run] ∧
        (∀ f, fault ≠ .disk f) ∧
        ∀ kind, fault = .interrupted kind →
          (m.outcome desk.runs.length run).ending = .interrupted kind := by
  unfold Machine.run
  simp only
  cases (m.outcome desk.runs.length run).ending with
  | done => exact .inl ⟨_, rfl, rfl⟩
  | failed status => exact .inr ⟨_, _, rfl, rfl, nofun, nofun⟩
  | unstartable reason => exact .inr ⟨_, _, rfl, rfl, nofun, nofun⟩
  | interrupted kind => exact .inr ⟨_, _, rfl, rfl, nofun, by rintro kind ⟨⟩; rfl⟩

/-- A PDF that is there is measured and the program is run, whatever comes of it; a fault behind
that is none of the name, and an interrupt is one of the run. -/
theorem shrink_of_isFile (verbose : Bool) (executable : String)
    (h : desk.disk.isFile pdf = .ok true) :
    let run : Run :=
      ⟨[executable, "optimize", pdf.toString], none, if verbose then .shown else .discarded⟩
    (∃ mid, shrink m verbose executable pdf desk = .ok () mid ∧ mid.runs = desk.runs ++ [run]) ∨
      ∃ fault mid, shrink m verbose executable pdf desk = .error fault mid ∧
        mid.runs = desk.runs ++ [run] ∧ (∀ f, fault = .disk f → f.trouble ≠ .unnameable) ∧
        ∀ kind, fault = .interrupted kind →
          (m.outcome desk.runs.length run).ending = .interrupted kind := by
  intro run
  obtain ⟨hcheck, before, hbefore⟩ := size_of_isFile h
  let started : Desk := { desk with notices := desk.notices ++ [.optimizing before] }
  have hmeasured : size pdf desk = .ok before desk := by
    simp only [size, Job.read, hbefore]
  have hstart : shrink m verbose executable pdf desk = (m.run run >>= fun _ => do
      let after ← size pdf
      Job.notice (.optimized before after)) started := by
    rw [shrink, bind_of_ok hmeasured]
    exact bind_of_ok rfl
  rw [hstart]
  rcases runs_run (m := m) run started with
    ⟨mid, hrun, hruns⟩ | ⟨fault, mid, hrun, hruns, hfault, hkind⟩
  · rw [bind_of_ok hrun]
    cases hafter : mid.disk.size pdf with
    | ok after =>
      have hmeasured : size pdf mid = .ok after mid := by
        simp only [size, Job.read, hafter]
      rw [bind_of_ok hmeasured]
      exact .inl ⟨_, rfl, hruns⟩
    | error f =>
      have hmeasured : size pdf mid = .error (.disk f) mid := by
        simp only [size, Job.read, hafter]
      rw [bind_of_error hmeasured]
      refine .inr ⟨_, _, rfl, hruns, ?_, by simp⟩
      rintro f ⟨⟩
      exact trouble_of_size hcheck hafter
  · rw [bind_of_error hrun]
    exact .inr ⟨fault, mid, rfl, hruns, fun f hsame => absurd hsame (hfault f), hkind⟩

/-- Optimising a PDF that is there comes to an end, whatever the program does to it, unless it is
interrupted: the program is run once, if there is one. -/
theorem external_of_isFile (verbose : Bool) (executable : Option String)
    (h : desk.disk.isFile pdf = .ok true) :
    ∃ desk', desk'.runs = desk.runs ++ runs m verbose executable pdf ∧
      ((∃ done, external m verbose executable pdf desk = .ok done desk') ∨
        ∃ kind, external m verbose executable pdf desk = .error (.interrupted kind) desk' ∧
          ∃ run ∈ runs m verbose executable pdf,
            (m.outcome desk.runs.length run).ending = .interrupted kind) := by
  unfold external runs
  cases m.program? executable "pdfcpu" with
  | none =>
    exact ⟨{ desk with notices := desk.notices ++ [.optimizerMissing] }, (List.append_nil _).symm,
      .inl ⟨false, rfl⟩⟩
  | some executable =>
    rcases shrink_of_isFile (m := m) verbose executable h with
      ⟨mid, hshrink, hruns⟩ | ⟨fault, mid, hshrink, hruns, hfault, hkind⟩
    · exact ⟨mid, hruns, .inl ⟨true, by simp only [hshrink]⟩⟩
    · by_cases hgoes : ∃ kind, fault = .interrupted kind
      · obtain ⟨kind, rfl⟩ := hgoes
        refine ⟨mid, hruns, .inr ⟨kind, ?_, _, List.mem_singleton_self _, hkind kind rfl⟩⟩
        simp only [hshrink]
        rfl
      · refine ⟨{ mid with notices := mid.notices ++ [.optimizationFailed fault.message] }, hruns,
          .inl ⟨false, ?_⟩⟩
        simp only [hshrink, failed_eq hfault fun kind hsame => hgoes ⟨kind, hsame⟩]

end Optimizer

namespace Compile

variable {m : Machine} {kept source pdf : Location} {settings : CompileSettings} {desk mid : Desk}

/-- Whether the settings want a PDF to be optimised. -/
def Wants (settings : CompileSettings) : Prop := settings.optimize = true ∧ settings.backend ≠ .none

/-- Hosting a place is kept in sequence. -/
theorem isFrame_hosts (l : Location) : IsFrame fun d d' => d.Hosts l → d'.Hosts l :=
  ⟨fun _ => id, fun h h' hd => h' (h hd)⟩

/-- A fault that is no interrupt fails a compilation once everything is kept. -/
theorem failed_eq {compiler : Compiler} {reason : ToolFault}
    (h : ∀ kind, reason ≠ .interrupted kind) :
    failed compiler kept source reason = preserve source.parent kept >>= fun _ =>
      throw (.failed ⟨source.name, compiler.name, reason⟩) := by
  unfold failed
  split
  · exact absurd rfl (h _)
  · rfl

/-- A failed compilation is copied and reported, and nothing else is done. Where something cannot be
copied, the rest is, and the fault is that of the copy. -/
theorem book_of_error {compiler : Compiler} (optimizer : Optimizer) {reason : ToolFault}
    {made : Disk}
    (h : compiler.compile settings source desk = .error reason mid)
    (hreason : ∀ kind, reason ≠ .interrupted kind)
    (hmid : mid.disk.Hosts source.parent) (hfresh : mid.disk.IsFresh kept)
    (hmade : mid.disk.makeDirectory kept = .ok made) :
    ∃ disk,
      (mid.disk.isReadableBelow source.parent.resolved = true →
        book compiler optimizer kept settings source desk =
          .error (.failed ⟨source.name, compiler.name, reason⟩)
            { mid with disk, notices := mid.notices ++ [.compilationFailed kept.toString] } ∧
        ∀ names ≠ [], disk.at? (kept.below ⟨"", names⟩) =
          mid.disk.at? (source.parent.resolved.below ⟨"", names⟩)) ∧
      (mid.disk.isReadableBelow source.parent.resolved = false →
        book compiler optimizer kept settings source desk =
          .error (.disk ⟨.incomplete, kept⟩) { mid with disk } ∧
        ∀ names ≠ [], disk.at? (kept.below ⟨"", names⟩) =
          (mid.disk.at? (source.parent.resolved.below ⟨"", names⟩)).filter Entry.isReadable) := by
  obtain ⟨disk, hcopy, hcontents⟩ := copyTree_fresh hmid hfresh hmade
  simp only [book, h, failed_eq hreason]
  refine ⟨disk, fun hreadable => ?_, fun hlocked => ?_⟩
  · rw [hreadable] at hcopy
    have hjob : Job.copyTree CompileFault.disk source.parent kept mid =
      .ok () { mid with disk } := by
      simp only [Job.copyTree, hcopy]
    have hpreserve : preserve source.parent kept mid = .ok ()
        { mid with disk, notices := mid.notices ++ [.compilationFailed kept.toString] } :=
      bind_of_ok hjob
    exact ⟨bind_of_ok hpreserve,
      (at?_copyTree hcopy hmid.sound.nodup hfresh.straight hfresh.empty).2⟩
  · have hjob : Job.copyTree CompileFault.disk source.parent kept mid =
        .error (.disk ⟨.incomplete, kept⟩) { mid with disk } := by
      simp only [Job.copyTree, hcopy, hlocked]
    exact ⟨bind_of_error (bind_of_error hjob), hcontents⟩

/-- The file is made smaller if it is wanted and there. -/
theorem optimizes_of_wants (h : Wants settings) (pdf : Location) (disk : Disk) :
    optimizes settings pdf disk = disk.isFile pdf := by
  rw [optimizes, if_pos (by simpa [Wants] using h)]

/-- A PDF that is wanted small and cannot be looked for does not come of the compilation. -/
theorem book_of_look {compiler : Compiler} (optimizer : Optimizer) {f : DiskFault}
    (h : compiler.compile settings source desk = .ok (some pdf) mid) (hwants : Wants settings)
    (hlook : mid.disk.look pdf = .error f) :
    book compiler optimizer kept settings source desk = .error (.disk f) mid := by
  have hfile : mid.disk.isFile pdf = .error f := by
    rw [isFile, hlook]
    rfl
  have hread : Job.read CompileFault.disk (optimizes settings pdf) mid = .error (.disk f) mid := by
    simp only [Job.read, optimizes_of_wants hwants, hfile]
  have hoptimized : optimized optimizer settings pdf mid = .error (.disk f) mid :=
    bind_of_error hread
  simp only [book, h]
  exact bind_of_error hoptimized

/-- A PDF is optimised where that is wanted and it is there, and comes of the compilation unless the
optimiser is interrupted. -/
theorem book_of_pdf {compiler : Compiler} (verbose : Bool) (executable : Option String)
    (h : compiler.compile settings source desk = .ok (some pdf) mid) :
    (Wants settings ∧ mid.disk.isFile pdf = .ok true ∧ ∃ desk',
      desk'.runs = mid.runs ++ Optimizer.runs m verbose executable pdf ∧
      ((∃ done, Optimizer.external m verbose executable pdf mid = .ok done desk' ∧
          book compiler (.external m verbose executable) kept settings source desk =
            .ok (some pdf) desk') ∨
        ∃ kind, (∃ run ∈ Optimizer.runs m verbose executable pdf,
            (m.outcome mid.runs.length run).ending = .interrupted kind) ∧
          book compiler (.external m verbose executable) kept settings source desk =
            .error (.interrupted kind) desk')) ∨
    (¬(Wants settings ∧ mid.disk.isFile pdf = .ok true) ∧
      book compiler (.external m verbose executable) kept settings source desk =
        .ok (some pdf) mid) ∨
    (Wants settings ∧ pdf.IsTooLong ∧ ∃ f : DiskFault, f.trouble = .tooLong ∧
      book compiler (.external m verbose executable) kept settings source desk =
        .error (.disk f) mid) := by
  let optimizer := Optimizer.external m verbose executable
  have hread (wanted : Bool) (hwanted : optimizes settings pdf mid.disk = .ok wanted) :
      Job.read CompileFault.disk (optimizes settings pdf) mid = .ok wanted mid := by
    simp only [Job.read, hwanted]
  have hbook {desk' : Desk} (hend : optimized optimizer settings pdf mid = .ok () desk') :
      book compiler optimizer kept settings source desk = .ok (some pdf) desk' := by
    simp only [book, h]
    exact bind_of_ok hend
  have hleft (hwanted : optimizes settings pdf mid.disk = .ok false) :
      optimized optimizer settings pdf mid = .ok () mid := bind_of_ok (hread false hwanted)
  by_cases hwants : Wants settings
  · have hoptimizes := optimizes_of_wants hwants pdf mid.disk
    cases hfile : mid.disk.isFile pdf with
    | error f =>
      have hlook : mid.disk.look pdf = .error f := by
        unfold isFile at hfile
        cases hlook : mid.disk.look pdf with
        | error f' => rw [hlook] at hfile; cases hfile; rfl
        | ok entry => rw [hlook] at hfile; cases hfile
      obtain ⟨htrouble, hlong⟩ := isTooLong_of_look hlook
      exact .inr (.inr ⟨hwants, hlong, f, htrouble, book_of_look optimizer h hwants hlook⟩)
    | ok there =>
      cases there with
      | false => exact .inr (.inl ⟨by simp, hbook (hleft (hoptimizes.trans hfile))⟩)
      | true =>
        have hstart := hread true (hoptimizes.trans hfile)
        obtain ⟨desk', hruns, ⟨done, hexternal⟩ | ⟨kind, hexternal, hending⟩⟩ :=
          Optimizer.external_of_isFile (m := m) verbose executable hfile
        · have hadapt : EStateM.adaptExcept CompileFault.ofOptimizer (optimizer pdf) mid =
              .ok done desk' := by
            simp only [EStateM.adaptExcept, optimizer, hexternal]
          exact .inl ⟨hwants, rfl, desk', hruns, .inl ⟨done, hexternal,
            hbook ((bind_of_ok hstart).trans (bind_of_ok hadapt))⟩⟩
        · have hadapt : EStateM.adaptExcept CompileFault.ofOptimizer (optimizer pdf) mid =
              .error (.interrupted kind) desk' := by
            simp only [EStateM.adaptExcept, optimizer, hexternal, CompileFault.ofOptimizer]
          have hoptimized :
            optimized optimizer settings pdf mid = .error (.interrupted kind) desk' :=
            (bind_of_ok hstart).trans (bind_of_error hadapt)
          refine .inl ⟨hwants, rfl, desk', hruns, .inr ⟨kind, hending, ?_⟩⟩
          simp only [book, h]
          exact bind_of_error hoptimized
  · refine .inr (.inl ⟨fun hboth => hwants hboth.1, hbook (hleft ?_)⟩)
    rw [optimizes, if_neg (by simpa [Wants] using hwants)]

/-- The compilers of the backends make a PDF beside the source, if they make one. -/
theorem withSuffix_of_ofBackend {verbose : Bool} {backend : Backend}
    (h : (Compiler.ofBackend m verbose backend).compile settings source desk = .ok (some pdf) mid) :
    pdf = source.withSuffix Compiler.pdfSuffix := by
  cases backend with
  | none =>
    obtain ⟨_, _, -, hend⟩ := bind_eq_ok.mp h
    cases hend
  | bundled =>
    simp only [Compiler.ofBackend, Compiler.bundled] at h
    cases hbundled : m.bundled with
    | none =>
      rw [hbundled] at h
      cases h
    | some bundled =>
      rw [hbundled] at h
      obtain ⟨_, _, -, h⟩ := bind_eq_ok.mp h
      obtain ⟨_, _, -, h⟩ := bind_eq_ok.mp h
      obtain ⟨_, _, -, hend⟩ := bind_eq_ok.mp h
      cases hend
      rfl
  | system =>
    simp only [Compiler.ofBackend, Compiler.system] at h
    cases hexecutable : m.program? settings.executable "typst" with
    | none =>
      rw [hexecutable] at h
      cases h
    | some executable =>
      rw [hexecutable] at h
      obtain ⟨_, _, -, h⟩ := bind_eq_ok.mp h
      obtain ⟨_, _, -, h⟩ := bind_eq_ok.mp h
      obtain ⟨_, _, -, h⟩ := bind_eq_ok.mp h
      obtain ⟨_, _, -, hend⟩ := bind_eq_ok.mp h
      cases hend
      rfl

/-- A machine with every program; each run leaves a part of a PDF and ends in one way. -/
def draftingMachine (content : Content) (ending : Ending) : Machine where
  executable name := some name
  outcome _ _ :=
    { effect := fun d => match d.write ⟨"", ["work", "book.pdf"]⟩ content with
        | .ok d => d
        | .error _ => d
      errors := ""
      ending }
  bundled := none

def draftDesk : Desk := .ofDisk [
  (⟨"", ["work"]⟩, .directory), (⟨"", ["work", "book.typ"]⟩, .file (.text "= Book"))]

def draftSettings : CompileSettings := ⟨.system, none, "", true, true, []⟩

/-- The compilation of a draft. -/
def draftOutcome (content : Content) (ending : Ending) :
    EStateM.Result CompileFault Desk (Option Location) :=
  book (.ofBackend (draftingMachine content ending) false .system)
    (.external (draftingMachine content ending) false none) ⟨"", ["kept"]⟩ draftSettings
    ⟨"", ["work", "book.typ"]⟩ draftDesk

/-- The desk of the draft hosts the working directory. -/
theorem hosts_draftDesk : draftDesk.disk.Hosts ⟨"", ["work"]⟩ where
  sound := .concat _ (.concat _ .nil (by decide) rfl) (by decide) rfl
  directory := rfl

/-- The program that drafts keeps the working directory. -/
theorem respects_draftingMachine (content : Content) (ending : Ending) (l : Location) :
    (draftingMachine content ending).Respects fun d d' => d.Hosts l → d'.Hosts l where
  runs count run d hd := by
    unfold draftingMachine
    simp only
    split
    · next hwrite => exact hd.write hwrite
    · exact hd
  calls := nofun

/-- The disk when the compiler has ended. -/
def draftDisk (content : Content) : Disk := draftDesk.disk ++ [
  (⟨"", ["work", "typst-pages.stdout"]⟩, .file (.text "")),
  (⟨"", ["work", "typst-pages.stderr"]⟩, .file (.text "")),
  (⟨"", ["work", "book.pdf"]⟩, .file content)]

/-- The place of the published file is fresh. -/
theorem isFresh_draftDisk (content : Content) : (draftDisk content).IsFresh ⟨"", ["kept"]⟩ where
  straight := by decide
  noFile := rfl
  empty name names := by simp [at?, Table.get?, draftDisk, draftDesk, Desk.ofDisk, Location.below]

/-- The desk when the compiler has ended badly. -/
def brokenDesk (content : Content) : Desk :=
  { draftDesk with
    disk := draftDisk content
    notices := [.compiling "system"]
    runs := [⟨["typst", "compile", "book.typ"], some ⟨"", ["work"]⟩,
      .files ⟨"", ["work", "typst-pages.stdout"]⟩ ⟨"", ["work", "typst-pages.stderr"]⟩⟩] }

/-- A program that fails ends the compilation with what it printed. -/
theorem compile_broken (content : Content) (status : Int) :
    (Compiler.ofBackend (draftingMachine content (.failed status)) false .system).compile
      draftSettings
      ⟨"", ["work", "book.typ"]⟩ draftDesk =
      .error (.exited ["typst", "compile", "book.typ"] status) (brokenDesk content) := rfl

/-- The longest name there can be, without a suffix. -/
def longName : String := String.ofList (List.replicate longestName 'b')

/-- The long name with its suffix changed. -/
theorem withSuffix_longName :
    Location.withSuffix ⟨"", ["work", longName]⟩ ".pdf" = ⟨"", ["work", longName ++ ".pdf"]⟩ := by
  have hstem : stem longName = longName := stem_eq_self (by
    rw [longName, String.toList_ofList]
    decide)
  simp [Location.withSuffix, Location.parent, Location.child, Location.name, hstem]

/-- Nothing is wrong with the path that has the long name. -/
theorem check_longName : check ⟨"", ["work", longName ++ ".pdf"]⟩ = .ok () := by
  have hname : isUnnameable (longName ++ ".pdf") = false := by
    rw [isUnnameable, String.toList_append, longName, String.toList_ofList]
    decide
  have hany : ¬["work", longName ++ ".pdf"].any isUnnameable = true := by
    have hdirectory : isUnnameable "work" = false := by decide
    simp [hname, hdirectory]
  have hlocation : ¬longestLocation <
      (Location.toString ⟨"", ["work", longName ++ ".pdf"]⟩).utf8ByteSize := by decide +kernel
  rw [check, if_neg hany, if_neg hlocation]

/-- A machine with every program, none of which does anything. -/
def idleMachine : Machine := ⟨some, fun _ _ => ⟨id, "", .done⟩, none⟩

/-- A compiler that writes nothing reports the path that it was asked for. -/
theorem compile_idle (name : String) (desk : Desk) :
    (Compiler.ofBackend idleMachine true draftSettings.backend).compile draftSettings
      ⟨"", ["work", name]⟩ desk =
      .ok (some (Location.withSuffix ⟨"", ["work", name]⟩ ".pdf"))
        { desk with
          notices := desk.notices ++ [.compiling "system"] ++ [.compiled]
          runs := desk.runs ++ [⟨["typst", "compile", name], some ⟨"", ["work"]⟩, .shown⟩] } := rfl

end Compile

end Folio
