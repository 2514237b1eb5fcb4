import Folio.Proofs.Render.Steps

/-!
# The faults that writing a node ends with

In a fitting tree every node can be written as it stands, and so the writing ends with errors that
say what is wrong: with those of the program itself, or with those of the disk that images are
looked for on. Besides, it gives up on footnotes that are nested too deep.
-/

namespace Folio

open Draft

namespace Fault

/-- Whether a fault is an error of the program itself. -/
def isOwn : Fault → Bool
  | unresolved .. | unsupported _ | uncovered _ | missingRawPage _ => true
  | misplaced | depthTooLong | circularFootnote | unshowable | interrupted _ | disk _ => false

/-- Whether a fault is an error of the program itself or of the disk. -/
def IsReported (f : Fault) : Prop := f.isOwn = true ∨ ∃ trouble, f = disk trouble

/-- Footnotes that run in a circle are not reported as a fault of the source. -/
theorem IsReported.ne_circularFootnote {f : Fault} (h : f.IsReported) : f ≠ circularFootnote := by
  rintro rfl
  rcases h with hown | ⟨trouble, hdisk⟩
  · cases hown
  · cases hdisk

end Fault

/-! ### Where something is looked up -/

/-- A fragment that cannot be looked up is reported. -/
theorem Labels.isReported_of_resolve {labels : Labels} {page fragment : String} {f : Fault}
    (h : labels.resolve page fragment = .error f) : f.IsReported := by
  rw [resolve, resolveName] at h
  split at h
  · cases h
  split at h
  · cases h
  split at h
  · cases h
    exact .inl rfl
  · cases h

/-- A link to a page fails only because the page or the fragment is unknown. -/
theorem Labels.isReported_of_map_resolve {labels : Labels} {page fragment : String} {f : Fault}
    (h : (labels.resolve page fragment).map Target.label = .error f) : f.IsReported := by
  cases hresolve : labels.resolve page fragment with
  | ok id =>
    rw [hresolve] at h
    cases h
  | error g =>
    rw [hresolve] at h
    cases h
    exact isReported_of_resolve hresolve

/-- The destination of a link that cannot be looked up is reported. -/
theorem isReported_of_linkTarget {labels : Labels} {page destination : String} {f : Fault}
    (h : linkTarget labels page destination = .error f) : f.IsReported := by
  rw [linkTarget] at h
  split at h
  · cases h
  split at h
  · exact Labels.isReported_of_map_resolve h
  split at h
  · exact Labels.isReported_of_map_resolve h
  · cases h

/-- A node without a link, or with one that cannot be looked up, is reported. -/
theorem Node.isReported_of_destination {labels : Labels} {page : String} {n : Node} {f : Fault}
    (h : n.destination labels page = .error f) : f.IsReported := by
  cases n with
  | link destination cs => exact isReported_of_linkTarget h
  | pageLink page fragment cs => exact Labels.isReported_of_map_resolve h
  | indexEntry | contentsEntry => cases h
  | body tree url =>
    cases url <;> cases h
    exact .inl rfl
  | _ =>
    cases h
    exact .inl rfl

/-- A file that cannot be looked for is reported. -/
theorem Folder.isReported_of_hasFile {folder : Folder} {path : String} {f : Fault}
    (h : folder.hasFile path = .error f) : f.IsReported := by
  rw [hasFile] at h
  cases hfile : folder.disk.isFile (folder.locate path) with
  | ok found =>
    rw [hfile] at h
    cases h
  | error trouble =>
    rw [hfile] at h
    cases h
    exact .inr ⟨trouble, rfl⟩

namespace Draft

/-- Whether a draft ends without a fault or with one of certain faults. -/
def FaultsIn (allowed : Fault → Prop) (d : Draft) : Prop := ∀ f, d.fault = some f → allowed f

namespace FaultsIn

variable {allowed : Fault → Prop} {a b d : Draft} {f : Fault}

theorem plain (h : d.fault = none := by rfl) : d.FaultsIn allowed := by
  intro f hf
  rw [h] at hf
  cases hf

/-- Writing may stop with a fault that is allowed. -/
theorem stop (h : allowed f) : (stop f).FaultsIn allowed := by
  rintro _ ⟨⟩
  exact h

/-- Drafts in sequence stop with the fault of either part. -/
theorem seq (ha : a.FaultsIn allowed) (hb : b.FaultsIn allowed) : (a >> b).FaultsIn allowed := by
  cases hfault : a.fault with
  | none =>
    intro f hf
    rw [fault_seq hfault] at hf
    exact hb f hf
  | some f =>
    rw [seq_of_fault hfault]
    exact ha

/-- In front of a draft may stand what has no fault. -/
theorem behind (hb : b.FaultsIn allowed) (ha : a.fault = none := by rfl) :
    (a >> b).FaultsIn allowed := seq (plain ha) hb

/-- Behind a draft may stand what has no fault. -/
theorem before (ha : a.FaultsIn allowed) (hb : b.fault = none := by rfl) :
    (a >> b).FaultsIn allowed := seq ha (plain hb)

/-- A result that is missing is a fault as well. -/
theorem ofExcept {α : Type} {e : Except Fault α} {next : α → Draft}
    (he : ∀ f, e = .error f → allowed f) (hnext : ∀ x, (next x).FaultsIn allowed) :
    (ofExcept e next).FaultsIn allowed := by
  cases e with
  | ok x => exact hnext x
  | error f => exact stop (he f rfl)

end FaultsIn

end Draft

/-- An image is missed with a notice, and what cannot be looked for is reported. -/
theorem imageCheck_faultsIn (r : Renderer) (page destination : String) (isLocal : Bool) :
    (imageCheck r page destination isLocal).FaultsIn Fault.IsReported := by
  simp only [imageCheck]
  split
  · exact .plain
  split
  · exact .plain
  split
  · exact .plain
  · exact .ofExcept (fun _ => Folder.isReported_of_hasFile) fun _ => .plain (fault_when rfl _)

/-! ### Nodes -/

/-- The text of a footnote is fitting if the footnote is. -/
theorem Node.Fitting.footnoteText {cs : List Node} (h : Fitting cs) :
    Fitting (footnoteText cs) := fun n hn => h n (Node.partsAll_footnoteText_subset cs hn)

/-- Whether the nodes of a passage are of the form that its rule is for. -/
def Passage.fits : Passage → Bool
  | items _ _ _ ns => ns.all fun n => n.contents?.isSome
  | item _ _ n | contentsOf _ n => n.contents?.isSome
  | bodies _ ns => ns.all Node.isReadableBody
  | index _ ns => ns.all Node.isIndexEntry
  | contents _ _ _ ns => ns.all Node.isContentsEntry
  | _ => true

/-- Whether a step is one of those that are taken for fitting nodes. -/
def Step.Fits : Step → Prop
  | stop f => f.IsReported
  | link _ _ t | passage t => t.fits = true
  | _ => True

section Steps

open Step (all_nil all_singleton all_cons all_append)

/-- A node that fits takes steps that fit. -/
theorem Passage.fits_node_steps (c : Context) (n : Node) (hn : n.fits = true) :
    Step.All Step.Fits (n.steps c) := by
  cases n with
  | body | indexEntry | contentsEntry => exact all_singleton.mpr (.inl rfl)
  | raw | link =>
    rw [Node.steps]
    split <;> simp only [all_cons, all_nil, Step.Fits, fits, and_true]
  | index | contents =>
    rw [Node.steps]
    split
    · exact all_singleton.mpr trivial
    · simp only [all_cons, all_nil, Step.Fits, fits, true_and, and_true]
      exact hn
  | list =>
    simp only [Node.steps, all_cons, all_nil, Step.Fits, fits, true_and, and_true]
    exact hn
  | binding =>
    simp only [Node.steps, all_append, all_cons, all_nil, Step.Fits, fits, true_and, and_true]
    exact ⟨Step.all_codeInline (fun _ => trivial) trivial, hn⟩
  | code =>
    simp only [Node.steps, all_append, all_cons, all_nil, Step.Fits, true_and, and_true,
      List.cons_append]
    exact Step.all_codeInline (fun _ => trivial) trivial
  | _ => simp only [Node.steps, all_cons, all_nil, Step.Fits, fits, and_true]

/-- For fitting nodes no rule stops but with a fault that is reported. -/
theorem Passage.fits_steps (t : Passage) (ht : t.fits = true)
    (hnodes : ∀ n ∈ t.nodes, n.fits = true) : Step.All Step.Fits t.steps := by
  cases t with
  | node c n => exact fits_node_steps c n (hnodes n (List.mem_singleton_self n))
  | all c ns =>
    cases ns with
    | nil => exact all_nil
    | cons n rest => exact all_cons.mpr ⟨rfl, all_singleton.mpr rfl⟩
  | top c ns =>
    cases ns with
    | nil => exact all_nil
    | cons n rest =>
      rw [steps, all_append]
      refine ⟨?_, all_singleton.mpr rfl⟩
      split <;> simp only [all_cons, all_nil, Step.Fits, fits, and_true]
  | items c depth ordered ns =>
    cases ns with
    | nil => exact all_nil
    | cons n rest =>
      obtain ⟨hn, hrest⟩ := Bool.and_eq_true_iff.mp ht
      exact all_cons.mpr ⟨trivial, all_cons.mpr ⟨hn, all_singleton.mpr hrest⟩⟩
  | item c depth n =>
    obtain ⟨cs, hcs⟩ := Option.isSome_iff_exists.mp ht
    rw [steps, hcs]
    refine all_cons.mpr ⟨rfl, ?_⟩
    split <;> simp only [all_cons, all_nil, Step.Fits, and_true]
  | parts c depth further ns =>
    cases ns with
    | nil => exact all_nil
    | cons n rest =>
      have hn := hnodes n List.mem_cons_self
      cases n with
      | list ordered items =>
        simp only [steps, all_cons, all_nil, Step.Fits, true_and, and_true]
        exact ⟨hn, rfl⟩
      | _ =>
        refine all_append.mpr ⟨?_, all_cons.mpr ⟨rfl, all_singleton.mpr rfl⟩⟩
        split <;> simp only [all_cons, all_nil, Step.Fits, and_true]
  | bodies c ns =>
    cases ns with
    | nil => exact all_nil
    | cons n rest =>
      obtain ⟨hn, hrest⟩ := Bool.and_eq_true_iff.mp ht
      cases n with
      | body tree url =>
        rw [steps, all_append, all_append]
        simp only [all_cons, all_nil, Step.Fits, true_and, and_true]
        exact ⟨⟨hn, Step.all_source (fun _ => trivial) fun _ _ => trivial⟩, hrest⟩
      | _ => cases hn
  | contentsOf c n =>
    obtain ⟨cs, hcs⟩ := Option.isSome_iff_exists.mp ht
    rw [steps, hcs]
    exact all_singleton.mpr rfl
  | index c ns =>
    cases ns with
    | nil => exact all_nil
    | cons n rest =>
      obtain ⟨hn, hrest⟩ := Bool.and_eq_true_iff.mp ht
      cases n with
      | indexEntry name page label =>
        rw [steps, all_append, all_append]
        simp only [all_cons, all_nil, Step.Fits, true_and, and_true]
        exact ⟨Step.all_codeInline (fun _ => trivial) trivial, hrest⟩
      | _ => cases hn
  | contents c minLevel depth ns =>
    cases ns with
    | nil => exact all_nil
    | cons n rest =>
      obtain ⟨hn, hrest⟩ := Bool.and_eq_true_iff.mp ht
      cases n with
      | contentsEntry page label level cs =>
        rw [steps]
        split
        · exact all_singleton.mpr hrest
        · simp only [all_append, all_cons, all_nil, Step.Fits, true_and, and_true]
          exact ⟨Step.all_bullets fun _ => trivial, rfl, hrest⟩
      | _ => cases hn

end Steps

/-- What a rule hands on for fitting nodes is fitting. -/
theorem Passage.fits_of_mem_within {t t' : Passage} (ht : t.fits = true)
    (hnodes : Node.Fitting t.nodes)
    (h : t' ∈ t.within) : t'.fits = true ∧ Node.Fitting t'.nodes := by
  refine ⟨?_, fun n hn => hnodes n ((hands_of_mem_within h).partsAll_subset hn)⟩
  obtain ⟨s, hs, ht'⟩ := List.mem_flatMap.mp h
  have hfits := fits_steps t ht
    (fun n hn => hnodes n (Node.mem_partsAll.mpr ⟨n, hn, n.self_mem_parts⟩)) s hs
  cases s with
  | link c n text | passage text =>
    obtain rfl := List.mem_singleton.mp ht'
    exact hfits
  | _ => cases ht'

theorem Draft.FaultsIn.closed {allowed : Fault → Prop} : Closed (FaultsIn allowed) where
  empty := .plain
  seq := .seq

section Nodes

open Node (Fitting FittingNotes)

variable (r : Renderer) (expand : Context → List Node → Draft) {allowed : Fault → Prop}
  (hallowed : ∀ f : Fault, f.IsReported → allowed f)
  (hexpand : ∀ (c : Context) (cs : List Node), FittingNotes c.notes → Fitting cs →
    (expand c cs).FaultsIn allowed)

include hallowed hexpand

/-- A step for fitting nodes ends with a fault that is reported, or as a footnote does. -/
theorem Step.draft_faultsIn {t : Passage} (hc : FittingNotes t.context.notes) (s : Step)
    (hs : s.IsOf t) (hfits : s.Fits)
    (hpassages : ∀ t' ∈ s.passages, (t'.draft r expand).FaultsIn allowed) :
    (s.draft r expand).FaultsIn allowed := by
  cases s with
  | stop f => exact .stop (hallowed f hfits)
  | image page destination isLocal =>
    exact fun f hf => hallowed f (imageCheck_faultsIn r page destination isLocal f hf)
  | refer c n =>
    exact .ofExcept (fun f hf => hallowed f (Node.isReported_of_destination hf)) fun _ => .plain
  | link c n text =>
    have htext := hpassages text (List.mem_singleton_self text)
    exact .ofExcept (fun f hf => hallowed f (Node.isReported_of_destination hf)) fun _ =>
      .behind (.behind (.before htext))
  | mark c id =>
    rw [draft, hs.1]
    cases hnote : t.context.notes.get? id with
    | none => exact .plain
    | some cs =>
      exact .behind (.before (hexpand t.context.block _ hc (hc id cs hnote).footnoteText))
  | passage t' => exact hpassages t' (List.mem_singleton_self t')
  | _ => exact .plain (fault_draft_of_isPlain r expand trivial)

/-- Fitting nodes end with a fault that is reported, or as a footnote does. -/
theorem Passage.draft_faultsIn (t : Passage) (hc : FittingNotes t.context.notes)
    (ht : t.fits = true)
    (hnodes : Fitting t.nodes) : (t.draft r expand).FaultsIn allowed := by
  refine keeps FaultsIn.closed
    (fun t => FittingNotes t.context.notes ∧ t.fits = true ∧ Fitting t.nodes)
    (fun t t' h ht' => ?_) (fun t h s hs => ?_) t ⟨hc, ht, hnodes⟩
  · rw [(hands_of_mem_within ht').context.notes]
    exact ⟨h.1, fits_of_mem_within h.2.1 h.2.2 ht'⟩
  · exact Step.draft_faultsIn r expand hallowed hexpand h.1 s (isOf_steps t s hs)
      (fits_steps t h.2.1
        (fun n hn => h.2.2 n (Node.mem_partsAll.mpr ⟨n, hn, n.self_mem_parts⟩)) s hs)

end Nodes

/-- Fitting nodes give up or end with a fault that is reported, however deep footnotes may be
nested. -/
theorem Renderer.draftUpTo_faultsIn (r : Renderer) (depth : Nat) (c : Context) (cs : List Node)
    (hc : Node.FittingNotes c.notes) (h : Node.Fitting cs) :
    (r.draftUpTo depth c cs).FaultsIn fun f => f = .circularFootnote ∨ f.IsReported := by
  induction depth generalizing c cs with
  | zero => exact .stop (.inl rfl)
  | succ depth ih => exact Passage.draft_faultsIn r _ (fun _ => .inr) ih (.all c cs) hc rfl h

end Folio
