import Folio.Desk
import Folio.Proofs.Disk.Files

/-!
# What jobs do to the disk

A job may end at any step. Whatever relation holds between a disk and itself and goes on from step
to step holds between the disk before a job and the one behind it, however the job ends, if it holds
for each change of the disk. Reading, giving notices and keeping records change nothing.
-/

namespace Folio

open Disk

/-- A relation between disks that holds from a disk to itself and goes on from step to step. -/
structure Disk.IsFrame (R : Disk → Disk → Prop) : Prop where
  refl : ∀ d, R d d
  trans : ∀ {d d' d''}, R d d' → R d' d'' → R d d''

theorem Disk.isFrame_eq : IsFrame Eq := ⟨fun _ => rfl, Eq.trans⟩

/-- Disks that agree on some places make up a frame. -/
theorem Disk.isFrame_agree (S : Location → Prop) : IsFrame (Agree S) := ⟨.refl S, .trans⟩

namespace Job

variable {ε ε' α : Type} {R : Disk → Disk → Prop} {v : Job ε α}

/-- A job that goes on with the result of another one succeeds when both do. -/
theorem bind_eq_ok {β : Type} {first : Job ε α} {next : α → Job ε β} {desk desk' : Desk}
    {b : β} : (first >>= next) desk = .ok b desk' ↔
      ∃ a mid, first desk = .ok a mid ∧ next a mid = .ok b desk' := by
  change EStateM.bind first next desk = _ ↔ _
  rw [EStateM.bind]
  cases first desk with
  | error e mid => exact ⟨nofun, fun ⟨_, _, h, _⟩ => nomatch h⟩
  | ok a mid =>
    constructor
    · exact fun h => ⟨a, mid, rfl, h⟩
    · rintro ⟨_, _, ⟨⟩, h⟩
      exact h

/-- A job that reads from the disk leaves the desk as it was. -/
theorem read_ok {fault : DiskFault → ε} {f : Disk → Except DiskFault α} {desk desk' : Desk} {a : α}
    (h : Job.read fault f desk = .ok a desk') : f desk.disk = .ok a ∧ desk' = desk := by
  unfold Job.read at h
  split at h
  · next hf =>
    cases h
    exact ⟨hf, rfl⟩
  · cases h

/-- A job that changes the disk changes nothing else on the desk. -/
theorem change_ok {fault : DiskFault → ε} {f : Disk → Except DiskFault Disk} {desk desk' : Desk}
    (h : Job.change fault f desk = .ok () desk') :
    f desk.disk = .ok desk'.disk ∧ desk' = { desk with disk := desk'.disk } := by
  unfold Job.change at h
  split at h
  · next hf =>
    cases h
    exact ⟨hf, rfl⟩
  · cases h

/-- A tree that is copied is copied in full. -/
theorem copyTree_ok {fault : DiskFault → ε} {source target : Location} {desk desk' : Desk}
    (h : Job.copyTree fault source target desk = .ok () desk') :
    desk.disk.copyTree source target = .ok (desk'.disk, true) := by
  unfold Job.copyTree at h
  split at h
  · cases h
  · next hcopy =>
    cases h
    exact hcopy
  · cases h

/-- The desk behind a job, however it ends. -/
def behind (w : Job ε α) (desk : Desk) : Desk :=
  match w desk with
  | .ok _ desk => desk
  | .error _ desk => desk

/-- Whether a job, however it ends, leaves a disk that is in a relation to the disk before it. -/
def Respects (R : Disk → Disk → Prop) (w : Job ε α) : Prop :=
  ∀ desk, R desk.disk (w.behind desk).disk

/-- A job that respects a frame and succeeds has changed the disk within it. -/
theorem Respects.ok (h : Respects R v) {desk desk' : Desk} {a : α} (hv : v desk = .ok a desk') :
    R desk.disk desk'.disk := by
  simpa only [behind, hv] using h desk

/-- A job that respects a frame and fails has changed the disk within it. -/
theorem Respects.error (h : Respects R v) {desk desk' : Desk} {e : ε}
    (hv : v desk = .error e desk') : R desk.disk desk'.disk := by
  simpa only [behind, hv] using h desk

/-- Another name for a fault changes nothing on the disk. -/
theorem Respects.adaptExcept {v : Job ε' α} (f : ε' → ε) (h : Respects R v) :
    Respects R (EStateM.adaptExcept f v) := by
  intro desk
  have hdesk := h desk
  rw [behind, EStateM.adaptExcept]
  rw [behind] at hdesk
  cases hfirst : v desk <;> simpa only [hfirst] using hdesk

end Job

open Job

namespace Disk.IsFrame

variable {ε ε' α β β' : Type} {R : Disk → Disk → Prop} {v : Job ε α} {w : α → Job ε β}
  (hR : IsFrame R)

include hR

/-- A job that has its result at once changes nothing on the disk. -/
theorem pure (a : α) : Respects R (pure a : Job ε α) := fun desk => hR.refl desk.disk

/-- A job that fails at once changes nothing on the disk. -/
theorem throw (e : ε) : Respects R (throw e : Job ε α) := fun desk => hR.refl desk.disk

theorem get : Respects R (get : Job ε Desk) := fun desk => hR.refl desk.disk

/-- Reading changes nothing on the disk. -/
theorem read (fault : DiskFault → ε) (f : Disk → Except DiskFault α) :
    Respects R (Job.read fault f) := by
  intro desk
  rw [behind, Job.read]
  cases f desk.disk <;> exact hR.refl desk.disk

/-- A change of the desk that spares the disk is within every frame. -/
theorem modify {f : Desk → Desk} (h : ∀ desk, (f desk).disk = desk.disk) :
    Respects R (modify f : Job ε Unit) := fun desk => by
  change R desk.disk (f desk).disk
  rw [h]
  exact hR.refl desk.disk

/-- Notices change nothing on the disk. -/
theorem notices (ns : List Notice) : Respects R (Job.notices ns : Job ε Unit) :=
  hR.modify fun _ => rfl

theorem notice (n : Notice) : Respects R (Job.notice n : Job ε Unit) := hR.notices [n]

/-- A change of the disk is within a frame if the disk it makes is. -/
theorem change (fault : DiskFault → ε) {f : Disk → Except DiskFault Disk}
    (h : ∀ d d', f d = .ok d' → R d d') : Respects R (Job.change fault f) := by
  intro desk
  rw [behind, Job.change]
  cases hf : f desk.disk with
  | error e => exact hR.refl desk.disk
  | ok d => exact h _ _ hf

/-- Copying a tree is within a frame if the disk it makes is, with every file or without some. -/
theorem copyTree (fault : DiskFault → ε) {source target : Location}
    (h : ∀ d d' whole, d.copyTree source target = .ok (d', whole) → R d d') :
    Respects R (Job.copyTree fault source target) := by
  intro desk
  rw [behind, Job.copyTree]
  cases hcopy : desk.disk.copyTree source target with
  | error e => exact hR.refl desk.disk
  | ok result =>
    obtain ⟨d, whole⟩ := result
    cases whole <;> exact h _ _ _ hcopy

/-- A job that is refused under a condition is left out or run. -/
theorem refusing {condition : Prop} [Decidable condition] (e : ε) {v : Job ε α}
    (hv : Respects R v) :
      Respects R (if condition then v else MonadExcept.throw e >>= fun _ : PUnit => v) := by
  split
  · exact hv
  · exact fun desk => hR.refl desk.disk

/-- A job that comes to another one on a later desk. -/
theorem goOn {u : Job ε β} {w : Job ε' β'} {desk mid : Desk} (hmid : R desk.disk mid.disk)
    (hw : Respects R w) (h : (u.behind desk).disk = (w.behind mid).disk) :
    R desk.disk (u.behind desk).disk := by
  rw [h]
  exact hR.trans hmid (hw mid)

/-- What follows need only respect the relation behind a result that there can be. -/
theorem bind_of_ok (hv : Respects R v)
    (hw : ∀ a desk desk', v desk = .ok a desk' → Respects R (w a)) : Respects R (v >>= w) := by
  intro desk
  change R desk.disk (behind (EStateM.bind v w) desk).disk
  cases hfirst : v desk with
  | error e mid =>
    simp only [behind, EStateM.bind, hfirst]
    exact hv.error hfirst
  | ok a mid =>
    refine hR.goOn (hv.ok hfirst) (hw a desk mid hfirst) ?_
    simp only [behind, EStateM.bind, hfirst]

/-- Jobs in sequence are within a frame if each of them is. -/
theorem bind (hv : Respects R v) (hw : ∀ a, Respects R (w a)) : Respects R (v >>= w) :=
  hR.bind_of_ok hv fun a _ _ _ => hw a

end Disk.IsFrame

end Folio
