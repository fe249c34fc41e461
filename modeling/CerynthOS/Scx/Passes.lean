import CerynthOS.Scx.Loop

/-! Runs of passes: what becomes of the tasks that the scheduler dequeues.

    A pass keeps no task: whatever it dequeued it has either submitted or, when no slot could be
    reserved, dropped. So the scheduler accounts for all tasks exactly as long as no reservation is
    refused. -/

namespace CerynthOS.Scx
namespace Scheduler

variable (rings : Rings)

/-- The scheduler after `n` passes. -/
def passes (self : Scheduler) : ℕ → Scheduler
  | 0 => self
  | n + 1 => (passes self n).dispatchTasks rings

/-- The tasks `dequeue_task` has returned so far. -/
def dequeued (self : Scheduler) : List QueuedTask := rings.taken self.bpf.consumeCalls

/-- Every dequeued task was submitted exactly once or is held for a later pass, and those held are
    what is reported as pending. -/
def Accounted (self : Scheduler) : Prop := ∃ sent held : List QueuedTask,
  self.bpf.dispatched.records = sent.map .new ∧ (sent ++ held).Perm (self.dequeued rings) ∧
    self.bpf.nrScheduled.toNat = held.length

/-- What holds between passes. -/
structure BetweenPasses (s : Scheduler) : Prop where
  pending : s.bpf.nrScheduled = 0
  calls : s.bpf.reserveCalls = (s.dequeued rings).length
  sent : ∃ sent : List QueuedTask, s.bpf.dispatched.records = sent.map .new ∧
    sent.length ≤ (s.dequeued rings).length ∧
    (sent.length = (s.dequeued rings).length →
      ∀ i < s.bpf.reserveCalls, rings.reserve i = true) ∧
    ((∀ i < s.bpf.reserveCalls, rings.reserve i = true) → sent.Perm (s.dequeued rings))

theorem betweenPasses_init (pid : UInt32) (startedAtMs : UInt64) (profile : Profile) :
    BetweenPasses rings (init pid startedAtMs profile) where
  pending := rfl
  calls := rfl
  sent := ⟨[], rfl, Nat.le_refl _, fun _ _ h => absurd h (Nat.not_lt_zero _), fun _ => .refl _⟩

/-- A range of reservations is granted when its two parts are. -/
theorem forall_lt_add (m n : ℕ) (p : ℕ → Prop) :
    (∀ i < m + n, p i) ↔ (∀ i < m, p i) ∧ ∀ j < n, p (m + j) := by
  constructor
  · exact fun h => ⟨fun i hi => h i (by omega), fun j hj => h (m + j) (by omega)⟩
  · rintro ⟨hm, hn⟩ i hi
    by_cases h : i < m
    · exact hm i h
    · have := hn (i - m) (by omega)
      rwa [Nat.add_sub_cancel' (by omega)] at this

theorem betweenPasses_step {self : Scheduler} (h : BetweenPasses rings self) :
    BetweenPasses rings (self.dispatchTasks rings) := by
  obtain ⟨batch, -, htaken, hrecords, hcalls, hpending, -⟩ := dispatchTasks_spec rings self
  obtain ⟨sent, hsent, hle, honly, hall⟩ := h.sent
  have hdeq : (self.dispatchTasks rings).dequeued rings = self.dequeued rings ++ batch := htaken
  have hgle := rings.length_granted_le self.bpf.reserveCalls (orderTasks self.profile batch)
  have hgiff := rings.length_granted_iff self.bpf.reserveCalls (orderTasks self.profile batch)
  have hperm := orderTasks_perm self.profile batch
  rw [hperm.length_eq] at hgle hgiff
  refine ⟨hpending, by rw [hcalls, hdeq, List.length_append, h.calls],
    sent ++ rings.granted self.bpf.reserveCalls (orderTasks self.profile batch), ?_, ?_, ?_, ?_⟩
  · rw [hrecords, hsent, List.map_append]
  · rw [hdeq, List.length_append, List.length_append]; omega
  · intro hlen
    rw [hdeq, List.length_append, List.length_append] at hlen
    rw [hcalls, forall_lt_add]
    exact ⟨honly (by omega), hgiff.mp (by omega)⟩
  · intro hgrant
    rw [hcalls, forall_lt_add] at hgrant
    rw [hdeq, rings.granted_eq (by rw [hperm.length_eq]; exact hgiff.mpr hgrant.2)]
    exact (hall hgrant.1).append hperm

theorem betweenPasses_run {self : Scheduler} (h : BetweenPasses rings self) (n : ℕ) :
    BetweenPasses rings (self.passes rings n) := by
  induction n with
  | zero => exact h
  | succ n ih => exact betweenPasses_step rings ih

/-- The tasks are accounted for at the end of a pass exactly when no reservation made for a dequeued
    task was refused up to then. -/
theorem accounted_iff (pid : UInt32) (startedAtMs : UInt64) (profile : Profile) (n : ℕ) :
    ((init pid startedAtMs profile).passes rings n).Accounted rings ↔
      ∀ i < (((init pid startedAtMs profile).passes rings n).dequeued rings).length,
        rings.reserve i = true := by
  have h := betweenPasses_run rings (betweenPasses_init rings pid startedAtMs profile) n
  obtain ⟨sent, hsent, hle, honly, hall⟩ := h.sent
  rw [← h.calls]
  constructor
  · rintro ⟨sent', held, hsent', hperm, hheld⟩
    have hnil : held = [] := List.eq_nil_of_length_eq_zero (by rw [← hheld, h.pending]; rfl)
    have hlen : sent.length = sent'.length := by
      simpa using congrArg List.length (hsent.symm.trans hsent')
    rw [hnil, List.append_nil] at hperm
    exact honly (hlen.trans hperm.length_eq)
  · intro hgrant
    exact ⟨sent, [], hsent, by rw [List.append_nil]; exact hall hgrant, by rw [h.pending]; rfl⟩

/-- A queued ring that holds one task, and a user ring that always has a free slot, or never. -/
def oneTask (free : Bool) : Rings where
  consume
    | 0 => .record {
        pid := 1201
        cpu := 0
        nrCpusAllowed := 4
        flags := 0
        startTs := 0
        stopTs := 0
        execRuntime := 0
        weight := 100
        vtime := 0
        enqCnt := 1
        comm := .replicate 16 0 }
    | _ => .empty
  reserve _ := free

/-- A task whose slot cannot be reserved is neither submitted nor held. -/
theorem fullRings_drop : ¬ ∀ (rings : Rings) (pid : UInt32) (startedAtMs : UInt64)
    (profile : Profile) (n : ℕ),
    ((init pid startedAtMs profile).passes rings n).Accounted rings := by
  intro h
  obtain ⟨sent, held, hsent, hperm, hheld⟩ := h (oneTask false) 1 0 .balanced 1
  have hrecords : sent = [] := List.map_eq_nil_iff.mp (hsent.symm.trans (by decide))
  have hnil : held = [] := List.eq_nil_of_length_eq_zero (hheld.symm.trans (by decide))
  have hlen := hperm.length_eq
  rw [hrecords, hnil] at hlen
  exact absurd hlen (by decide)

end Scheduler

end CerynthOS.Scx
