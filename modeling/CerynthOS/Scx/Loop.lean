import CerynthOS.Schemes.RingBuffer
import CerynthOS.Scx.Policy

/-! The user-space side: one pass of the scheduler takes a batch off the queued ring, orders it and
    submits it to the dispatched ring.

    What the kernel answers is a stream of outcomes for each of the two ring operations, indexed by
    the number of the call: a read of the queued ring finds a record, nothing or an error, and a
    slot of the user ring can be reserved or not. -/

namespace CerynthOS.Scx
open Machine

/-- What one `consume_raw_n(1)` on the queued ring finds. -/
inductive Consumed where
  | empty
  | record (task : QueuedTask)
  | error (res : Int32)

/-- The kernel's answers to the ring operations, by number of the call. -/
structure Rings where
  consume : ℕ → Consumed
  reserve : ℕ → Bool

/-- The handle on the BPF side; `consumeCalls` and `reserveCalls` number the ring operations. -/
structure BpfScheduler where
  dispatched : RingBuffer DispatchedTask
  nrQueued : UInt64
  nrScheduled : UInt64
  consumeCalls : ℕ
  reserveCalls : ℕ

namespace BpfScheduler

/-- `dequeue_task`. -/
def dequeueTask (rings : Rings) (self : BpfScheduler) :
    BpfScheduler × Except Int32 (Option QueuedTask) :=
  let found := rings.consume self.consumeCalls
  let self := { self with consumeCalls := self.consumeCalls + 1 }
  match found with
  | .empty => ({ self with nrQueued := 0 }, .ok none)
  | .record task => ({ self with nrQueued := satSub64 self.nrQueued 1 }, .ok (some task))
  | .error res => (self, .error res)

/-- `dispatch_task`: fails when no slot can be reserved; a reserved slot is always submitted. -/
def dispatchTask (rings : Rings) (self : BpfScheduler) (task : DispatchedTask) :
    BpfScheduler × Bool :=
  let reserved := rings.reserve self.reserveCalls
  let self := { self with reserveCalls := self.reserveCalls + 1 }
  if reserved then ({ self with dispatched := self.dispatched.submit task }, true)
  else (self, false)

/-- `notify_complete`. -/
def notifyComplete (self : BpfScheduler) (nrPending : UInt64) : BpfScheduler :=
  { self with nrScheduled := nrPending }

end BpfScheduler

/-- Diagnostic counters. -/
structure SchedulerStats where
  pid : UInt32
  profile : String
  heartbeat : UInt64
  schedulerUptimeMs : UInt64
  progressSequence : UInt64
  tasksDequeued : UInt64
  tasksDispatched : UInt64
  reporterDrops : UInt64
  dispatchErrors : UInt64
  dequeueErrors : UInt64
  batchesProcessed : UInt64
  avgBatchSize : Float
  maxBatchSize : UInt64
  kernelQueued : UInt64
  kernelScheduled : UInt64
  kernelUserDispatches : UInt64
  kernelDirectDispatches : UInt64
  kernelFailedDispatches : UInt64
  kernelCancelDispatches : UInt64

/-- The scheduler between two passes. -/
structure Scheduler where
  bpf : BpfScheduler
  profile : Profile
  startedAtMs : UInt64
  stats : SchedulerStats

def maxBatch : ℕ := 64

namespace Scheduler

/-- The dequeue loop of `dispatch_tasks`, with room for so many more tasks. -/
def dequeueBatch (rings : Rings) : ℕ → Scheduler → Scheduler × List QueuedTask
  | 0, self => (self, [])
  | room + 1, self =>
    match self.bpf.dequeueTask rings with
    | (bpf, .ok (some task)) =>
      let (self, tasks) := dequeueBatch rings room { self with bpf := bpf }
      (self, task :: tasks)
    | (bpf, .ok none) => ({ self with bpf := bpf }, [])
    | (bpf, .error _) =>
      ({ self with
        bpf := bpf
        stats := { self.stats with dequeueErrors := self.stats.dequeueErrors + 1 } }, [])

/-- The batch counters of `dispatch_tasks`. -/
def countBatch (self : Scheduler) (batchSize : UInt64) : Scheduler :=
  let stats := { self.stats with tasksDequeued := self.stats.tasksDequeued + batchSize }
  if batchSize > 0 then
    let stats := { stats with
      batchesProcessed := stats.batchesProcessed + 1
      maxBatchSize := max stats.maxBatchSize batchSize }
    { self with stats := { stats with
      avgBatchSize := toF64 stats.tasksDequeued.toNat / toF64 stats.batchesProcessed.toNat } }
  else { self with stats := stats }

/-- The dispatch of one task of the batch. -/
def dispatchOne (rings : Rings) (self : Scheduler) (task : QueuedTask) : Scheduler :=
  match self.bpf.dispatchTask rings (.new task) with
  | (bpf, true) =>
    { self with
      bpf := bpf
      stats := { self.stats with tasksDispatched := self.stats.tasksDispatched + 1 } }
  | (bpf, false) =>
    { self with
      bpf := bpf
      stats := { self.stats with dispatchErrors := self.stats.dispatchErrors + 1 } }

/-- `dispatch_tasks`: one pass. -/
def dispatchTasks (rings : Rings) (self : Scheduler) : Scheduler :=
  let (self, tasks) := self.dequeueBatch rings maxBatch
  let self := self.countBatch (.ofNat tasks.length)
  let self := (orderTasks self.profile tasks).foldl (dispatchOne rings) self
  { self with
    bpf := self.bpf.notifyComplete 0
    stats := { self.stats with progressSequence := self.stats.progressSequence + 1 } }

/-- The counters of a scheduler process that was just started. -/
def initialStats (pid : UInt32) (profile : Profile) : SchedulerStats where
  pid := pid
  profile := profile.debug
  heartbeat := 0
  schedulerUptimeMs := 0
  progressSequence := 0
  tasksDequeued := 0
  tasksDispatched := 0
  reporterDrops := 0
  dispatchErrors := 0
  dequeueErrors := 0
  batchesProcessed := 0
  avgBatchSize := 0.0
  maxBatchSize := 0
  kernelQueued := 0
  kernelScheduled := 0
  kernelUserDispatches := 0
  kernelDirectDispatches := 0
  kernelFailedDispatches := 0
  kernelCancelDispatches := 0

/-- `Scheduler::init`, with the rings as the kernel creates them. -/
def init (pid : UInt32) (startedAtMs : UInt64) (profile : Profile) : Scheduler where
  bpf := {
    dispatched := .empty
    nrQueued := 0
    nrScheduled := 0
    consumeCalls := 0
    reserveCalls := 0 }
  profile := profile
  startedAtMs := startedAtMs
  stats := initialStats pid profile

end Scheduler

/-! ### What a pass does to the rings -/

/-- The task a read of the queued ring returns. -/
def Consumed.task? : Consumed → Option QueuedTask
  | .record task => some task
  | _ => none

/-- The tasks returned by the first `n` reads of the queued ring. -/
def Rings.taken (rings : Rings) (n : ℕ) : List QueuedTask :=
  (List.range n).filterMap fun i => (rings.consume i).task?

/-- Those of the tasks whose slot can be reserved, when the reservations are numbered from `i`. -/
def Rings.granted (rings : Rings) : ℕ → List QueuedTask → List QueuedTask
  | _, [] => []
  | i, task :: tasks =>
    if rings.reserve i then task :: granted rings (i + 1) tasks else granted rings (i + 1) tasks

theorem Rings.taken_succ (rings : Rings) (n : ℕ) :
    rings.taken (n + 1) = rings.taken n ++ (rings.consume n).task?.toList := by
  rw [taken, List.range_succ, List.filterMap_append, taken]
  cases h : (rings.consume n).task? <;> simp [h]

theorem Rings.length_granted_le (rings : Rings) (i : ℕ) (tasks : List QueuedTask) :
    (rings.granted i tasks).length ≤ tasks.length := by
  induction tasks generalizing i with
  | nil => exact Nat.le_refl _
  | cons task tasks ih =>
    have := ih (i + 1)
    rw [granted]
    split <;> simp <;> omega

/-- All are granted exactly when no reservation is refused. -/
theorem Rings.length_granted_iff (rings : Rings) (i : ℕ) (tasks : List QueuedTask) :
    (rings.granted i tasks).length = tasks.length ↔
      ∀ j < tasks.length, rings.reserve (i + j) = true := by
  induction tasks generalizing i with
  | nil => simp [granted]
  | cons task tasks ih =>
    rw [granted, List.length_cons, Nat.forall_lt_succ_left, Nat.add_zero]
    have hshift : (∀ j < tasks.length, rings.reserve (i + (j + 1)) = true) ↔
        ∀ j < tasks.length, rings.reserve (i + 1 + j) = true := by
      simp only [Nat.add_assoc, Nat.add_comm 1]
    rw [hshift, ← ih (i + 1)]
    by_cases h : rings.reserve i = true
    · rw [if_pos h, List.length_cons]
      simp [h]
    · rw [if_neg h]
      have := rings.length_granted_le (i + 1) tasks
      constructor
      · omega
      · exact fun hr => absurd hr.1 h

theorem Rings.granted_eq (rings : Rings) {i : ℕ} {tasks : List QueuedTask}
    (h : (rings.granted i tasks).length = tasks.length) : rings.granted i tasks = tasks := by
  induction tasks generalizing i with
  | nil => rfl
  | cons task tasks ih =>
    have hle := rings.length_granted_le (i + 1) tasks
    rw [granted] at h ⊢
    split at h
    · next hr => rw [if_pos hr, ih (by simpa using h)]
    · rw [List.length_cons] at h; omega

theorem Rings.granted_append (rings : Rings) (i : ℕ) (xs ys : List QueuedTask) :
    rings.granted i (xs ++ ys) = rings.granted i xs ++ rings.granted (i + xs.length) ys := by
  induction xs generalizing i with
  | nil => rfl
  | cons x xs ih =>
    have hshift : i + (x :: xs).length = i + 1 + xs.length := by
      rw [List.length_cons]
      omega
    rw [List.cons_append, granted, granted, ih, hshift]
    split_ifs <;> rfl

namespace Scheduler

variable (rings : Rings)

/-- The dequeue loop returns what its reads of the queued ring found, at most as many tasks as there
    is room for, and touches nothing else of the rings. -/
theorem dequeueBatch_spec (room : ℕ) (self : Scheduler) :
    rings.taken (self.dequeueBatch rings room).1.bpf.consumeCalls =
      rings.taken self.bpf.consumeCalls ++ (self.dequeueBatch rings room).2 ∧
    (self.dequeueBatch rings room).2.length ≤ room ∧
    (self.dequeueBatch rings room).1.bpf.dispatched = self.bpf.dispatched ∧
    (self.dequeueBatch rings room).1.bpf.reserveCalls = self.bpf.reserveCalls ∧
    (self.dequeueBatch rings room).1.profile = self.profile := by
  induction room generalizing self with
  | zero => exact ⟨(List.append_nil _).symm, Nat.le_refl _, rfl, rfl, rfl⟩
  | succ room ih =>
    simp only [dequeueBatch, BpfScheduler.dequeueTask]
    cases hc : rings.consume self.bpf.consumeCalls with
    | empty => simp [Rings.taken_succ, hc, Consumed.task?]
    | error res => simp [Rings.taken_succ, hc, Consumed.task?]
    | record task =>
      obtain ⟨htaken, hlen, hrest⟩ := ih { self with bpf := { self.bpf with
        consumeCalls := self.bpf.consumeCalls + 1
        nrQueued := satSub64 self.bpf.nrQueued 1 } }
      refine ⟨?_, Nat.succ_le_succ hlen, hrest⟩
      refine htaken.trans ?_
      simp [Rings.taken_succ, hc, Consumed.task?]

theorem countBatch_spec (self : Scheduler) (batchSize : UInt64) :
    (self.countBatch batchSize).bpf = self.bpf ∧
    (self.countBatch batchSize).profile = self.profile := by
  simp only [countBatch]
  split <;> exact ⟨rfl, rfl⟩

/-- The dispatch loop submits the tasks whose slot can be reserved. -/
theorem dispatchLoop_spec (tasks : List QueuedTask) (self : Scheduler) :
    (tasks.foldl (dispatchOne rings) self).bpf.dispatched.records =
      self.bpf.dispatched.records ++ (rings.granted self.bpf.reserveCalls tasks).map .new ∧
    (tasks.foldl (dispatchOne rings) self).bpf.reserveCalls =
      self.bpf.reserveCalls + tasks.length ∧
    (tasks.foldl (dispatchOne rings) self).bpf.consumeCalls = self.bpf.consumeCalls ∧
    (tasks.foldl (dispatchOne rings) self).profile = self.profile := by
  induction tasks generalizing self with
  | nil => exact ⟨(List.append_nil _).symm, rfl, rfl, rfl⟩
  | cons task tasks ih =>
    rw [List.foldl_cons]
    obtain ⟨hr, hc, hcc, hp⟩ := ih (self.dispatchOne rings task)
    rw [hr, hc, hcc, hp, Rings.granted]
    by_cases h : rings.reserve self.bpf.reserveCalls = true <;>
      simp [dispatchOne, BpfScheduler.dispatchTask, h, Nat.add_comm, Nat.add_left_comm]

/-- The dequeue loop only counts its errors. -/
theorem dequeueBatch_stats (room : ℕ) (self : Scheduler) : ∃ errors : UInt64,
    (self.dequeueBatch rings room).1.stats = { self.stats with dequeueErrors := errors } := by
  induction room generalizing self with
  | zero => exact ⟨_, rfl⟩
  | succ room ih =>
    simp only [dequeueBatch, BpfScheduler.dequeueTask]
    cases rings.consume self.bpf.consumeCalls with
    | record task => exact ih _
    | empty => exact ⟨_, rfl⟩
    | error res => exact ⟨_, rfl⟩

/-- The dispatch loop counts the tasks it submits and those it cannot submit. -/
theorem dispatchLoop_stats (tasks : List QueuedTask) (self : Scheduler) :
    (tasks.foldl (dispatchOne rings) self).stats = { self.stats with
      tasksDispatched := self.stats.tasksDispatched +
        .ofNat (rings.granted self.bpf.reserveCalls tasks).length
      dispatchErrors := self.stats.dispatchErrors +
        .ofNat (tasks.length - (rings.granted self.bpf.reserveCalls tasks).length) } := by
  induction tasks generalizing self with
  | nil => simp [Rings.granted]
  | cons task tasks ih =>
    have hle := rings.length_granted_le (self.bpf.reserveCalls + 1) tasks
    rw [List.foldl_cons, ih, Rings.granted]
    by_cases h : rings.reserve self.bpf.reserveCalls = true
    · simp [dispatchOne, BpfScheduler.dispatchTask, h, UInt64.ofNat_add, UInt64.add_assoc,
        UInt64.add_comm]
    · have hsucc : tasks.length + 1 - (rings.granted (self.bpf.reserveCalls + 1) tasks).length =
          tasks.length - (rings.granted (self.bpf.reserveCalls + 1) tasks).length + 1 := by omega
      simp [dispatchOne, BpfScheduler.dispatchTask, h, UInt64.ofNat_add, UInt64.add_assoc,
        UInt64.add_comm, hsucc]

/-- One pass submits those of its ordered batch whose slot can be reserved. -/
theorem dispatchTasks_records (self : Scheduler) :
    (self.dispatchTasks rings).bpf.dispatched.records = self.bpf.dispatched.records ++
      (rings.granted self.bpf.reserveCalls
        (orderTasks self.profile (self.dequeueBatch rings maxBatch).2)).map .new := by
  obtain ⟨-, -, hd, hr, hp⟩ := dequeueBatch_spec rings maxBatch self
  obtain ⟨hcb, hcp⟩ := countBatch_spec (self.dequeueBatch rings maxBatch).1
    (.ofNat (self.dequeueBatch rings maxBatch).2.length)
  obtain ⟨hl, -⟩ := dispatchLoop_spec rings
    (orderTasks self.profile (self.dequeueBatch rings maxBatch).2)
    ((self.dequeueBatch rings maxBatch).1.countBatch
      (.ofNat (self.dequeueBatch rings maxBatch).2.length))
  rw [hcb, hd, hr] at hl
  simp only [dispatchTasks, BpfScheduler.notifyComplete, hcp, hp]
  exact hl

/-- One pass takes a batch of at most `MAX_BATCH` tasks off the queued ring, submits those of the
    ordered batch that can be submitted and reports nothing pending. -/
theorem dispatchTasks_spec (self : Scheduler) : ∃ batch : List QueuedTask,
    batch.length ≤ maxBatch ∧
    rings.taken (self.dispatchTasks rings).bpf.consumeCalls =
      rings.taken self.bpf.consumeCalls ++ batch ∧
    (self.dispatchTasks rings).bpf.dispatched.records = self.bpf.dispatched.records ++
      (rings.granted self.bpf.reserveCalls (orderTasks self.profile batch)).map .new ∧
    (self.dispatchTasks rings).bpf.reserveCalls = self.bpf.reserveCalls + batch.length ∧
    (self.dispatchTasks rings).bpf.nrScheduled = 0 ∧
    (self.dispatchTasks rings).profile = self.profile := by
  obtain ⟨htaken, hlen, -, hr, hp⟩ := dequeueBatch_spec rings maxBatch self
  have hrecords := dispatchTasks_records rings self
  refine ⟨(self.dequeueBatch rings maxBatch).2, hlen, ?_⟩
  obtain ⟨hcb, hcp⟩ := countBatch_spec (self.dequeueBatch rings maxBatch).1
    (.ofNat (self.dequeueBatch rings maxBatch).2.length)
  obtain ⟨-, hl₂, hl₃, hl₄⟩ := dispatchLoop_spec rings
    (orderTasks self.profile (self.dequeueBatch rings maxBatch).2)
    ((self.dequeueBatch rings maxBatch).1.countBatch
      (.ofNat (self.dequeueBatch rings maxBatch).2.length))
  rw [hcb, hr, (orderTasks_perm _ _).length_eq] at hl₂
  rw [hcb] at hl₃
  rw [hcp, hp] at hl₄
  simp only [dispatchTasks, BpfScheduler.notifyComplete, hcp, hp] at hrecords ⊢
  exact ⟨by rw [hl₃, htaken], hrecords, hl₂, trivial, hl₄⟩

/-- A pass takes nothing off the user ring. -/
theorem dispatchTasks_consumed (self : Scheduler) :
    (self.dispatchTasks rings).bpf.dispatched.consumed = self.bpf.dispatched.consumed := by
  have hloop : ∀ (tasks : List QueuedTask) (self : Scheduler),
      (tasks.foldl (dispatchOne rings) self).bpf.dispatched.consumed =
        self.bpf.dispatched.consumed := by
    intro tasks
    induction tasks with
    | nil => exact fun _ => rfl
    | cons task tasks ih =>
      intro self
      rw [List.foldl_cons, ih]
      by_cases h : rings.reserve self.bpf.reserveCalls = true <;>
        simp [dispatchOne, BpfScheduler.dispatchTask, h]
  obtain ⟨-, -, hd, -⟩ := dequeueBatch_spec rings maxBatch self
  simp only [dispatchTasks, BpfScheduler.notifyComplete, hloop, (countBatch_spec _ _).1, hd]

/-- A pass is counted once. -/
theorem dispatchTasks_progress (self : Scheduler) :
    (self.dispatchTasks rings).stats.progressSequence = self.stats.progressSequence + 1 := by
  obtain ⟨errors, hstats⟩ := dequeueBatch_stats rings maxBatch self
  simp only [dispatchTasks, dispatchLoop_stats]
  rw [countBatch]
  split <;> simp [hstats]

/-- A pass keeps the pid and the profile of the counters. -/
theorem dispatchTasks_identity (self : Scheduler) :
    (self.dispatchTasks rings).stats.pid = self.stats.pid ∧
    (self.dispatchTasks rings).stats.profile = self.stats.profile := by
  obtain ⟨errors, hstats⟩ := dequeueBatch_stats rings maxBatch self
  simp only [dispatchTasks, dispatchLoop_stats]
  rw [countBatch]
  split <;> simp [hstats]

end Scheduler

end CerynthOS.Scx
