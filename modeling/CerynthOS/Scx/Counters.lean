import CerynthOS.Schemes.Rounding
import CerynthOS.Scx.Ordering
import CerynthOS.Scx.Passes

/-! The counters of the dispatch loop.

    They are updated at different places of the two loops of a pass, under different conditions.
    Between passes they agree: every dequeued task was dispatched or counted as an error, and the
    batches are as many and as large as the tasks say. -/

namespace CerynthOS.Scx
open Machine

namespace Scheduler

variable (rings : Rings)

/-- What a pass with a batch of this size, of which so many tasks were granted a slot, does to the
    counters. -/
structure PassCounts (size granted : ℕ) (s s' : SchedulerStats) : Prop where
  progress : s'.progressSequence = s.progressSequence + 1
  dequeued : s'.tasksDequeued = s.tasksDequeued + .ofNat size
  dispatched : s'.tasksDispatched = s.tasksDispatched + .ofNat granted
  errors : s'.dispatchErrors = s.dispatchErrors + .ofNat (size - granted)
  empty : size = 0 → s'.batchesProcessed = s.batchesProcessed ∧
    s'.maxBatchSize = s.maxBatchSize ∧ s'.avgBatchSize = s.avgBatchSize
  nonempty : size ≠ 0 → s'.batchesProcessed = s.batchesProcessed + 1 ∧
    s'.maxBatchSize = max s.maxBatchSize (.ofNat size) ∧
    s'.avgBatchSize = toF64 s'.tasksDequeued.toNat / toF64 s'.batchesProcessed.toNat

/-- What a pass does to the counters. -/
theorem dispatchTasks_counts (self : Scheduler) : ∃ size granted : ℕ, size ≤ maxBatch ∧
    granted ≤ size ∧
    ((self.dispatchTasks rings).dequeued rings).length =
      (self.dequeued rings).length + size ∧
    PassCounts size granted self.stats (self.dispatchTasks rings).stats := by
  obtain ⟨htaken, hlen, -, -, -⟩ := dequeueBatch_spec rings maxBatch self
  obtain ⟨errors, hstats⟩ := dequeueBatch_stats rings maxBatch self
  generalize hbatch : self.dequeueBatch rings maxBatch = batch at htaken hlen hstats
  obtain ⟨after, tasks⟩ := batch
  dsimp only at htaken hlen hstats
  have hcount := countBatch_spec after (.ofNat tasks.length)
  have hcalls := (dispatchLoop_spec rings (orderTasks after.profile tasks)
    (after.countBatch (.ofNat tasks.length))).2.2.1
  have hloop := dispatchLoop_stats rings (orderTasks after.profile tasks)
    (after.countBatch (.ofNat tasks.length))
  have hperm := orderTasks_perm after.profile tasks
  rw [hcount.1, hperm.length_eq] at hloop
  have hgranted := rings.length_granted_le after.bpf.reserveCalls (orderTasks after.profile tasks)
  rw [hperm.length_eq] at hgranted
  refine ⟨tasks.length, _, hlen, hgranted, ?_, ?_⟩
  · simp only [dequeued, dispatchTasks, hbatch, hcount, BpfScheduler.notifyComplete, hcalls,
      htaken, List.length_append]
  · have hsize : tasks.length < 2 ^ 64 := hlen.trans_lt (by decide)
    have hzero : UInt64.ofNat tasks.length > 0 ↔ tasks.length ≠ 0 := by
      rw [gt_iff_lt, UInt64.lt_iff_toNat_lt, UInt64.toNat_ofNat_of_lt' hsize]
      exact Nat.pos_iff_ne_zero
    simp only [dispatchTasks, hbatch, hcount, hloop]
    by_cases hempty : tasks.length = 0
    · have hskip : ¬ UInt64.ofNat tasks.length > 0 := by
        rw [hzero]
        exact not_not.mpr hempty
      simp only [countBatch, if_neg hskip, hstats]
      exact ⟨rfl, rfl, rfl, rfl, fun _ => ⟨rfl, rfl, rfl⟩, fun h => absurd hempty h⟩
    · simp only [countBatch, if_pos (hzero.mpr hempty), hstats]
      exact ⟨rfl, rfl, rfl, rfl, fun h => absurd h hempty, fun _ => ⟨rfl, rfl, rfl⟩⟩

/-! ### The joint invariant -/

/-- The counters after `n` passes. -/
structure Counted (n : ℕ) (s : Scheduler) : Prop where
  progress : s.stats.progressSequence.toNat = n
  dequeued : s.stats.tasksDequeued.toNat = (s.dequeued rings).length
  outcomes : s.stats.tasksDequeued.toNat =
    s.stats.tasksDispatched.toNat + s.stats.dispatchErrors.toNat
  batches : s.stats.batchesProcessed.toNat ≤ s.stats.progressSequence.toNat
  largest : s.stats.maxBatchSize.toNat ≤ maxBatch
  atLeast : s.stats.batchesProcessed.toNat ≤ s.stats.tasksDequeued.toNat
  atMost : s.stats.tasksDequeued.toNat ≤
    s.stats.maxBatchSize.toNat * s.stats.batchesProcessed.toNat
  average : 0 < s.stats.batchesProcessed.toNat → s.stats.avgBatchSize =
    toF64 s.stats.tasksDequeued.toNat / toF64 s.stats.batchesProcessed.toNat

theorem counted_init (pid : UInt32) (startedAtMs : UInt64) (profile : Profile) :
    Counted rings 0 (init pid startedAtMs profile) where
  progress := rfl
  dequeued := rfl
  outcomes := rfl
  batches := Nat.le_refl _
  largest := Nat.zero_le _
  atLeast := Nat.le_refl _
  atMost := Nat.le_refl _
  average h := absurd h (Nat.lt_irrefl _)

theorem toNat_add_ofNat {a : UInt64} {k : ℕ} (h : a.toNat + k < 2 ^ 64) :
    (a + .ofNat k).toNat = a.toNat + k := by
  rw [UInt64.toNat_add, UInt64.toNat_ofNat_of_lt' (by change k < 2 ^ 64; omega),
    Nat.mod_eq_of_lt h]

theorem counted_step {n : ℕ} {self : Scheduler} (h : Counted rings n self) (hn : n + 1 < 2 ^ 64)
    (htasks : ((self.dispatchTasks rings).dequeued rings).length < 2 ^ 64) :
    Counted rings (n + 1) (self.dispatchTasks rings) := by
  obtain ⟨size, granted, hsize, hgranted, hlen, hc⟩ := dispatchTasks_counts rings self
  have hdequeued := h.dequeued
  have houtcomes := h.outcomes
  have hbatches := h.batches
  have hprogress := h.progress
  have hmax := h.largest
  have hprogress' : (self.dispatchTasks rings).stats.progressSequence.toNat = n + 1 := by
    rw [hc.progress, ← hprogress]
    exact toNat_add_ofNat (k := 1) (by omega)
  have hdequeued' : (self.dispatchTasks rings).stats.tasksDequeued.toNat =
      self.stats.tasksDequeued.toNat + size := by
    rw [hc.dequeued]
    exact toNat_add_ofNat (by omega)
  have hdispatched' : (self.dispatchTasks rings).stats.tasksDispatched.toNat =
      self.stats.tasksDispatched.toNat + granted := by
    rw [hc.dispatched]
    exact toNat_add_ofNat (by omega)
  have herrors' : (self.dispatchTasks rings).stats.dispatchErrors.toNat =
      self.stats.dispatchErrors.toNat + (size - granted) := by
    rw [hc.errors]
    exact toNat_add_ofNat (by omega)
  by_cases hempty : size = 0
  · obtain ⟨hb, hm, ha⟩ := hc.empty hempty
    rw [hempty, Nat.add_zero] at hdequeued'
    refine ⟨hprogress', by omega, by omega, by rw [hb]; omega, by rw [hm]; exact hmax, ?_, ?_, ?_⟩
    · rw [hb, hdequeued']
      exact h.atLeast
    · rw [hb, hm, hdequeued']
      exact h.atMost
    · rw [hb, ha, hdequeued']
      exact h.average
  · obtain ⟨hb, hm, ha⟩ := hc.nonempty hempty
    have hb' : (self.dispatchTasks rings).stats.batchesProcessed.toNat =
        self.stats.batchesProcessed.toNat + 1 := by
      rw [hb]
      exact toNat_add_ofNat (k := 1) (by omega)
    have hm' : (self.dispatchTasks rings).stats.maxBatchSize.toNat =
        max self.stats.maxBatchSize.toNat size := by
      rw [hm, UInt64.toNat_max, UInt64.toNat_ofNat_of_lt' (hsize.trans_lt (by decide))]
    have hleast := h.atLeast
    refine ⟨hprogress', by omega, by omega, by omega, by rw [hm']; exact max_le hmax hsize,
      by omega, ?_, fun _ => ha⟩
    rw [hdequeued', hb', hm', Nat.mul_succ]
    exact Nat.add_le_add (h.atMost.trans (Nat.mul_le_mul_right _ (le_max_left _ _)))
      (le_max_right _ _)

theorem length_dequeued_le (self : Scheduler) :
    (self.dequeued rings).length ≤ ((self.dispatchTasks rings).dequeued rings).length := by
  obtain ⟨size, -, -, -, hlen, -⟩ := dispatchTasks_counts rings self
  omega

theorem counted_run (pid : UInt32) (startedAtMs : UInt64) (profile : Profile) (n : ℕ)
    (hn : n < 2 ^ 64)
    (htasks : (((init pid startedAtMs profile).passes rings n).dequeued rings).length < 2 ^ 64) :
    Counted rings n ((init pid startedAtMs profile).passes rings n) := by
  induction n with
  | zero => exact counted_init rings pid startedAtMs profile
  | succ n ih =>
    refine counted_step rings (ih (by omega) ?_) hn htasks
    exact (length_dequeued_le rings _).trans_lt htasks

/-- The counters agree after every number of passes, as long as none wraps. The average is the
    quotient of two counters as doubles; it is at least one, and at most the largest batch while the
    tasks can be counted in a double. -/
theorem counters_agree (pid : UInt32) (startedAtMs : UInt64) (profile : Profile) (n : ℕ)
    (hn : n < 2 ^ 64)
    (htasks : (((init pid startedAtMs profile).passes rings n).dequeued rings).length < 2 ^ 64) :
    let stats := ((init pid startedAtMs profile).passes rings n).stats
    stats.tasksDequeued.toNat = stats.tasksDispatched.toNat + stats.dispatchErrors.toNat ∧
    stats.progressSequence.toNat = n ∧
    stats.batchesProcessed.toNat ≤ stats.progressSequence.toNat ∧
    stats.maxBatchSize.toNat ≤ 64 ∧
    stats.batchesProcessed.toNat ≤ stats.tasksDequeued.toNat ∧
    stats.tasksDequeued.toNat ≤ stats.maxBatchSize.toNat * stats.batchesProcessed.toNat ∧
    (0 < stats.batchesProcessed.toNat →
      stats.avgBatchSize =
        toF64 stats.tasksDequeued.toNat / toF64 stats.batchesProcessed.toNat ∧
      toF64 1 ≤ stats.avgBatchSize ∧
      (stats.tasksDequeued.toNat ≤ 2 ^ 53 →
        stats.avgBatchSize ≤ toF64 stats.maxBatchSize.toNat)) := by
  intro stats
  have h := counted_run rings pid startedAtMs profile n hn htasks
  refine ⟨h.outcomes, h.progress, h.batches, h.largest, h.atLeast, h.atMost, fun hpos => ?_⟩
  have hleast : stats.batchesProcessed.toNat ≤ stats.tasksDequeued.toNat := h.atLeast
  have hlargest : stats.maxBatchSize.toNat ≤ 64 := h.largest
  refine ⟨h.average hpos, ?_, fun hexact => ?_⟩
  · rw [h.average hpos]
    exact Binary64.one_le_toF64_div hpos.ne' h.atLeast (UInt64.toNat_lt _)
  · rw [h.average hpos]
    have htasks0 : stats.tasksDequeued.toNat ≠ 0 := by omega
    have hbatches : stats.batchesProcessed.toNat ≤ 2 ^ 53 := by omega
    exact Binary64.toF64_div_le hpos.ne' htasks0 hbatches hexact (by omega) h.atMost

/-- One task is dequeued and its slot is refused. -/
theorem oneTask_counters :
    let stats := ((init 1 0 .balanced).passes (oneTask false) 1).stats
    stats.tasksDequeued.toNat = stats.tasksDispatched.toNat + stats.dispatchErrors.toNat ∧
    stats.progressSequence.toNat = 1 ∧ stats.batchesProcessed.toNat ≤ stats.tasksDequeued.toNat := by
  have h := counters_agree (oneTask false) 1 0 .balanced 1 (by decide) (by decide)
  exact ⟨h.1, h.2.1, h.2.2.2.2.1⟩

/-! ### Where doubles do not count any more -/

/-- A queued ring that has three tasks for every pass, and a user ring with room for them. -/
def threes : Rings where
  consume i := if i % 4 = 3 then .empty else .record (taskAt 0 0)
  reserve _ := true

theorem threes_consume (n : ℕ) :
    threes.consume (4 * n) = .record (taskAt 0 0) ∧
    threes.consume (4 * n + 1) = .record (taskAt 0 0) ∧
    threes.consume (4 * n + 2) = .record (taskAt 0 0) ∧ threes.consume (4 * n + 3) = .empty :=
  ⟨if_neg (by omega), if_neg (by omega), if_neg (by omega), if_pos (by omega)⟩

theorem threes_taken (n : ℕ) : (threes.taken (4 * n)).length = 3 * n := by
  induction n with
  | zero => rfl
  | succ n ih =>
    obtain ⟨h₀, h₁, h₂, h₃⟩ := threes_consume n
    rw [Nat.mul_succ, Rings.taken_succ, Rings.taken_succ, Rings.taken_succ, Rings.taken_succ,
      h₀, h₁, h₂, h₃]
    simp only [List.length_append, ih]
    rfl

theorem threes_calls {self : Scheduler} {n : ℕ} (h : self.bpf.consumeCalls = 4 * n) :
    (self.dispatchTasks threes).bpf.consumeCalls = 4 * (n + 1) := by
  obtain ⟨h₀, h₁, h₂, h₃⟩ := threes_consume n
  have hbatch : (self.dequeueBatch threes maxBatch).1.bpf.consumeCalls = 4 * (n + 1) := by
    rw [maxBatch]
    simp only [dequeueBatch, BpfScheduler.dequeueTask, h, h₀, h₁, h₂, h₃]
    rfl
  simp only [dispatchTasks, BpfScheduler.notifyComplete]
  rw [(dispatchLoop_spec threes _ _).2.2.1, (countBatch_spec _ _).1, hbatch]

theorem threes_run (pid : UInt32) (startedAtMs : UInt64) (profile : Profile) (n : ℕ) :
    ((init pid startedAtMs profile).passes threes n).bpf.consumeCalls = 4 * n ∧
    (n < 2 ^ 64 →
      ((init pid startedAtMs profile).passes threes n).stats.batchesProcessed.toNat = n ∧
      ((init pid startedAtMs profile).passes threes n).stats.maxBatchSize.toNat ≤ 3) := by
  induction n with
  | zero => exact ⟨rfl, fun _ => ⟨rfl, Nat.zero_le _⟩⟩
  | succ n ih =>
    obtain ⟨hcalls, hstats⟩ := ih
    refine ⟨threes_calls hcalls, fun hn => ?_⟩
    obtain ⟨hb, hm⟩ := hstats (by omega)
    obtain ⟨size, granted, -, -, hlen, hc⟩ :=
      dispatchTasks_counts threes ((init pid startedAtMs profile).passes threes n)
    rw [dequeued, dequeued, threes_calls hcalls, hcalls, threes_taken, threes_taken] at hlen
    obtain ⟨hb', hm', -⟩ := hc.nonempty (by omega)
    obtain rfl : size = 3 := by omega
    rw [passes, hb', hm', UInt64.toNat_max]
    refine ⟨?_, max_le hm (le_refl 3)⟩
    exact (toNat_add_ofNat (k := 1) (by omega)).trans (congrArg (· + 1) hb)

/-- Where doubles do not count by ones any more, the average of batches of three can exceed three. -/
theorem average_exceeds : ¬ ∀ (rings : Rings) (pid : UInt32) (startedAtMs : UInt64)
    (profile : Profile) (n : ℕ), n < 2 ^ 64 →
    (((init pid startedAtMs profile).passes rings n).dequeued rings).length < 2 ^ 64 →
    0 < ((init pid startedAtMs profile).passes rings n).stats.batchesProcessed.toNat →
    ((init pid startedAtMs profile).passes rings n).stats.avgBatchSize ≤
      toF64 ((init pid startedAtMs profile).passes rings n).stats.maxBatchSize.toNat := by
  intro h
  obtain ⟨hcalls, hstats⟩ := threes_run 1 0 .balanced 3002399751580333
  obtain ⟨hb, hm⟩ := hstats (by decide)
  have hlen : (((init 1 0 .balanced).passes threes 3002399751580333).dequeued threes).length =
      9007199254740999 := by
    rw [dequeued, hcalls, threes_taken]
  have hc := counted_run threes 1 0 .balanced 3002399751580333 (by decide) (by rw [hlen]; decide)
  have hle := h threes 1 0 .balanced 3002399751580333 (by decide) (by rw [hlen]; decide)
    (by rw [hb]; decide)
  have hmost := hc.atMost
  rw [hc.dequeued, hlen, hb] at hmost
  have hthree :
      ((init 1 0 .balanced).passes threes 3002399751580333).stats.maxBatchSize.toNat = 3 := by
    omega
  rw [hc.average (by rw [hb]; decide), hc.dequeued, hlen, hb, hthree] at hle
  exact absurd hle (by decide +kernel)

end Scheduler

end CerynthOS.Scx
