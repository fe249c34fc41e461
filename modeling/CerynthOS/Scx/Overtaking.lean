import CerynthOS.Schemes.Batches
import CerynthOS.Scx.Ordering
import CerynthOS.Scx.Passes

/-! Bounded overtaking: no task is pushed back forever.

    A pass submits all that it dequeued, in whatever order the profile asks for. So the submitted
    tasks are the arrivals cut into chunks, each put into its order, and only the rest of its own
    chunk can be submitted before a task that arrived earlier. -/

namespace CerynthOS.Scx
open Machine

/-- What becomes of the queued ring: the tasks that arrive just before each read of it, and the
    reads that report an error. -/
structure Arrivals where
  arrive : ℕ → List QueuedTask
  fails : ℕ → Option Int32

namespace Arrivals

variable (arrivals : Arrivals) (reserve : ℕ → Bool)

/-- The tasks in the ring after `n` reads, oldest first. -/
def waiting : ℕ → List QueuedTask
  | 0 => []
  | n + 1 =>
    match arrivals.fails n with
    | some _ => waiting n ++ arrivals.arrive n
    | none => (waiting n ++ arrivals.arrive n).tail

/-- What a read finds: an error, the oldest task or nothing. -/
def consume (n : ℕ) : Consumed :=
  match arrivals.fails n, arrivals.waiting n ++ arrivals.arrive n with
  | some res, _ => .error res
  | none, [] => .empty
  | none, task :: _ => .record task

/-- Both rings, when `reserve` tells which slots can be reserved. -/
def rings : Rings where
  consume := arrivals.consume
  reserve := reserve

/-- All that has arrived before the `n`-th read, in the order of arrival. -/
def arrived (n : ℕ) : List QueuedTask := (List.range n).flatMap arrivals.arrive

/-- The tasks that were taken off the ring are the first that have arrived. -/
theorem taken_append_waiting (n : ℕ) :
    (arrivals.rings reserve).taken n ++ arrivals.waiting n = arrivals.arrived n := by
  induction n with
  | zero => rfl
  | succ n ih =>
    have harrived : arrivals.arrived (n + 1) = arrivals.arrived n ++ arrivals.arrive n := by
      rw [arrived, arrived, List.range_succ, List.flatMap_append, List.flatMap_singleton]
    rw [harrived, ← ih, Rings.taken_succ, waiting, List.append_assoc, List.append_assoc]
    congr 1
    simp only [rings, consume]
    cases arrivals.fails n with
    | some res => rfl
    | none => cases arrivals.waiting n ++ arrivals.arrive n <;> rfl

end Arrivals

namespace Scheduler

variable {rings : Rings} {profile : Profile}

/-- The scheduler has dequeued these chunks, one a pass, and has submitted each in its order. -/
structure Chunked (rings : Rings) (profile : Profile) (s : Scheduler)
    (chunks : List (List QueuedTask)) : Prop where
  profile_eq : s.profile = profile
  dequeued : s.dequeued rings = chunks.flatten
  records : s.bpf.dispatched.records = (chunks.flatMap (orderTasks profile)).map .new

theorem chunked_init (pid : UInt32) (startedAtMs : UInt64) :
    Chunked rings profile (init pid startedAtMs profile) [] := ⟨rfl, rfl, rfl⟩

theorem chunked_step {self : Scheduler} {chunks : List (List QueuedTask)}
    (h : Chunked rings profile self chunks)
    (hreserve : ∀ i < (self.dispatchTasks rings).bpf.reserveCalls, rings.reserve i = true) :
    ∃ chunk : List QueuedTask, chunk.length ≤ maxBatch ∧
      Chunked rings profile (self.dispatchTasks rings) (chunks ++ [chunk]) := by
  obtain ⟨chunk, hlen, htaken, hrecords, hcalls, -, hprofile⟩ := dispatchTasks_spec rings self
  rw [hcalls, forall_lt_add, ← (orderTasks_perm self.profile chunk).length_eq,
    ← rings.length_granted_iff] at hreserve
  refine ⟨chunk, hlen, hprofile.trans h.profile_eq, ?_, ?_⟩
  · rw [List.flatten_append, List.flatten_singleton, ← h.dequeued]
    exact htaken
  · rw [hrecords, rings.granted_eq hreserve.2, h.records, h.profile_eq, ← List.map_append,
      List.flatMap_append, List.flatMap_singleton]

theorem reserveCalls_le (self : Scheduler) :
    self.bpf.reserveCalls ≤ (self.dispatchTasks rings).bpf.reserveCalls := by
  obtain ⟨chunk, -, -, -, hcalls, -⟩ := dispatchTasks_spec rings self
  omega

theorem chunked_run (pid : UInt32) (startedAtMs : UInt64) (n : ℕ)
    (hreserve : ∀ i < ((init pid startedAtMs profile).passes rings n).bpf.reserveCalls,
      rings.reserve i = true) :
    ∃ chunks : List (List QueuedTask), chunks.length = n ∧
      (∀ chunk ∈ chunks, chunk.length ≤ maxBatch) ∧
      ∀ k ≤ n, Chunked rings profile ((init pid startedAtMs profile).passes rings k)
        (chunks.take k) := by
  induction n with
  | zero =>
    refine ⟨[], rfl, fun _ h => absurd h List.not_mem_nil, fun k hk => ?_⟩
    obtain rfl := Nat.le_zero.mp hk
    exact chunked_init pid startedAtMs
  | succ n ih =>
    obtain ⟨chunks, hlen, hle, hall⟩ :=
      ih fun i hi => hreserve i (hi.trans_le (reserveCalls_le _))
    have hlast := hall n le_rfl
    rw [List.take_of_length_le hlen.le] at hlast
    obtain ⟨chunk, hchunk, hnext⟩ := chunked_step hlast hreserve
    refine ⟨chunks ++ [chunk], by simp [hlen], ?_, fun k hk => ?_⟩
    · simpa [or_imp, forall_and] using ⟨hle, hchunk⟩
    · obtain hlt | rfl := hk.lt_or_eq
      · rw [List.take_append_of_le_length (by omega)]
        exact hall k (by omega)
      · rw [List.take_of_length_le (by simp [hlen])]
        exact hnext

/-- While no slot is refused, every pass submits the chunk of at most `MAX_BATCH` tasks that it
    dequeued, in its order. The chunks make up the first of the arrivals, and fewer than `MAX_BATCH`
    later arrivals are submitted before a task. -/
theorem overtaking_bounded (arrivals : Arrivals) (reserve : ℕ → Bool) (pid : UInt32)
    (startedAtMs : UInt64) (profile : Profile) (n : ℕ)
    (hreserve : ∀ i < ((init pid startedAtMs profile).passes
      (arrivals.rings reserve) n).bpf.reserveCalls, reserve i = true) :
    ∃ chunks : List (List QueuedTask), chunks.length = n ∧
      (∀ chunk ∈ chunks, chunk.length ≤ maxBatch) ∧
      (∀ k ≤ n,
        ((init pid startedAtMs profile).passes (arrivals.rings reserve) k).dequeued
          (arrivals.rings reserve) = (chunks.take k).flatten ∧
        ((init pid startedAtMs profile).passes (arrivals.rings reserve) k).bpf.dispatched.records =
          ((chunks.take k).flatMap (orderTasks profile)).map .new) ∧
      chunks.flatten <+: arrivals.arrived ((init pid startedAtMs profile).passes
        (arrivals.rings reserve) n).bpf.consumeCalls ∧
      (Batches.leaving (dispatchOrder profile) 0 chunks).Perm
        (List.range chunks.flatten.length) ∧
      (Batches.leaving (dispatchOrder profile) 0 chunks).map (chunks.flatten[·]?) =
        (chunks.flatMap (orderTasks profile)).map some ∧
      ∀ pre i post, Batches.leaving (dispatchOrder profile) 0 chunks = pre ++ i :: post →
        (pre.filter (i < ·)).length < maxBatch := by
  obtain ⟨chunks, hlen, hle, hall⟩ := @chunked_run (arrivals.rings reserve) profile pid startedAtMs
    n hreserve
  refine ⟨chunks, hlen, hle, fun k hk => ⟨(hall k hk).dequeued, (hall k hk).records⟩, ?_, ?_, ?_,
    fun pre i post h => ?_⟩
  · have hlast := (hall n le_rfl).dequeued
    rw [List.take_of_length_le hlen.le] at hlast
    exact ⟨_, by rw [← hlast, dequeued, arrivals.taken_append_waiting reserve]⟩
  · rw [List.range_eq_range']
    exact Batches.leaving_perm (dispatchOrder_perm profile) 0 chunks
  · exact Batches.leaving_map (dispatchOrder_perm profile) (dispatchOrder_map profile) [] chunks
  · exact Batches.overtaking_lt (dispatchOrder_perm profile) hle 0 h

/-- A ring that two tasks have reached, a long one and a short one, and whose second read fails. -/
def erringRing : Arrivals where
  arrive
    | 0 => [taskAt 0 5000000, taskAt 0 1000]
    | _ => []
  fails
    | 1 => some (-4)
    | _ => none

/-- The short task stays behind the error, and the long one is submitted alone. -/
theorem erringRing_overtaking : ∃ chunks : List (List QueuedTask), chunks.length = 2 ∧
    ((init 1 0 .interactive).passes (erringRing.rings fun _ => true) 2).dequeued
      (erringRing.rings fun _ => true) = chunks.flatten ∧
    ∀ pre i post, Batches.leaving (dispatchOrder .interactive) 0 chunks = pre ++ i :: post →
      (pre.filter (i < ·)).length < maxBatch := by
  obtain ⟨chunks, hlen, -, hall, -, -, -, hover⟩ :=
    overtaking_bounded erringRing (fun _ => true) 1 0 .interactive 2 fun _ _ => rfl
  have htwo := (hall 2 le_rfl).1
  rw [List.take_of_length_le hlen.le] at htwo
  exact ⟨chunks, hlen, htwo, hover⟩

end Scheduler

end CerynthOS.Scx
