import CerynthOS.Scx.Drain
import CerynthOS.Scx.Passes

/-! The two halves of the scheduler together: passes of user space and drains of the kernel, in any
    order, over one user ring.

    Every record on the ring asks for slice 0, which stands for the default slice; the dispatcher
    hands that 0 on to the kernel, which keeps whatever slice the task has left. So a dispatched
    task gets the default slice of the profile exactly when it already had it. -/

namespace CerynthOS.Scx
open Kernel

/-- Both halves; the user ring is the scheduler's. -/
structure System where
  sched : Scheduler
  kernel : Kernel

/-- One pass of user space, or one `ops.dispatch` with some slots. -/
inductive Turn where
  | pass
  | dispatch (c : ℕ+)

namespace System

variable (rings : Rings) (env : Env)

def ring (s : System) : RingBuffer DispatchedTask := s.sched.bpf.dispatched

def withRing (s : System) (ring : RingBuffer DispatchedTask) (kernel : Kernel) : System where
  sched := { s.sched with bpf := { s.sched.bpf with dispatched := ring } }
  kernel := kernel

def step (s : System) : Turn → System
  | .pass => { s with sched := s.sched.dispatchTasks rings }
  | .dispatch c =>
    let (ring, kernel) := s.kernel.drainDispatched env c s.ring
    s.withRing ring kernel

def run (s : System) (turns : List Turn) : System := turns.foldl (step rings env) s

/-- The handovers of one turn. -/
def turnHandovers (s : System) : Turn → List (Tasks × DispatchedTask)
  | .pass => []
  | .dispatch c => s.kernel.drainHandovers env c s.ring

/-- All handovers of a run: each record handed to `dispatch_task`, with the tasks as they are just
    before that. -/
def handovers (s : System) : List Turn → List (Tasks × DispatchedTask)
  | [] => []
  | turn :: turns => s.turnHandovers env turn ++ handovers (s.step rings env turn) turns

/-- A scheduler that was just started, over any tasks. -/
def boot (pid : UInt32) (startedAtMs : UInt64) (profile : Profile) (tasks : Tasks) : System where
  sched := .init pid startedAtMs profile
  kernel := .boot tasks

theorem step_inserted (s : System) (turn : Turn) : (s.step rings env turn).kernel.inserted =
    s.kernel.inserted ++ (s.turnHandovers env turn).filterMap placed := by
  cases turn with
  | pass => exact (List.append_nil _).symm
  | dispatch c => exact drain_inserted env c s.ring s.kernel

/-- What the dispatch queues have received is what the handovers leave there. -/
theorem run_inserted (turns : List Turn) (s : System) : (s.run rings env turns).kernel.inserted =
    s.kernel.inserted ++ (s.handovers rings env turns).filterMap placed := by
  induction turns generalizing s with
  | nil => exact (List.append_nil _).symm
  | cons turn turns ih =>
    change ((s.step rings env turn).run rings env turns).kernel.inserted = _
    rw [ih, step_inserted, handovers, List.filterMap_append, List.append_assoc]

/-- Every record on the ring asks for the default slice. -/
def DefaultSlices (s : System) : Prop := ∀ task ∈ s.ring.records, task.sliceNs = 0

theorem step_defaultSlices {s : System} (h : s.DefaultSlices) (turn : Turn) :
    (s.step rings env turn).DefaultSlices := by
  cases turn with
  | pass =>
    obtain ⟨batch, -, -, hrecords, -⟩ := Scheduler.dispatchTasks_spec rings s.sched
    intro task htask
    rw [show (s.step rings env .pass).ring.records = _ from hrecords, List.mem_append] at htask
    rcases htask with hold | hnew
    · exact h task hold
    · obtain ⟨queued, -, rfl⟩ := List.mem_map.mp hnew
      rfl
  | dispatch c => exact h

theorem turnHandovers_records {s : System} (turn : Turn) {handover : Tasks × DispatchedTask}
    (h : handover ∈ s.turnHandovers env turn) : handover.2 ∈ s.ring.records := by
  cases turn with
  | pass => exact absurd h List.not_mem_nil
  | dispatch c =>
    have hmem : handover.2 ∈ (s.kernel.drainHandovers env c s.ring).map (·.2) :=
      List.mem_map_of_mem h
    rw [drainHandovers, handovers_records] at hmem
    exact List.mem_of_mem_drop (List.mem_of_mem_take hmem)

theorem handovers_sliceNs (turns : List Turn) {s : System} (hs : s.DefaultSlices)
    {handover : Tasks × DispatchedTask} (h : handover ∈ s.handovers rings env turns) :
    handover.2.sliceNs = 0 := by
  induction turns generalizing s with
  | nil => exact absurd h List.not_mem_nil
  | cons turn turns ih =>
    rcases List.mem_append.mp h with hnow | hlater
    · exact hs _ (turnHandovers_records env turn hnow)
    · exact ih (step_defaultSlices rings env hs turn) hlater

/-- A task inserted with slice 0 ends up with the profile's slice exactly when it had it before. -/
theorem sliceAfter_zero_iff (profile : Profile) (residual : UInt64) :
    sliceAfter 0 residual = profile.sliceNs ↔ residual = profile.sliceNs := by
  rw [sliceAfter, if_neg (not_not.mpr rfl)]
  by_cases h : residual = 0
  · rw [if_neg (not_not.mpr h), h]
    cases profile <;> decide
  · rw [if_pos h]

/-- All tasks inserted in a run get the slice of the profile exactly when each of them still had
    that slice left just before it was handed over. -/
theorem inserted_slice_iff (pid : UInt32) (startedAtMs : UInt64) (profile : Profile) (tasks : Tasks)
    (turns : List Turn) :
    (∀ i ∈ ((boot pid startedAtMs profile tasks).run rings env turns).kernel.inserted,
      i.slice = profile.sliceNs) ↔
    ∀ handover ∈ (boot pid startedAtMs profile tasks).handovers rings env turns,
      ∀ p, stays handover.1 handover.2 = some p → p.slice = profile.sliceNs := by
  have hboot : (boot pid startedAtMs profile tasks).DefaultSlices := by
    intro task htask
    exact absurd htask List.not_mem_nil
  rw [run_inserted, show (boot pid startedAtMs profile tasks).kernel.inserted = [] from rfl,
    List.nil_append]
  constructor
  · intro h handover hmem p hp
    have hi := h (insertion p handover.2)
      (List.mem_filterMap.mpr ⟨handover, hmem, by rw [placed, hp]; rfl⟩)
    rw [insertion, handovers_sliceNs rings env turns hboot hmem] at hi
    exact (sliceAfter_zero_iff profile p.slice).mp hi
  · intro h i hi
    obtain ⟨handover, hmem, hplaced⟩ := List.mem_filterMap.mp hi
    obtain ⟨p, hp, rfl⟩ := Option.map_eq_some_iff.mp hplaced
    rw [insertion, handovers_sliceNs rings env turns hboot hmem]
    exact (sliceAfter_zero_iff profile p.slice).mpr (h handover hmem p hp)

/-- The queued task, its slice used up. -/
def expired : Tasks := fun pid => if pid = 1201 then
  some {
    cpu := 0
    cpusPtr := fun _ => true
    slice := 0
    dsqVtime := 0
    ctx := some ⟨0, 0, 0, 1⟩ }
  else none

/-- The rest of the system does nothing. -/
def quiet : Env where
  tasks _ tasks := tasks
  idleCpu _ _ := -1

/-- A task that used up its slice is dispatched with 1 ns instead of the balanced 5 ms. -/
theorem expired_slice : ¬ ∀ (rings : Rings) (env : Env) (pid : UInt32) (startedAtMs : UInt64)
    (profile : Profile) (tasks : Tasks) (turns : List Turn),
    ∀ i ∈ ((boot pid startedAtMs profile tasks).run rings env turns).kernel.inserted,
      i.slice = profile.sliceNs := by
  intro h
  have hi : (⟨1201, 0, 1, 0, 0⟩ : Insertion) ∈
      ((boot 1 0 .balanced expired).run (Scheduler.oneTask true) quiet
        [.pass, .dispatch ⟨1, Nat.one_pos⟩]).kernel.inserted := by
    decide
  exact absurd (h _ _ _ _ _ _ _ _ hi) (by decide)

end System

end CerynthOS.Scx
