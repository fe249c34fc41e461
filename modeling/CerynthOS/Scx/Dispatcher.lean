import CerynthOS.Schemes.RingBuffer
import CerynthOS.Scx.Policy

/-! The BPF dispatcher: what `ops.dispatch` does with the records of the user ring.

    The kernel side is a table of tasks, which the rest of the system may change arbitrarily before
    every callback, and the dispatch buffer of the current `ops.dispatch` call: an insertion takes a
    slot of the buffer, a cancelled insertion gives it back, and whatever is in the buffer at the
    end goes to the dispatch queues. -/

namespace CerynthOS.Scx

/-- The per-task storage of the BPF program. -/
structure TaskCtx where
  startTs : UInt64
  stopTs : UInt64
  execRuntime : UInt64
  enqCnt : UInt64

/-- A task as the kernel knows it. -/
structure Task where
  cpu : Int32
  cpusPtr : Int32 → Bool
  slice : UInt64
  dsqVtime : UInt64
  ctx : Option TaskCtx

/-- The live tasks by pid. -/
abbrev Tasks := Int32 → Option Task

/-- A task that was put in a dispatch queue. -/
structure Insertion where
  pid : Int32
  dsq : UInt64
  slice : UInt64
  vtime : UInt64
  flags : UInt64
  deriving DecidableEq

/-- What the rest of the system does before, and answers during, the callback with a number. -/
structure Env where
  tasks : ℕ → Tasks → Tasks
  idleCpu : ℕ → Task → Int32

/-- The kernel side. `inserted` is what the dispatch queues have received, `delivered` the records
    `dispatch_task` was called with and `tick` the number of callbacks so far. -/
structure Kernel where
  tasks : Tasks
  maxBatch : ℕ
  buf : List Insertion
  inserted : List Insertion
  nrUserDispatches : UInt64
  nrBounceDispatches : UInt64
  nrCancelDispatches : UInt64
  kicked : List Int32
  error : Bool
  delivered : List DispatchedTask
  tick : ℕ

def maxCpus : Int32 := 1024

/-- The dispatch queue of tasks without a CPU of their own; the queue of a CPU has its number. -/
def sharedDsq : UInt64 := 1024

def rlCpuAny : Int32 := 1048576

namespace Kernel

/-- A kernel with these tasks and nothing dispatched yet. -/
def boot (tasks : Tasks) : Kernel where
  tasks := tasks
  maxBatch := 0
  buf := []
  inserted := []
  nrUserDispatches := 0
  nrBounceDispatches := 0
  nrCancelDispatches := 0
  kicked := []
  error := false
  delivered := []
  tick := 0

/-! ### Kernel functions -/

/-- `scx_bpf_dispatch_nr_slots`. -/
def nrSlots (k : Kernel) : ℕ := k.maxBatch - k.buf.length

/-- The slice an insertion leaves a task with: a zero keeps the residual one, but at least 1 ns. -/
def sliceAfter (sliceNs residual : UInt64) : UInt64 :=
  if sliceNs ≠ 0 then sliceNs else if residual ≠ 0 then residual else 1

/-- `scx_bpf_dsq_insert_vtime`, inside `ops.dispatch`. -/
def dsqInsertVtime (k : Kernel) (pid : Int32) (p : Task) (dsq sliceNs vtime flags : UInt64) :
    Kernel :=
  let slice := sliceAfter sliceNs p.slice
  let k := { k with
    tasks := Function.update k.tasks pid (some { p with slice := slice, dsqVtime := vtime }) }
  if k.maxBatch ≤ k.buf.length then { k with error := true }
  else { k with buf := k.buf ++ [⟨pid, dsq, slice, vtime, flags⟩] }

/-- `scx_bpf_dispatch_cancel`. -/
def dispatchCancel (k : Kernel) : Kernel :=
  if k.buf = [] then { k with error := true } else { k with buf := k.buf.dropLast }

/-- `scx_bpf_kick_cpu`. -/
def kickCpu (k : Kernel) (cpu : Int32) : Kernel := { k with kicked := k.kicked ++ [cpu] }

/-! ### main.bpf.c -/

/-- A call of `dispatch_task`. -/
def deliver (k : Kernel) (task : DispatchedTask) : Kernel :=
  { k with delivered := k.delivered ++ [task] }

def addNrBounceDispatches (k : Kernel) : Kernel :=
  { k with nrBounceDispatches := k.nrBounceDispatches + 1 }

def addNrUserDispatches (k : Kernel) : Kernel :=
  { k with nrUserDispatches := k.nrUserDispatches + 1 }

def addNrCancelDispatches (k : Kernel) : Kernel :=
  { k with nrCancelDispatches := k.nrCancelDispatches + 1 }

/-- `cpu_to_dsq`: the shared queue, with an error, for an invalid CPU. -/
def cpuToDsq (k : Kernel) (cpu : Int32) : UInt64 × Kernel :=
  if cpu < 0 ∨ cpu ≥ maxCpus then (sharedDsq, { k with error := true })
  else (cpu.toUInt32.toUInt64, k)

/-- `kick_task_cpu`: the target CPU and, if the task cannot use it, another idle one. -/
def kickTaskCpu (env : Env) (k : Kernel) (p : Task) (cpu : Int32) : Kernel :=
  if !p.cpusPtr cpu then
    let k := k.kickCpu cpu
    let cpu := env.idleCpu k.tick p
    if cpu < 0 then k else k.kickCpu cpu
  else k.kickCpu cpu

/-- The task was dequeued, or queued anew, while user space still held it. -/
def superseded (p : Task) (task : DispatchedTask) : Bool :=
  match p.ctx with
  | none => true
  | some ctx => ctx.enqCnt > task.enqCnt

/-- The CPU of `dispatch_task`: the one user space chose or, if the task may not run there, its
    previous one. -/
def dispatchCpu (k : Kernel) (p : Task) (cpu : Int32) : Int32 × Kernel :=
  if !p.cpusPtr cpu then (p.cpu, k.addNrBounceDispatches) else (cpu, k.addNrUserDispatches)

/-- `dispatch_task`. -/
def dispatchTask (env : Env) (k : Kernel) (task : DispatchedTask) : Kernel :=
  let k := k.deliver task
  match k.tasks task.pid with
  | none => k
  | some p =>
    if task.cpu = rlCpuAny then
      let k := k.dsqInsertVtime task.pid p sharedDsq task.sliceNs task.vtime task.flags
      k.kickTaskCpu env p p.cpu
    else
      let (cpu, k) := k.dispatchCpu p task.cpu
      let (dsq, k) := k.cpuToDsq cpu
      let k := k.dsqInsertVtime task.pid p dsq task.sliceNs task.vtime task.flags
      if superseded p task then k.dispatchCancel.addNrCancelDispatches else k.kickCpu cpu

/-- `handle_dispatched_task`; `true` is the nonzero result that stops the drain. The argument is
    what `bpf_dynptr_data` finds. -/
def handleDispatchedTask (env : Env) (dynptr : Option DispatchedTask) (k : Kernel) :
    Bool × Kernel :=
  match dynptr with
  | none => (false, k)
  | some task =>
    let k := k.dispatchTask env task
    (k.nrSlots == 0, k)

/-! ### Draining -/

/-- The rest of the system moves before a callback. -/
def elapse (env : Env) (k : Kernel) : Kernel :=
  { k with tasks := env.tasks k.tick k.tasks, tick := k.tick + 1 }

/-- The callback the drain makes for one record; every record has the size of one. -/
def callback (env : Env) (task : DispatchedTask) (k : Kernel) : Bool × Kernel :=
  handleDispatchedTask env (some task) (k.elapse env)

/-- `ops.dispatch` starts with an empty buffer of `c` slots. -/
def enter (k : Kernel) (c : ℕ) : Kernel := { k with maxBatch := c, buf := [] }

/-- When `ops.dispatch` returns, the buffer goes to the dispatch queues. -/
def flush (k : Kernel) : Kernel := { k with inserted := k.inserted ++ k.buf, buf := [] }

/-- The drain of the user ring in `rustland_dispatch`. -/
def drainDispatched (env : Env) (c : ℕ) (ring : RingBuffer DispatchedTask) (k : Kernel) :
    RingBuffer DispatchedTask × Kernel :=
  let (ring, k) := ring.drain (callback env) (k.enter c)
  (ring, k.flush)

/-! ### What one call does -/

/-- The task that a record leaves in a dispatch queue: the one with its pid, unless it has exited or
    the record names a CPU and is out of date. -/
def stays (tasks : Tasks) (task : DispatchedTask) : Option Task :=
  (tasks task.pid).filter fun p => task.cpu = rlCpuAny || !superseded p task

theorem stays_none {tasks : Tasks} {task : DispatchedTask} (h : tasks task.pid = none) :
    stays tasks task = none := by
  rw [stays, h]; rfl

theorem stays_some {tasks : Tasks} {task : DispatchedTask} {p : Task}
    (h : tasks task.pid = some p) :
    stays tasks task =
      if task.cpu = rlCpuAny ∨ superseded p task = false then some p else none := by
  rw [stays, h, Option.filter_some]
  simp

/-- The queue it is left in. -/
def target (p : Task) (task : DispatchedTask) : UInt64 :=
  if task.cpu = rlCpuAny then sharedDsq
  else
    let cpu := if !p.cpusPtr task.cpu then p.cpu else task.cpu
    if cpu < 0 ∨ cpu ≥ maxCpus then sharedDsq else cpu.toUInt32.toUInt64

/-- The insertion that a record leaves. -/
def insertion (p : Task) (task : DispatchedTask) : Insertion :=
  ⟨task.pid, target p task, sliceAfter task.sliceNs p.slice, task.vtime, task.flags⟩

/-- What the kernel functions of a callback leave alone. -/
def frame (k : Kernel) : ℕ × List Insertion × List DispatchedTask × ℕ :=
  (k.maxBatch, k.inserted, k.delivered, k.tick)

@[simp] theorem kickCpu_frame (k : Kernel) (cpu : Int32) : (k.kickCpu cpu).frame = k.frame := rfl

@[simp] theorem kickCpu_buf (k : Kernel) (cpu : Int32) : (k.kickCpu cpu).buf = k.buf := rfl

@[simp] theorem addNrCancelDispatches_frame (k : Kernel) :
    k.addNrCancelDispatches.frame = k.frame := rfl

@[simp] theorem addNrCancelDispatches_buf (k : Kernel) :
    k.addNrCancelDispatches.buf = k.buf := rfl

@[simp] theorem deliver_frame (k : Kernel) (task : DispatchedTask) :
    (k.deliver task).frame = (k.maxBatch, k.inserted, k.delivered ++ [task], k.tick) := rfl

@[simp] theorem deliver_buf (k : Kernel) (task : DispatchedTask) :
    (k.deliver task).buf = k.buf := rfl

@[simp] theorem deliver_tasks (k : Kernel) (task : DispatchedTask) :
    (k.deliver task).tasks = k.tasks := rfl

@[simp] theorem kickTaskCpu_frame (env : Env) (k : Kernel) (p : Task) (cpu : Int32) :
    (k.kickTaskCpu env p cpu).frame = k.frame := by
  simp only [kickTaskCpu]
  split_ifs <;> rfl

@[simp] theorem kickTaskCpu_buf (env : Env) (k : Kernel) (p : Task) (cpu : Int32) :
    (k.kickTaskCpu env p cpu).buf = k.buf := by
  simp only [kickTaskCpu]
  split_ifs <;> rfl

@[simp] theorem dispatchCpu_frame (k : Kernel) (p : Task) (cpu : Int32) :
    (k.dispatchCpu p cpu).2.frame = k.frame := by
  simp only [dispatchCpu]
  split_ifs <;> rfl

@[simp] theorem dispatchCpu_buf (k : Kernel) (p : Task) (cpu : Int32) :
    (k.dispatchCpu p cpu).2.buf = k.buf := by
  simp only [dispatchCpu]
  split_ifs <;> rfl

theorem dispatchCpu_cpu (k : Kernel) (p : Task) (cpu : Int32) :
    (k.dispatchCpu p cpu).1 = if !p.cpusPtr cpu then p.cpu else cpu := by
  simp only [dispatchCpu]
  split_ifs <;> rfl

@[simp] theorem cpuToDsq_frame (k : Kernel) (cpu : Int32) : (k.cpuToDsq cpu).2.frame = k.frame := by
  simp only [cpuToDsq]
  split_ifs <;> rfl

@[simp] theorem cpuToDsq_buf (k : Kernel) (cpu : Int32) : (k.cpuToDsq cpu).2.buf = k.buf := by
  simp only [cpuToDsq]
  split_ifs <;> rfl

theorem cpuToDsq_dsq (k : Kernel) (cpu : Int32) : (k.cpuToDsq cpu).1 =
    if cpu < 0 ∨ cpu ≥ maxCpus then sharedDsq else cpu.toUInt32.toUInt64 := by
  simp only [cpuToDsq]
  split_ifs <;> rfl

@[simp] theorem dsqInsertVtime_frame (k : Kernel) (pid : Int32) (p : Task)
    (dsq sliceNs vtime flags : UInt64) :
    (k.dsqInsertVtime pid p dsq sliceNs vtime flags).frame = k.frame := by
  simp only [dsqInsertVtime]
  split_ifs <;> rfl

theorem dsqInsertVtime_buf {k : Kernel} (h : 0 < k.nrSlots) (pid : Int32) (p : Task)
    (dsq sliceNs vtime flags : UInt64) :
    (k.dsqInsertVtime pid p dsq sliceNs vtime flags).buf =
      k.buf ++ [⟨pid, dsq, sliceAfter sliceNs p.slice, vtime, flags⟩] := by
  have hlt : ¬ k.maxBatch ≤ k.buf.length := Nat.not_le_of_lt (Nat.lt_of_sub_pos h)
  simp only [dsqInsertVtime, if_neg hlt]

@[simp] theorem dispatchCancel_frame (k : Kernel) : k.dispatchCancel.frame = k.frame := by
  simp only [dispatchCancel]
  split_ifs <;> rfl

theorem dispatchCancel_buf (k : Kernel) : k.dispatchCancel.buf = k.buf.dropLast := by
  simp only [dispatchCancel]
  split_ifs with h
  · simp [h]
  · rfl

/-- The call is recorded, and nothing else changes outside of the tasks, the buffer and the
    counters. -/
theorem dispatchTask_frame (env : Env) (k : Kernel) (task : DispatchedTask) :
    (k.dispatchTask env task).frame = (k.maxBatch, k.inserted, k.delivered ++ [task], k.tick) := by
  simp only [dispatchTask, deliver_tasks]
  cases k.tasks task.pid with
  | none => rfl
  | some p =>
    by_cases hany : task.cpu = rlCpuAny
    · simp [hany]
    · cases hs : superseded p task <;> simp [hany, hs]

/-- With a slot left, exactly the record's insertion is added to the buffer. -/
theorem dispatchTask_buf (env : Env) {k : Kernel} (h : 0 < k.nrSlots) (task : DispatchedTask) :
    (k.dispatchTask env task).buf =
      k.buf ++ ((stays k.tasks task).map (insertion · task)).toList := by
  have hinsert : ∀ k' : Kernel, k'.frame.1 = k.maxBatch → k'.buf = k.buf →
      ∀ (p : Task) (dsq : UInt64),
      (k'.dsqInsertVtime task.pid p dsq task.sliceNs task.vtime task.flags).buf =
        k.buf ++ [⟨task.pid, dsq, sliceAfter task.sliceNs p.slice, task.vtime, task.flags⟩] := by
    intro k' hf hb p dsq
    rw [dsqInsertVtime_buf, hb]
    rwa [nrSlots, hb, show k'.maxBatch = k.maxBatch from hf]
  simp only [dispatchTask, deliver_tasks]
  cases hp : k.tasks task.pid with
  | none => simp [stays_none hp]
  | some p =>
    rw [stays_some hp]
    by_cases hany : task.cpu = rlCpuAny
    · simp only [hany, true_or, if_true, kickTaskCpu_buf]
      rw [hinsert (k.deliver task) rfl rfl]
      simp [insertion, target, hany]
    · -- a stale record's insertion is taken back, any other stays
      have hcpu := hinsert (((k.deliver task).dispatchCpu p task.cpu).2.cpuToDsq
        ((k.deliver task).dispatchCpu p task.cpu).1).2 (by simp) (by simp) p
      cases hs : superseded p task with
      | true => simp [hany, hs, dispatchCancel_buf, hcpu]
      | false =>
        rw [dispatchCpu_cpu] at hcpu
        simp only [hany, hs, or_true, if_true, if_false, Bool.false_eq_true, kickCpu_buf, hcpu,
          cpuToDsq_dsq, dispatchCpu_cpu, insertion, target, Option.map_some, Option.toList_some]

/-! ### What it leaves of the tasks -/

@[simp] theorem kickTaskCpu_tasks (env : Env) (k : Kernel) (p : Task) (cpu : Int32) :
    (k.kickTaskCpu env p cpu).tasks = k.tasks := by
  simp only [kickTaskCpu]
  split_ifs <;> rfl

@[simp] theorem dispatchCpu_tasks (k : Kernel) (p : Task) (cpu : Int32) :
    (k.dispatchCpu p cpu).2.tasks = k.tasks := by
  simp only [dispatchCpu]
  split_ifs <;> rfl

@[simp] theorem cpuToDsq_tasks (k : Kernel) (cpu : Int32) : (k.cpuToDsq cpu).2.tasks = k.tasks := by
  simp only [cpuToDsq]
  split_ifs <;> rfl

@[simp] theorem dispatchCancel_tasks (k : Kernel) : k.dispatchCancel.tasks = k.tasks := by
  simp only [dispatchCancel]
  split_ifs <;> rfl

@[simp] theorem dsqInsertVtime_tasks (k : Kernel) (pid : Int32) (p : Task)
    (dsq sliceNs vtime flags : UInt64) :
    (k.dsqInsertVtime pid p dsq sliceNs vtime flags).tasks = Function.update k.tasks pid
      (some { p with slice := sliceAfter sliceNs p.slice, dsqVtime := vtime }) := by
  simp only [dsqInsertVtime]
  split_ifs <;> rfl

/-- The named task keeps the slice and the virtual time it was inserted with, also when the insertion
    is cancelled; the other tasks are left alone. -/
theorem dispatchTask_tasks (env : Env) (k : Kernel) (task : DispatchedTask) :
    (k.dispatchTask env task).tasks = match k.tasks task.pid with
      | none => k.tasks
      | some p => Function.update k.tasks task.pid
          (some { p with slice := sliceAfter task.sliceNs p.slice, dsqVtime := task.vtime }) := by
  simp only [dispatchTask, deliver_tasks]
  cases k.tasks task.pid with
  | none => rfl
  | some p =>
    by_cases hany : task.cpu = rlCpuAny
    · simp [hany]
    · cases hs : superseded p task <;>
        simp [hany, hs, addNrCancelDispatches, kickCpu]

end Kernel

end CerynthOS.Scx
