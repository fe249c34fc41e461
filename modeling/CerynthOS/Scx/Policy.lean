import CerynthOS.Schemes.Machine

/-! What the scheduler's two halves exchange, and the order in which a batch is dispatched.

    A task travels from the kernel as a `QueuedTask` and back as a `DispatchedTask`; in between the
    policy only permutes the batch. -/

namespace CerynthOS.Scx
open Machine

/-- The profile the scheduler was started with. -/
inductive Profile where
  | balanced | interactive | performance | background
  deriving DecidableEq, Repr

/-- The default time slice of a profile, in nanoseconds. -/
def Profile.sliceNs : Profile → UInt64
  | balanced => 5000000
  | interactive => 2000000
  | performance => 10000000
  | background => 20000000

/-- The debug form of a profile. -/
def Profile.debug : Profile → String
  | balanced => "Balanced"
  | interactive => "Interactive"
  | performance => "Performance"
  | background => "Background"

/-- A task queued for scheduling by the BPF side. -/
structure QueuedTask where
  pid : Int32
  cpu : Int32
  nrCpusAllowed : UInt64
  flags : UInt64
  startTs : UInt64
  stopTs : UInt64
  execRuntime : UInt64
  weight : UInt64
  vtime : UInt64
  enqCnt : UInt64
  comm : Vector Int8 16
  deriving DecidableEq

/-- A task sent to the BPF dispatcher. `sliceNs = 0` stands for the default time slice. -/
structure DispatchedTask where
  pid : Int32
  cpu : Int32
  flags : UInt64
  sliceNs : UInt64
  vtime : UInt64
  enqCnt : UInt64
  deriving DecidableEq

/-- `DispatchedTask::new`. -/
def DispatchedTask.new (task : QueuedTask) : DispatchedTask where
  pid := task.pid
  cpu := task.cpu
  flags := task.flags
  sliceNs := 0 -- use default time slice
  vtime := 0
  enqCnt := task.enqCnt

/-! ### The dispatch order -/

def starvationThresholdNs : UInt64 := 20000000

/-- The sort key: starved tasks first, by longest wait, then the others by run time. -/
def rescueKey (now : UInt64) (task : QueuedTask) : ℕ × UInt64 :=
  let waitedNs := satSub64 now task.stopTs
  if waitedNs ≥ starvationThresholdNs then (0, 0xFFFFFFFFFFFFFFFF - waitedNs)
  else (1, task.execRuntime)

/-- The lexicographic comparison of two keys. -/
def keyLe (a b : ℕ × UInt64) : Bool := a.1 < b.1 || (a.1 == b.1 && a.2 ≤ b.2)

/-- The newest `stop_ts` of the batch, which stands in for the current time. -/
def newestStop : List QueuedTask → Option UInt64
  | [] => none
  | task :: tasks => some (tasks.foldl (fun now t => max now t.stopTs) task.stopTs)

/-- `rescue_starved_tasks`; the sort is stable. -/
def rescueStarvedTasks (tasks : List QueuedTask) : List QueuedTask :=
  match newestStop tasks with
  | none => tasks
  | some now => tasks.mergeSort fun a b => keyLe (rescueKey now a) (rescueKey now b)

/-- `order_tasks`. -/
def orderTasks : Profile → List QueuedTask → List QueuedTask
  | .interactive, tasks => rescueStarvedTasks tasks
  | _, tasks => tasks

/-- Ordering a batch loses and duplicates nothing. -/
theorem orderTasks_perm (profile : Profile) (tasks : List QueuedTask) :
    (orderTasks profile tasks).Perm tasks := by
  cases profile with
  | interactive =>
    simp only [orderTasks, rescueStarvedTasks]
    split
    · exact .refl _
    · exact List.mergeSort_perm _ _
  | _ => exact .refl _

end CerynthOS.Scx
