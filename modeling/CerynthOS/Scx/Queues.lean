import CerynthOS.Schemes.KeyQueue
import CerynthOS.Scx.System

/-! The dispatch queues and the callbacks that insert into them.

    Tasks are inserted with a virtual time in five places: by the drain of the user ring, with the
    time in the record, and by `ops.select_cpu`, twice by `ops.enqueue` and when the queued ring is
    full, with the time that the task has itself. Each callback is one step. What the kernel answers
    in it and what user space reads from the queued ring are left open. -/

namespace CerynthOS.Scx
open Kernel

/-! ### Tasks that come and go -/

/-- What the loader sets before the BPF program runs. -/
structure Rodata where
  builtinIdle : Bool
  sliceNs : UInt64
  userschedPid : Int32
  khugepagedPid : Int32

/-- What the rest of the system does to one task. The virtual time is none of its business. -/
inductive Change where
  | fork (pid : Int32) (p : Task)
  | exit (pid : Int32)
  | enable (pid : Int32)
  | disable (pid : Int32)
  | update (pid cpu : Int32) (cpusPtr : Int32 → Bool) (slice : UInt64) (ctx : Option TaskCtx)

/-- `rustland_enable`. -/
def rustlandEnable (ro : Rodata) (p : Task) : Task := { p with dsqVtime := 0, slice := ro.sliceNs }

def Change.apply (ro : Rodata) (tasks : Tasks) : Change → Tasks
  | fork pid p => Function.update tasks pid (some p)
  | exit pid => Function.update tasks pid none
  | enable pid => Function.update tasks pid ((tasks pid).map (rustlandEnable ro))
  | disable _ => tasks
  | update pid cpu cpusPtr slice ctx => Function.update tasks pid ((tasks pid).map fun p =>
      { p with cpu := cpu, cpusPtr := cpusPtr, slice := slice, ctx := ctx })

/-- Which tasks are under the scheduler afterwards. -/
def Change.enabled (enabled : Int32 → Bool) : Change → Int32 → Bool
  | fork pid _ | exit pid | disable pid => Function.update enabled pid false
  | enable pid => Function.update enabled pid true
  | update .. => enabled

/-- The changes before each callback, and the answers of the kernel's search for an idle CPU. -/
structure Surroundings where
  changes : ℕ → List Change
  idleCpu : ℕ → Task → Int32

def Surroundings.env (ro : Rodata) (around : Surroundings) : Env where
  tasks n tasks := (around.changes n).foldl (Change.apply ro) tasks
  idleCpu := around.idleCpu

/-- Which tasks are under the scheduler after `n` callbacks; at first none is. -/
def Surroundings.enabledAt (around : Surroundings) : ℕ → Int32 → Bool
  | 0 => fun _ => false
  | n + 1 => (around.changes n).foldl Change.enabled (around.enabledAt n)

/-! ### The host -/

/-- A task in a dispatch queue. `record` is the place of its record in the user ring, for a task that
    user space has sent. -/
structure Entry where
  insertion : Insertion
  record : Option ℕ
  deriving DecidableEq

/-- The key of the queues. -/
def Entry.vtime (e : Entry) : ℕ := e.insertion.vtime.toNat

/-- The dispatch queue of the user-space scheduler itself. -/
def schedDsq : UInt64 := 1025

abbrev Queues := UInt64 → KeyQueue Entry

/-- Both halves of the scheduler, the dispatch queues and the other variables of the BPF program.
    `queued` is everything that was sent to user space. -/
structure Host extends System where
  dsq : Queues
  queued : List QueuedTask
  userschedNeeded : Bool
  nrKernelDispatches : UInt64
  nrSchedCongested : UInt64

/-- What `ops.enqueue` sees of the task and of the kernel. -/
structure EnqueueFacts where
  kthread : Bool
  kswapd : Bool
  nrCpusAllowed : UInt64
  weight : UInt64
  comm : Vector Int8 16
  wakeup : Bool
  idle : Int32
  reserved : Bool

/-- `get_task_info`: the record for user space, and the task's context with its new count. -/
def getTaskInfo (pid : Int32) (p : Task) (ctx : TaskCtx) (flags : UInt64) (prevCpu : Int32)
    (facts : EnqueueFacts) : QueuedTask × TaskCtx :=
  ({  pid := pid
      cpu := prevCpu
      nrCpusAllowed := facts.nrCpusAllowed
      flags := flags
      startTs := ctx.startTs
      stopTs := ctx.stopTs
      execRuntime := ctx.execRuntime
      weight := facts.weight
      vtime := p.dsqVtime
      enqCnt := ctx.enqCnt + 1
      comm := facts.comm },
    { ctx with enqCnt := ctx.enqCnt + 1 })

/-- The first CPU of a mask. -/
def firstCpu (cpusPtr : Int32 → Bool) : Int32 :=
  (((List.range 1024).map Int32.ofNat).find? cpusPtr).getD maxCpus

namespace Host

variable (ro : Rodata)

def setTask (s : Host) (pid : Int32) (p : Task) : Host :=
  { s with kernel := { s.kernel with tasks := Function.update s.kernel.tasks pid (some p) } }

def setKernel (s : Host) (kernel : Kernel) : Host := { s with kernel := kernel }

def setDsq (s : Host) (dsq : UInt64) (q : KeyQueue Entry) : Host :=
  { s with dsq := Function.update s.dsq dsq q }

def addNrKernelDispatches (s : Host) : Host :=
  { s with nrKernelDispatches := s.nrKernelDispatches + 1 }

/-- `scx_bpf_dsq_insert_vtime`, outside of `ops.dispatch`. -/
def dsqInsertVtime (s : Host) (pid : Int32) (p : Task) (dsq sliceNs vtime flags : UInt64) : Host :=
  let slice := sliceAfter sliceNs p.slice
  (s.setTask pid { p with slice := slice, dsqVtime := vtime }).setDsq dsq
    ((s.dsq dsq).insert Entry.vtime ⟨⟨pid, dsq, slice, vtime, flags⟩, none⟩)

/-- `scx_bpf_dsq_insert`: the end of a queue that has no order of its own. -/
def dsqInsert (s : Host) (pid : Int32) (p : Task) (dsq sliceNs flags : UInt64) : Host :=
  let slice := sliceAfter sliceNs p.slice
  (s.setTask pid { p with slice := slice }).setDsq dsq
    ((s.dsq dsq).push ⟨⟨pid, dsq, slice, p.dsqVtime, flags⟩, none⟩)

/-- `scx_bpf_dsq_move_to_local`: `none` if the queue is empty. The head is taken, whichever CPUs its
    task may run on. -/
def dsqMoveToLocal (s : Host) (dsq : UInt64) : Option Host :=
  (s.dsq dsq).take.map fun taken => s.setDsq dsq taken.2

/-! ### main.bpf.c -/

/-- `can_direct_dispatch`. -/
def canDirectDispatch (s : Host) (cpu : Int32) : Bool × Host :=
  if (s.dsq sharedDsq).waiting.isEmpty then
    let (dsq, kernel) := s.kernel.cpuToDsq cpu
    ((s.dsq dsq).waiting.isEmpty, s.setKernel kernel)
  else (false, s)

/-- A direct dispatch to the queue of a CPU. -/
def directDispatch (s : Host) (pid : Int32) (p : Task) (cpu : Int32) (flags : UInt64) : Host :=
  let (dsq, kernel) := s.kernel.cpuToDsq cpu
  ((s.setKernel kernel).dsqInsertVtime pid p dsq ro.sliceNs p.dsqVtime flags).addNrKernelDispatches

/-- `rustland_select_cpu`. -/
def selectCpu (s : Host) (pid : Int32) (p : Task) (thisCpu prevCpu idle : Int32) : Int32 × Host :=
  let prevCpu := if !p.cpusPtr prevCpu then
    if p.cpusPtr thisCpu then thisCpu else firstCpu p.cpusPtr else prevCpu
  if pid = ro.userschedPid then (prevCpu, s)
  else if !ro.builtinIdle then (prevCpu, s)
  else if idle ≥ 0 then
    let (direct, s) := s.canDirectDispatch idle
    (idle, if direct then s.directDispatch ro pid p idle 0 else s)
  else (prevCpu, s)

/-- `queue_task_to_userspace`; a full ring sends the task to the shared queue. -/
def queueTaskToUserspace (s : Host) (pid : Int32) (p : Task) (prevCpu : Int32) (flags : UInt64)
    (facts : EnqueueFacts) : Host :=
  match p.ctx with
  | none => s
  | some ctx =>
    if !facts.reserved then
      ({ s with nrSchedCongested := s.nrSchedCongested + 1 }.dsqInsertVtime pid p sharedDsq
        ro.sliceNs p.dsqVtime flags).addNrKernelDispatches
    else
      let (task, ctx) := getTaskInfo pid p ctx flags prevCpu facts
      let s := s.setTask pid { p with ctx := some ctx }
      let bpf := { s.sched.bpf with nrQueued := s.sched.bpf.nrQueued + 1 }
      { s with queued := s.queued ++ [task], sched := { s.sched with bpf := bpf } }

/-- The CPU is kicked if there was a wakeup. -/
def kickIf (s : Host) (wakeup : Bool) (cpu : Int32) : Host :=
  if wakeup then s.setKernel (s.kernel.kickCpu cpu) else s

/-- `rustland_enqueue`. -/
def enqueue (s : Host) (pid : Int32) (p : Task) (flags : UInt64) (facts : EnqueueFacts) : Host :=
  let prevCpu := p.cpu
  if pid = ro.userschedPid then
    (s.dsqInsert pid p schedDsq ro.sliceNs flags).kickIf facts.wakeup prevCpu
  else if (facts.kthread && facts.nrCpusAllowed == 1) || facts.kswapd ||
      (ro.khugepagedPid ≠ 0 && pid = ro.khugepagedPid) then
    (s.directDispatch ro pid p prevCpu flags).kickIf facts.wakeup prevCpu
  else if !(ro.builtinIdle && facts.wakeup) then
    (s.queueTaskToUserspace ro pid p prevCpu flags facts).kickIf facts.wakeup prevCpu
  else if facts.idle < 0 then
    (s.queueTaskToUserspace ro pid p prevCpu flags facts).kickIf facts.wakeup prevCpu
  else
    let (direct, s) := s.canDirectDispatch facts.idle
    if !direct then
      (s.queueTaskToUserspace ro pid p facts.idle flags facts).kickIf true facts.idle
    else if !p.cpusPtr facts.idle then s.kickIf true facts.idle
    else (s.directDispatch ro pid p facts.idle flags).kickIf true facts.idle

/-- `usersched_has_pending_tasks`. `avail` is whether the queued ring has data. -/
def userschedHasPendingTasks (s : Host) (avail : Bool) : Bool × Host :=
  (s.userschedNeeded || s.sched.bpf.nrScheduled != 0 || avail, { s with userschedNeeded := false })

end Host

/-- What a drain inserts, when its first record is the one at place `n` of the ring. -/
def entriesFrom : ℕ → List (Tasks × DispatchedTask) → List Entry
  | _, [] => []
  | n, handover :: handovers =>
    match placed handover with
    | some i => ⟨i, some n⟩ :: entriesFrom (n + 1) handovers
    | none => entriesFrom (n + 1) handovers

/-- The dispatch buffer goes to the queues, in its order. -/
def flushTo (dsq : Queues) (entries : List Entry) : Queues :=
  entries.foldl (fun dsq e => Function.update dsq e.insertion.dsq
    ((dsq e.insertion.dsq).insert Entry.vtime e)) dsq

namespace Host

variable (ro : Rodata) (env : Env)

/-- The drain of the user ring in `rustland_dispatch`, and the flush of what it inserts. -/
def drain (s : Host) (c : ℕ+) : Host :=
  let (ring, kernel) := s.kernel.drainDispatched env c s.ring
  { s with
    toSystem := s.withRing ring kernel
    dsq := flushTo s.dsq (entriesFrom s.ring.consumed (s.kernel.drainHandovers env c s.ring)) }

/-- The end of `rustland_dispatch`: a task that still wants to run keeps the CPU. -/
def replenish (s : Host) (avail : Bool) : Option (Int32 × Bool) → Host
  | some (pid, queued) =>
    if queued then
      let (pending, s) := if pid = ro.userschedPid then s.userschedHasPendingTasks avail
        else (true, s)
      match s.kernel.tasks pid with
      | some p => if pending then s.setTask pid { p with slice := ro.sliceNs } else s
      | none => s
    else s
  | none => s

/-- The rest of `rustland_dispatch` on a CPU, after the drain; `prev` is the task that ran there and
    whether it is still queued. -/
def afterDrain (s : Host) (cpu : Int32) (avail : Bool) (prev : Option (Int32 × Bool)) : Host :=
  let (pending, s) := s.userschedHasPendingTasks avail
  match if pending then s.dsqMoveToLocal schedDsq else none with
  | some s => s
  | none =>
    let (dsq, kernel) := s.kernel.cpuToDsq cpu
    let s := s.setKernel kernel
    match s.dsqMoveToLocal dsq with
    | some s => s
    | none => (s.dsqMoveToLocal sharedDsq).getD (s.replenish ro avail prev)

/-- `rustland_dispatch` on a CPU, with `c` slots. -/
def dispatch (s : Host) (cpu : Int32) (c : ℕ+) (avail : Bool) (prev : Option (Int32 × Bool)) :
    Host :=
  (s.drain env c).afterDrain ro cpu avail prev

/-! ### Steps -/

/-- What happens on the host: a pass of user space, the heartbeat timer, or the kernel calls one of
    the callbacks or takes a task off the queues again. -/
inductive Event where
  | pass
  | timer
  | selectCpu (pid thisCpu prevCpu idle : Int32)
  | enqueue (pid : Int32) (flags : UInt64) (facts : EnqueueFacts)
  | dequeue (pid : Int32)
  | dispatch (cpu : Int32) (c : ℕ+) (avail : Bool) (prev : Option (Int32 × Bool))

variable (rings : Rings) (around : Surroundings)

/-- The rest of the system moves before a callback. -/
def elapse (s : Host) : Host := s.setKernel (s.kernel.elapse (around.env ro))

/-- The task, if it is under the scheduler; the kernel calls no callback for another one. -/
def enabledTask (s : Host) (pid : Int32) : Option Task :=
  if around.enabledAt s.kernel.tick pid then s.kernel.tasks pid else none

def step (s : Host) : Event → Host
  | .pass => { s with sched := s.sched.dispatchTasks rings }
  | .timer => { s with userschedNeeded := true }
  | .selectCpu pid thisCpu prevCpu idle =>
    let s := s.elapse ro around
    match s.enabledTask around pid with
    | some p => (s.selectCpu ro pid p thisCpu prevCpu idle).2
    | none => s
  | .enqueue pid flags facts =>
    let s := s.elapse ro around
    match s.enabledTask around pid with
    | some p => s.enqueue ro pid p flags facts
    | none => s
  | .dequeue pid => { s with dsq := fun d => (s.dsq d).remove fun e => e.insertion.pid == pid }
  | .dispatch cpu c avail prev => (s.elapse ro around).dispatch ro (around.env ro) cpu c avail prev

def run (s : Host) (events : List Event) : Host := events.foldl (step ro rings around) s

/-- The host when the scheduler has been loaded, over any tasks. -/
def boot (pid : UInt32) (startedAtMs : UInt64) (profile : Profile) (tasks : Tasks) : Host where
  toSystem := .boot pid startedAtMs profile tasks
  dsq _ := .empty
  queued := []
  userschedNeeded := false
  nrKernelDispatches := 0
  nrSchedCongested := 0

end Host

end CerynthOS.Scx
