import CerynthOS.Scx.Queues

/-! Both halves of the scheduler at work at once.

    For `Host` a pass of user space is one step, and so is a call of `ops.dispatch`. Here user space
    makes one ring operation at a step and a drain hands over one record at a step, so that all
    other sides may move in between. The callbacks that keep the books of the tasks are steps too,
    and user space reads what was sent to it. -/

namespace CerynthOS.Scx
open Kernel

/-- Where user space is in `dispatch_tasks`: it takes tasks off the queued ring, or it dispatches
    what it has taken. -/
inductive Phase where
  | reading (tasks : List QueuedTask)
  | sending (tasks : List QueuedTask)

/-- The tasks that user space holds. -/
def Phase.tasks : Phase → List QueuedTask
  | reading tasks => tasks
  | sending tasks => tasks

/-- A drain of the user ring that has begun: the place of its first record, what it has handed over
    and whether the callback has asked to stop. -/
structure OpenDrain where
  first : ℕ
  handovers : List (Tasks × DispatchedTask)
  stopped : Bool

/-- The host in the middle of things. `read` is how many records user space has taken off the queued
    ring, `settled` how many of them before the current pass, `refused` the tasks that found no slot
    in the user ring; `passes` and `drains` count what was completed. -/
structure Live extends Host where
  phase : Phase
  read : ℕ
  settled : ℕ
  refused : List QueuedTask
  passes : ℕ
  draining : Option OpenDrain
  drains : ℕ
  enabled : Int32 → Bool
  nrRunning : UInt64
  userschedLastRunAt : UInt64

/-- The heartbeat of the user-space scheduler. -/
def userschedTimerNs : UInt64 := 1000000000

/-- `time_delta`: zero if the clocks of two CPUs disagree on the order. -/
def timeDelta (after before : UInt64) : UInt64 :=
  if (after - before).toInt64 > 0 then after - before else 0

/-- `rustland_init_task`: the context of a new task is all zero. -/
def rustlandInitTask (p : Task) : Task := { p with ctx := some ⟨0, 0, 0, 0⟩ }

namespace Live

/-- What happens next. User space makes its next ring operation, whose answer is an error or, for a
    slot of the user ring, a refusal; the kernel calls a callback; or a CPU goes through
    `ops.dispatch`, where it finds the user ring free (`enter`, `handOver`, `leave`) or not
    (`bypass`). -/
inductive Event where
  | user (error : Option Int32) (granted : Bool)
  | initTask (pid : Int32) (p : Task)
  | exit (pid : Int32)
  | enable (pid : Int32)
  | disable (pid : Int32)
  | update (pid cpu : Int32) (cpusPtr : Int32 → Bool) (slice : UInt64)
  | runnable (pid : Int32)
  | running (pid : Int32) (now : UInt64)
  | stopping (pid : Int32) (now : UInt64)
  | timer (now : UInt64)
  | selectCpu (pid thisCpu prevCpu idle : Int32)
  | enqueue (pid : Int32) (flags : UInt64) (facts : EnqueueFacts)
  | dequeue (pid : Int32)
  | enter (c : ℕ+)
  | handOver (idleCpu : Task → Int32)
  | leave (cpu : Int32) (prev : Option (Int32 × Bool))
  | bypass (cpu : Int32) (prev : Option (Int32 × Bool))

variable (ro : Rodata)

def setHost (s : Live) (host : Host) : Live := { s with toHost := host }

def setSched (s : Live) (sched : Scheduler) : Live := { s with sched := sched }

/-- The task, if it is under the scheduler; the kernel calls no callback for another one. -/
def enabledTask (s : Live) (pid : Int32) : Option Task :=
  if s.enabled pid then s.kernel.tasks pid else none

/-- The records that user space has not taken yet. -/
def unread (s : Live) : List QueuedTask := s.queued.drop s.read

/-! ### User space -/

/-- What a read of the queued ring finds. -/
def found (s : Live) (error : Option Int32) : Consumed :=
  match error, s.unread with
  | some res, _ => .error res
  | none, [] => .empty
  | none, task :: _ => .record task

/-- The answers of both rings to the operation that comes next. -/
def answers (s : Live) (error : Option Int32) (granted : Bool) : Rings where
  consume _ := s.found error
  reserve _ := granted

/-- The dequeue loop ends: the batch is counted and ordered. -/
def startSending (s : Live) (tasks : List QueuedTask) : Live :=
  { s with
    sched := s.sched.countBatch (.ofNat tasks.length)
    phase := .sending (orderTasks s.sched.profile tasks) }

/-- The dispatch loop ends, and with it `dispatch_tasks`. -/
def complete (s : Live) : Live :=
  { s with
    sched := { s.sched with
      bpf := s.sched.bpf.notifyComplete 0
      stats := { s.sched.stats with progressSequence := s.sched.stats.progressSequence + 1 } }
    phase := .reading []
    settled := s.read
    passes := s.passes + 1 }

/-- One round of the dequeue loop. -/
def consume (s : Live) (tasks : List QueuedTask) (rings : Rings) : Live :=
  if maxBatch ≤ tasks.length then s.startSending tasks
  else
    match s.sched.bpf.dequeueTask rings with
    | (bpf, .ok (some task)) =>
      { s.setSched { s.sched with bpf := bpf } with
        phase := .reading (tasks ++ [task])
        read := s.read + 1 }
    | (bpf, .ok none) => (s.setSched { s.sched with bpf := bpf }).startSending tasks
    | (bpf, .error _) =>
      (s.setSched { s.sched with
        bpf := bpf
        stats := { s.sched.stats with
          dequeueErrors := s.sched.stats.dequeueErrors + 1 } }).startSending tasks

/-- One round of the dispatch loop. -/
def submit (s : Live) (task : QueuedTask) (tasks : List QueuedTask) (rings : Rings) : Live :=
  { s.setSched (s.sched.dispatchOne rings task) with
    phase := .sending tasks
    refused := if rings.reserve s.sched.bpf.reserveCalls then s.refused else s.refused ++ [task] }

/-- One ring operation of `dispatch_tasks`, or the end of one of its loops. -/
def user (s : Live) (rings : Rings) : Live :=
  match s.phase with
  | .reading tasks => s.consume tasks rings
  | .sending [] => s.complete
  | .sending (task :: tasks) => s.submit task tasks rings

/-! ### The books of a task -/

/-- `rustland_runnable`. -/
def runnable (s : Live) (pid : Int32) (p : Task) : Live :=
  if pid = ro.userschedPid then s
  else
    match p.ctx with
    | none => s
    | some ctx => s.setHost (s.setTask pid { p with ctx := some { ctx with execRuntime := 0 } })

/-- `rustland_running`. -/
def running (s : Live) (pid : Int32) (p : Task) (now : UInt64) : Live :=
  if pid = ro.userschedPid then { s with userschedLastRunAt := now }
  else
    let s := { s with nrRunning := s.nrRunning + 1 }
    match p.ctx with
    | none => s
    | some ctx => s.setHost (s.setTask pid { p with ctx := some { ctx with startTs := now } })

/-- `rustland_stopping`. -/
def stopping (s : Live) (pid : Int32) (p : Task) (now : UInt64) : Live :=
  if pid = ro.userschedPid then s
  else
    let s := { s with nrRunning := s.nrRunning - 1 }
    match p.ctx with
    | none => s
    | some ctx => s.setHost (s.setTask pid { p with ctx := some { ctx with
        stopTs := now
        execRuntime := ctx.execRuntime + (now - ctx.startTs) } })

/-- `usersched_timer_fn`. -/
def timer (s : Live) (now : UInt64) : Live :=
  if timeDelta now s.userschedLastRunAt ≥ userschedTimerNs then
    match s.kernel.tasks ro.userschedPid with
    | none => s
    | some p => s.setHost { s.setKernel (s.kernel.kickCpu p.cpu) with userschedNeeded := true }
  else s

/-! ### A CPU in `ops.dispatch` -/

/-- The drain of the user ring begins; only one can be under way. -/
def enter (s : Live) (c : ℕ+) : Live :=
  match s.draining with
  | some _ => s
  | none =>
    { s with
      kernel := s.kernel.enter c
      draining := some ⟨s.ring.consumed, [], false⟩ }

/-- What the other CPUs answer in a callback of the drain; the tasks have moved on their own. -/
def still (idleCpu : Task → Int32) : Env where
  tasks _ tasks := tasks
  idleCpu _ := idleCpu

/-- The oldest record of the user ring goes to the callback of the drain. -/
def handOver (s : Live) (idleCpu : Task → Int32) : Live :=
  match s.draining, s.ring.pending with
  | some drain, task :: _ =>
    if drain.stopped then s
    else
      let (stop, kernel) := callback (still idleCpu) task s.kernel
      { s with
        toSystem := s.withRing s.ring.advance kernel
        draining := some ⟨drain.first, drain.handovers ++ [(s.kernel.tasks, task)], stop⟩ }
  | _, _ => s

/-- The drain has stopped or found the ring empty; its insertions go to the queues. -/
def flushed (s : Live) (drain : OpenDrain) : Live :=
  { s with
    kernel := s.kernel.flush
    dsq := flushTo s.dsq (entriesFrom drain.first drain.handovers)
    draining := none
    drains := s.drains + 1 }

/-- The rest of `ops.dispatch`. -/
def finish (s : Live) (cpu : Int32) (prev : Option (Int32 × Bool)) : Live :=
  s.setHost (s.toHost.afterDrain ro cpu (!s.unread.isEmpty) prev)

def leave (s : Live) (cpu : Int32) (prev : Option (Int32 × Bool)) : Live :=
  match s.draining with
  | none => s
  | some drain =>
    if drain.stopped || s.ring.pending.isEmpty then (s.flushed drain).finish ro cpu prev else s

/-- A CPU that finds the user ring in use goes on without a drain. -/
def bypass (s : Live) (cpu : Int32) (prev : Option (Int32 × Bool)) : Live :=
  match s.draining with
  | none => s
  | some _ => s.finish ro cpu prev

/-! ### Steps -/

/-- A task changes in a way that the scheduler does not see. -/
def change (s : Live) (change : Change) : Live :=
  { s with
    kernel := { s.kernel with tasks := change.apply ro s.kernel.tasks }
    enabled := change.enabled s.enabled }

def step (s : Live) : Event → Live
  | .user error granted => s.user (s.answers error granted)
  | .initTask pid p => s.change ro (.fork pid (rustlandInitTask p))
  | .exit pid => s.change ro (.exit pid)
  | .enable pid => s.change ro (.enable pid)
  | .disable pid => s.change ro (.disable pid)
  | .update pid cpu cpusPtr slice =>
    match s.kernel.tasks pid with
    | none => s
    | some p => s.change ro (.update pid cpu cpusPtr slice p.ctx)
  | .runnable pid =>
    match s.enabledTask pid with
    | none => s
    | some p => s.runnable ro pid p
  | .running pid now =>
    match s.enabledTask pid with
    | none => s
    | some p => s.running ro pid p now
  | .stopping pid now =>
    match s.enabledTask pid with
    | none => s
    | some p => s.stopping ro pid p now
  | .timer now => s.timer ro now
  | .selectCpu pid thisCpu prevCpu idle =>
    match s.enabledTask pid with
    | none => s
    | some p => s.setHost (s.toHost.selectCpu ro pid p thisCpu prevCpu idle).2
  | .enqueue pid flags facts =>
    match s.enabledTask pid with
    | none => s
    | some p => s.setHost (s.toHost.enqueue ro pid p flags facts)
  | .dequeue pid =>
    s.setHost { s.toHost with dsq := fun d => (s.dsq d).remove fun e => e.insertion.pid == pid }
  | .enter c => s.enter c
  | .handOver idleCpu => s.handOver idleCpu
  | .leave cpu prev => s.leave ro cpu prev
  | .bypass cpu prev => s.bypass ro cpu prev

def run (s : Live) (events : List Event) : Live := events.foldl (step ro) s

theorem run_append (s : Live) (events later : List Event) :
    s.run ro (events ++ later) = (s.run ro events).run ro later := List.foldl_append

/-- The scheduler has been loaded; the kernel has not shown it any task yet. -/
def boot (pid : UInt32) (startedAtMs : UInt64) (profile : Profile) : Live where
  toHost := .boot pid startedAtMs profile fun _ => none
  phase := .reading []
  read := 0
  settled := 0
  refused := []
  passes := 0
  draining := none
  drains := 0
  enabled _ := false
  nrRunning := 0
  userschedLastRunAt := 0

end Live

end CerynthOS.Scx
