import CerynthOS.Scx.Live

/-! What one step of the host can do.

    Most of what happens on the host sends nothing to user space and leaves the user ring alone. A
    task is announced to user space by one callback only, which also counts the announcement in the
    context of the task. -/

namespace CerynthOS.Scx
open Kernel

variable {ro : Rodata}

/-! ### Contexts -/

/-- The context of a task, if it has one. -/
def ctxs (tasks : Tasks) (pid : Int32) : Option TaskCtx := (tasks pid).bind (·.ctx)

variable {tasks : Tasks} {pid : Int32} {p p' : Task}

theorem ctxs_some (h : tasks pid = some p) : ctxs tasks pid = p.ctx := by
  rw [ctxs, h, Option.bind_some]

theorem ctxs_update (tasks : Tasks) (pid : Int32) (o : Option Task) :
    ctxs (Function.update tasks pid o) = Function.update (ctxs tasks) pid (o.bind (·.ctx)) := by
  funext pid'
  by_cases h : pid' = pid
  · rw [ctxs, h, Function.update_self, Function.update_self]
  · rw [ctxs, Function.update_of_ne h, Function.update_of_ne h, ctxs]

theorem ctxs_keep (hp : tasks pid = some p) (hctx : p'.ctx = p.ctx) :
    ctxs (Function.update tasks pid (some p')) = ctxs tasks := by
  rw [ctxs_update, Option.bind_some, hctx, ← ctxs_some hp, Function.update_eq_self]

theorem isSome_update (hp : tasks pid = some p) (pid' : Int32) :
    (Function.update tasks pid (some p') pid').isSome = (tasks pid').isSome := by
  by_cases h : pid' = pid
  · rw [h, Function.update_self, hp]
    rfl
  · rw [Function.update_of_ne h]

/-! ### The host -/

/-- What the kernel has counted and handed on. -/
def Kernel.account (k : Kernel) : (ℕ × List Insertion × List DispatchedTask × ℕ) ×
    List Insertion × UInt64 × UInt64 × UInt64 :=
  (k.frame, k.buf, k.nrUserDispatches, k.nrBounceDispatches, k.nrCancelDispatches)

@[simp] theorem cpuToDsq_account (k : Kernel) (cpu : Int32) :
    (k.cpuToDsq cpu).2.account = k.account := by
  simp only [cpuToDsq]
  split_ifs <;> rfl

/-- A record that is handed over changes the slice and the virtual time of its task, when the other
    tasks stay as they are. -/
theorem callback_ctxs (idleCpu : Task → Int32) (task : DispatchedTask) (k : Kernel) :
    ctxs (callback (Live.still idleCpu) task k).2.tasks = ctxs k.tasks ∧
    ∀ pid, ((callback (Live.still idleCpu) task k).2.tasks pid).isSome = (k.tasks pid).isSome := by
  have htasks := dispatchTask_tasks (Live.still idleCpu) (k.elapse (Live.still idleCpu)) task
  have hsame : (callback (Live.still idleCpu) task k).2.tasks =
      ((k.elapse (Live.still idleCpu)).dispatchTask (Live.still idleCpu) task).tasks := rfl
  rw [hsame, htasks]
  cases hp : (k.elapse (Live.still idleCpu)).tasks task.pid with
  | none => exact ⟨rfl, fun _ => rfl⟩
  | some p => exact ⟨ctxs_keep hp rfl, isSome_update hp⟩

/-- What user space knows: what it has sent and how often it asked, its counters, but neither how far
    the user ring is drained nor how many records the kernel has sent. -/
def Scheduler.core (self : Scheduler) : List DispatchedTask × (UInt64 × ℕ × ℕ) × Profile × UInt64 ×
    SchedulerStats :=
  (self.bpf.dispatched.records,
    (self.bpf.nrScheduled, self.bpf.consumeCalls, self.bpf.reserveCalls), self.profile,
    self.startedAtMs, self.stats)

namespace Host

variable {s s' s'' : Host}

/-- The user ring, the counters of user space and the dispatch of records are left alone, and no task
    comes or goes. -/
structure Kept (s s' : Host) : Prop where
  ring : s'.ring = s.ring
  stats : s'.sched.stats = s.sched.stats
  profile : s'.sched.profile = s.sched.profile
  account : s'.kernel.account = s.kernel.account
  present : ∀ pid, (s'.kernel.tasks pid).isSome = (s.kernel.tasks pid).isSome

/-- Nothing is sent to user space. -/
structure Silent (s s' : Host) : Prop extends Kept s s' where
  queued : s'.queued = s.queued
  ctxs : ctxs s'.kernel.tasks = ctxs s.kernel.tasks

/-- One record is sent; it says what the context of its task says. -/
structure Announces (s s' : Host) (ctx : TaskCtx) (task : QueuedTask) : Prop extends
    Kept s s' where
  known : Scx.ctxs s.kernel.tasks task.pid = some ctx
  queued : s'.queued = s.queued ++ [task]
  enqCnt : task.enqCnt = ctx.enqCnt + 1
  startTs : task.startTs = ctx.startTs
  stopTs : task.stopTs = ctx.stopTs
  execRuntime : task.execRuntime = ctx.execRuntime
  ctxs : Scx.ctxs s'.kernel.tasks = Function.update (Scx.ctxs s.kernel.tasks) task.pid
    (some { ctx with enqCnt := ctx.enqCnt + 1 })

theorem Kept.trans (h : Kept s s') (h' : Kept s' s'') : Kept s s'' where
  ring := h'.ring.trans h.ring
  stats := h'.stats.trans h.stats
  profile := h'.profile.trans h.profile
  account := h'.account.trans h.account
  present pid := (h'.present pid).trans (h.present pid)

theorem Silent.refl (s : Host) : Silent s s := ⟨⟨rfl, rfl, rfl, rfl, fun _ => rfl⟩, rfl, rfl⟩

theorem Silent.trans (h : Silent s s') (h' : Silent s' s'') : Silent s s'' where
  toKept := h.toKept.trans h'.toKept
  queued := h'.queued.trans h.queued
  ctxs := h'.ctxs.trans h.ctxs

theorem Silent.announces {ctx : TaskCtx} {task : QueuedTask} (h : Silent s s')
    (h' : Announces s' s'' ctx task) : Announces s s'' ctx task where
  toKept := h.toKept.trans h'.toKept
  known := h.ctxs ▸ h'.known
  queued := h'.queued.trans (by rw [h.queued])
  enqCnt := h'.enqCnt
  startTs := h'.startTs
  stopTs := h'.stopTs
  execRuntime := h'.execRuntime
  ctxs := h'.ctxs.trans (by rw [h.ctxs])

theorem Announces.silent {ctx : TaskCtx} {task : QueuedTask} (h : Announces s s' ctx task)
    (h' : Silent s' s'') : Announces s s'' ctx task where
  toKept := h.toKept.trans h'.toKept
  known := h.known
  queued := h'.queued.trans h.queued
  enqCnt := h.enqCnt
  startTs := h.startTs
  stopTs := h.stopTs
  execRuntime := h.execRuntime
  ctxs := h'.ctxs.trans h.ctxs

/-- At most one record is sent, and none for the user-space scheduler. -/
def Speaks (ro : Rodata) (s s' : Host) : Prop :=
  Silent s s' ∨ ∃ ctx task, task.pid ≠ ro.userschedPid ∧ Announces s s' ctx task

theorem Silent.speaks (h : Silent s s') (h' : Speaks ro s' s'') : Speaks ro s s'' := by
  rcases h' with h' | ⟨ctx, task, hne, h'⟩
  · exact .inl (h.trans h')
  · exact .inr ⟨ctx, task, hne, h.announces h'⟩

theorem Speaks.silent (h : Speaks ro s s') (h' : Silent s' s'') : Speaks ro s s'' := by
  rcases h with h | ⟨ctx, task, hne, h⟩
  · exact .inl (h.trans h')
  · exact .inr ⟨ctx, task, hne, h.silent h'⟩

/-! ### Its operations -/

theorem setTask_silent (hp : s.kernel.tasks pid = some p) (p' : Task) (hctx : p'.ctx = p.ctx) :
    Silent s (s.setTask pid p') where
  ring := rfl
  stats := rfl
  profile := rfl
  account := rfl
  present := isSome_update hp
  queued := rfl
  ctxs := ctxs_keep hp hctx

theorem setDsq_silent (s : Host) (d : UInt64) (q : KeyQueue Entry) : Silent s (s.setDsq d q) :=
  ⟨⟨rfl, rfl, rfl, rfl, fun _ => rfl⟩, rfl, rfl⟩

theorem dsqInsertVtime_silent (hp : s.kernel.tasks pid = some p)
    (dsq sliceNs vtime flags : UInt64) :
    Silent s (s.dsqInsertVtime pid p dsq sliceNs vtime flags) :=
  (setTask_silent hp { p with slice := sliceAfter sliceNs p.slice, dsqVtime := vtime } rfl).trans
    (setDsq_silent _ dsq _)

theorem dsqInsert_silent (hp : s.kernel.tasks pid = some p) (dsq sliceNs flags : UInt64) :
    Silent s (s.dsqInsert pid p dsq sliceNs flags) :=
  (setTask_silent hp { p with slice := sliceAfter sliceNs p.slice } rfl).trans
    (setDsq_silent _ dsq _)

theorem cpuToDsq_silent (s : Host) (cpu : Int32) :
    Silent s (s.setKernel (s.kernel.cpuToDsq cpu).2) where
  ring := rfl
  stats := rfl
  profile := rfl
  account := cpuToDsq_account _ _
  present pid := by
    change ((s.kernel.cpuToDsq cpu).2.tasks pid).isSome = _
    rw [cpuToDsq_tasks]
  queued := rfl
  ctxs := by
    change Scx.ctxs (s.kernel.cpuToDsq cpu).2.tasks = _
    rw [cpuToDsq_tasks]

theorem canDirectDispatch_silent (s : Host) (cpu : Int32) :
    Silent s (s.canDirectDispatch cpu).2 := by
  rw [canDirectDispatch]
  split_ifs
  · exact s.cpuToDsq_silent cpu
  · exact .refl s

theorem canDirectDispatch_tasks (s : Host) (cpu : Int32) :
    (s.canDirectDispatch cpu).2.kernel.tasks = s.kernel.tasks := by
  rw [canDirectDispatch]
  split_ifs
  · exact cpuToDsq_tasks _ _
  · rfl

theorem directDispatch_silent (hp : s.kernel.tasks pid = some p) (cpu : Int32) (flags : UInt64) :
    Silent s (s.directDispatch ro pid p cpu flags) := by
  have hp' : (s.setKernel (s.kernel.cpuToDsq cpu).2).kernel.tasks pid = some p :=
    (congrFun (cpuToDsq_tasks _ _) pid).trans hp
  have hinsert := (s.cpuToDsq_silent cpu).trans (dsqInsertVtime_silent hp'
    (s.kernel.cpuToDsq cpu).1 ro.sliceNs p.dsqVtime flags)
  exact ⟨⟨hinsert.ring, hinsert.stats, hinsert.profile, hinsert.account, hinsert.present⟩,
    hinsert.queued, hinsert.ctxs⟩

theorem kickIf_silent (s : Host) (wakeup : Bool) (cpu : Int32) : Silent s (s.kickIf wakeup cpu) := by
  cases wakeup
  · exact .refl s
  · exact ⟨⟨rfl, rfl, rfl, rfl, fun _ => rfl⟩, rfl, rfl⟩

theorem selectCpu_silent (hp : s.kernel.tasks pid = some p) (thisCpu prevCpu idle : Int32) :
    Silent s (s.selectCpu ro pid p thisCpu prevCpu idle).2 := by
  have hdirect := s.canDirectDispatch_silent idle
  have hp' := (congrFun (s.canDirectDispatch_tasks idle) pid).trans hp
  simp only [selectCpu]
  by_cases husched : pid = ro.userschedPid
  · rw [if_pos husched]
    exact .refl s
  · rw [if_neg husched]
    by_cases hbuiltin : (!ro.builtinIdle) = true
    · rw [if_pos hbuiltin]
      exact .refl s
    · rw [if_neg hbuiltin]
      by_cases hidle : idle ≥ 0
      · rw [if_pos hidle]
        dsimp only
        split_ifs
        · exact hdirect.trans (directDispatch_silent hp' idle 0)
        · exact hdirect
      · rw [if_neg hidle]
        exact .refl s

/-- A task that goes to user space is announced, unless the queued ring is full. -/
theorem queueTaskToUserspace_speaks (hp : s.kernel.tasks pid = some p)
    (hne : pid ≠ ro.userschedPid) (prevCpu : Int32) (flags : UInt64) (facts : EnqueueFacts) :
    Speaks ro s (s.queueTaskToUserspace ro pid p prevCpu flags facts) := by
  rw [queueTaskToUserspace]
  cases hctx : p.ctx with
  | none => exact .inl (.refl s)
  | some ctx =>
    dsimp only
    split_ifs
    · have hfull := dsqInsertVtime_silent
        (s := { s with nrSchedCongested := s.nrSchedCongested + 1 }) hp sharedDsq ro.sliceNs
        p.dsqVtime flags
      exact .inl ⟨⟨hfull.ring, hfull.stats, hfull.profile, hfull.account, hfull.present⟩,
        hfull.queued, hfull.ctxs⟩
    · refine .inr ⟨ctx, (getTaskInfo pid p ctx flags prevCpu facts).1, hne,
        ⟨rfl, rfl, rfl, rfl, isSome_update hp⟩, (ctxs_some hp).trans hctx, rfl, rfl, rfl, rfl, rfl,
        ?_⟩
      exact ctxs_update s.kernel.tasks pid _

theorem enqueue_speaks (hp : s.kernel.tasks pid = some p) (flags : UInt64)
    (facts : EnqueueFacts) : Speaks ro s (s.enqueue ro pid p flags facts) := by
  have hdirect := s.canDirectDispatch_silent facts.idle
  have hp' := (congrFun (s.canDirectDispatch_tasks facts.idle) pid).trans hp
  rw [enqueue]
  split_ifs with hne
  · exact .inl ((dsqInsert_silent hp _ _ _).trans (kickIf_silent _ _ _))
  · exact .inl ((directDispatch_silent hp _ _).trans (kickIf_silent _ _ _))
  · exact (queueTaskToUserspace_speaks hp hne _ _ _).silent (kickIf_silent _ _ _)
  · exact (queueTaskToUserspace_speaks hp hne _ _ _).silent (kickIf_silent _ _ _)
  · dsimp only
    split_ifs
    · exact (hdirect.speaks (queueTaskToUserspace_speaks hp' hne _ _ _)).silent
        (kickIf_silent _ _ _)
    · exact .inl (hdirect.trans (kickIf_silent _ _ _))
  · dsimp only
    split_ifs
    · exact (hdirect.speaks (queueTaskToUserspace_speaks hp' hne _ _ _)).silent
        (kickIf_silent _ _ _)
    · exact .inl ((hdirect.trans (directDispatch_silent hp' _ _)).trans (kickIf_silent _ _ _))

theorem dsqMoveToLocal_silent {d : UInt64} (h : s.dsqMoveToLocal d = some s') : Silent s s' := by
  obtain ⟨⟨e, q⟩, -, rfl⟩ := Option.map_eq_some_iff.mp h
  exact setDsq_silent s d q

theorem userschedHasPendingTasks_silent (s : Host) (avail : Bool) :
    Silent s (s.userschedHasPendingTasks avail).2 :=
  ⟨⟨rfl, rfl, rfl, rfl, fun _ => rfl⟩, rfl, rfl⟩

theorem replenish_silent (s : Host) (avail : Bool) (prev : Option (Int32 × Bool)) :
    Silent s (s.replenish ro avail prev) := by
  have hpending := s.userschedHasPendingTasks_silent avail
  rcases prev with - | ⟨pid, - | -⟩
  · exact .refl s
  · exact .refl s
  · simp only [replenish, if_true]
    by_cases husched : pid = ro.userschedPid
    · rw [if_pos husched]
      split
      · next p hp =>
        split_ifs
        · exact hpending.trans (setTask_silent hp _ rfl)
        · exact hpending
      · exact hpending
    · rw [if_neg husched]
      split
      · next p hp => exact setTask_silent hp _ rfl
      · exact .refl s

theorem afterDrain_silent (s : Host) (cpu : Int32) (avail : Bool)
    (prev : Option (Int32 × Bool)) : Silent s (s.afterDrain ro cpu avail prev) := by
  have hpending := s.userschedHasPendingTasks_silent avail
  simp only [afterDrain]
  split
  · next s' hs =>
    split_ifs at hs
    exact hpending.trans (dsqMoveToLocal_silent hs)
  · have hcpu := hpending.trans (cpuToDsq_silent _ cpu)
    split
    · next s' hs => exact hcpu.trans (dsqMoveToLocal_silent hs)
    · cases hs : Host.dsqMoveToLocal _ sharedDsq with
      | some s' => exact hcpu.trans (dsqMoveToLocal_silent hs)
      | none => exact hcpu.trans (replenish_silent _ avail prev)

/-! ### User space meanwhile -/

/-- The flag of the heartbeat, and what user space knows. -/
def core (s : Host) : Bool × List DispatchedTask × (UInt64 × ℕ × ℕ) × Profile × UInt64 ×
    SchedulerStats := (s.userschedNeeded, s.sched.core)

theorem canDirectDispatch_core (s : Host) (cpu : Int32) :
    (s.canDirectDispatch cpu).2.core = s.core := by
  rw [canDirectDispatch]
  split_ifs <;> rfl

theorem selectCpu_core (s : Host) (pid : Int32) (p : Task) (thisCpu prevCpu idle : Int32) :
    (s.selectCpu ro pid p thisCpu prevCpu idle).2.core = s.core := by
  have hdirect := s.canDirectDispatch_core idle
  simp only [selectCpu]
  by_cases husched : pid = ro.userschedPid
  · rw [if_pos husched]
  · rw [if_neg husched]
    by_cases hbuiltin : (!ro.builtinIdle) = true
    · rw [if_pos hbuiltin]
    · rw [if_neg hbuiltin]
      by_cases hidle : idle ≥ 0
      · rw [if_pos hidle]
        dsimp only
        split_ifs <;> exact hdirect
      · rw [if_neg hidle]

theorem kickIf_core (s : Host) (wakeup : Bool) (cpu : Int32) :
    (s.kickIf wakeup cpu).core = s.core := by
  rw [kickIf]
  split_ifs <;> rfl

theorem queueTaskToUserspace_core (s : Host) (pid : Int32) (p : Task) (prevCpu : Int32)
    (flags : UInt64) (facts : EnqueueFacts) :
    (s.queueTaskToUserspace ro pid p prevCpu flags facts).core = s.core := by
  rw [queueTaskToUserspace]
  cases p.ctx with
  | none => rfl
  | some ctx =>
    dsimp only
    split_ifs <;> rfl

theorem enqueue_core (s : Host) (pid : Int32) (p : Task) (flags : UInt64)
    (facts : EnqueueFacts) : (s.enqueue ro pid p flags facts).core = s.core := by
  have hdirect := s.canDirectDispatch_core facts.idle
  rw [enqueue]
  split_ifs
  · rw [kickIf_core]
    rfl
  · rw [kickIf_core]
    rfl
  · rw [kickIf_core, queueTaskToUserspace_core]
  · rw [kickIf_core, queueTaskToUserspace_core]
  all_goals
    dsimp only
    split_ifs
    · rw [kickIf_core, queueTaskToUserspace_core, hdirect]
    · rw [kickIf_core]
      exact hdirect

theorem dsqMoveToLocal_core {s' : Host} {d : UInt64} (h : s.dsqMoveToLocal d = some s') :
    s'.core = s.core := by
  obtain ⟨taken, -, rfl⟩ := Option.map_eq_some_iff.mp h
  rfl

theorem replenish_core (s : Host) (avail : Bool) (prev : Option (Int32 × Bool)) :
    (s.replenish ro avail prev).core = s.core ∨
    (s.replenish ro avail prev).core = (false, s.sched.core) := by
  rcases prev with - | ⟨pid, - | -⟩
  · exact .inl rfl
  · exact .inl rfl
  · simp only [replenish, if_true]
    by_cases husched : pid = ro.userschedPid
    · rw [if_pos husched]
      refine .inr ?_
      split
      · split_ifs <;> rfl
      · rfl
    · rw [if_neg husched]
      refine .inl ?_
      split
      · rfl
      · rfl

/-- Whoever asks takes the flag back. -/
theorem afterDrain_core (s : Host) (cpu : Int32) (avail : Bool) (prev : Option (Int32 × Bool)) :
    (s.afterDrain ro cpu avail prev).core = (false, s.sched.core) := by
  simp only [afterDrain]
  split
  · next s' hs =>
    split_ifs at hs
    exact dsqMoveToLocal_core hs
  · split
    · next s' hs => exact dsqMoveToLocal_core hs
    · cases hs : Host.dsqMoveToLocal _ sharedDsq with
      | some s' => exact dsqMoveToLocal_core hs
      | none =>
        rw [Option.getD_none]
        rcases replenish_core _ avail prev with h | h <;> exact h

end Host

/-! ### The steps -/

namespace Live

variable {s s' : Live}

/-- User space is where it was. -/
structure Waits (s s' : Live) : Prop where
  phase : s'.phase = s.phase
  read : s'.read = s.read
  settled : s'.settled = s.settled
  refused : s'.refused = s.refused
  passes : s'.passes = s.passes

/-- User space and the drain are where they were. -/
structure Aside (s s' : Live) : Prop extends Waits s s' where
  draining : s'.draining = s.draining
  drains : s'.drains = s.drains

theorem aside_setHost (s : Live) (host : Host) : Aside s (s.setHost host) :=
  ⟨⟨rfl, rfl, rfl, rfl, rfl⟩, rfl, rfl⟩

/-- A callback writes the books of a task, whose announcements stay counted. -/
structure Books (s s' : Live) (pid : Int32) (ctx ctx' : TaskCtx) : Prop extends Aside s s',
    Host.Kept s.toHost s'.toHost where
  queued : s'.queued = s.queued
  known : Scx.ctxs s.kernel.tasks pid = some ctx
  ctxs : Scx.ctxs s'.kernel.tasks = Function.update (Scx.ctxs s.kernel.tasks) pid (some ctx')
  enqCnt : ctx'.enqCnt = ctx.enqCnt

theorem startSending_ring (s : Live) (tasks : List QueuedTask) :
    (s.startSending tasks).ring = s.ring :=
  congrArg (·.dispatched) (Scheduler.countBatch_spec s.sched (.ofNat tasks.length)).1

/-- What user space leaves alone. -/
structure UserFrame (s s' : Live) : Prop where
  kernel : s'.kernel = s.kernel
  dsq : s'.dsq = s.dsq
  queued : s'.queued = s.queued
  userschedNeeded : s'.userschedNeeded = s.userschedNeeded
  consumed : s'.ring.consumed = s.ring.consumed
  draining : s'.draining = s.draining
  drains : s'.drains = s.drains
  enabled : s'.enabled = s.enabled
  nrRunning : s'.nrRunning = s.nrRunning
  userschedLastRunAt : s'.userschedLastRunAt = s.userschedLastRunAt

/-- Reading leaves the user ring alone. -/
theorem consume_frame (s : Live) (tasks : List QueuedTask) (rings : Rings) :
    UserFrame s (s.consume tasks rings) ∧ (s.consume tasks rings).ring = s.ring ∧
    (s.consume tasks rings).refused = s.refused ∧ (s.consume tasks rings).passes = s.passes := by
  have hring : (s.consume tasks rings).ring = s.ring := by
    simp only [consume, BpfScheduler.dequeueTask]
    split_ifs
    · exact s.startSending_ring tasks
    · cases rings.consume s.sched.bpf.consumeCalls with
      | empty => exact startSending_ring _ tasks
      | record task => rfl
      | error res => exact startSending_ring _ tasks
  refine ⟨⟨?_, ?_, ?_, ?_, by rw [hring], ?_, ?_, ?_, ?_, ?_⟩, hring, ?_, ?_⟩
  all_goals
    simp only [consume, BpfScheduler.dequeueTask]
    split_ifs
    · rfl
    · cases rings.consume s.sched.bpf.consumeCalls <;> rfl

theorem submit_granted (s : Live) (task : QueuedTask) (tasks : List QueuedTask) {rings : Rings}
    (h : rings.reserve s.sched.bpf.reserveCalls = true) :
    (s.submit task tasks rings).ring = s.ring.submit (.new task) ∧
    (s.submit task tasks rings).refused = s.refused ∧
    (s.submit task tasks rings).sched.stats.dispatchErrors = s.sched.stats.dispatchErrors := by
  simp [submit, setSched, System.ring, Scheduler.dispatchOne, BpfScheduler.dispatchTask, h]

theorem submit_refused (s : Live) (task : QueuedTask) (tasks : List QueuedTask) {rings : Rings}
    (h : ¬ rings.reserve s.sched.bpf.reserveCalls = true) :
    (s.submit task tasks rings).ring = s.ring ∧
    (s.submit task tasks rings).refused = s.refused ++ [task] ∧
    (s.submit task tasks rings).sched.stats.dispatchErrors =
      s.sched.stats.dispatchErrors + 1 := by
  simp [submit, setSched, System.ring, Scheduler.dispatchOne, BpfScheduler.dispatchTask, h]

/-- One step of user space. -/
theorem user_frame (s : Live) (rings : Rings) : UserFrame s (s.user rings) := by
  rw [user]
  split
  · next tasks hphase => exact (s.consume_frame tasks rings).1
  · exact ⟨rfl, rfl, rfl, rfl, rfl, rfl, rfl, rfl, rfl, rfl⟩
  · next task tasks hphase =>
    refine ⟨rfl, rfl, rfl, rfl, ?_, rfl, rfl, rfl, rfl, rfl⟩
    by_cases hreserve : rings.reserve s.sched.bpf.reserveCalls = true
    · rw [(s.submit_granted task tasks hreserve).1, RingBuffer.submit_consumed]
    · rw [(s.submit_refused task tasks hreserve).1]

/-- The events that write the books of a task. -/
def Event.writes : Event → Bool
  | .runnable _ | .running _ _ | .stopping _ _ => true
  | _ => false

/-- Everything that a step can do. -/
inductive Stepped (ro : Rodata) (s : Live) : Event → Live → Prop where
  | user (error : Option Int32) (granted : Bool) :
    Stepped ro s (.user error granted) (s.user (s.answers error granted))
  | silent (event : Event) {s' : Live} (aside : Aside s s')
    (host : Host.Silent s.toHost s'.toHost) : Stepped ro s event s'
  | announces (event : Event) {s' : Live} {ctx : TaskCtx} {task : QueuedTask} (aside : Aside s s')
    (host : Host.Announces s.toHost s'.toHost ctx task) (other : task.pid ≠ ro.userschedPid) :
    Stepped ro s event s'
  | books (event : Event) {s' : Live} {pid : Int32} {ctx ctx' : TaskCtx}
    (books : Books s s' pid ctx ctx') (writes : event.writes = true) : Stepped ro s event s'
  | fork (pid : Int32) (p : Task) :
    Stepped ro s (.initTask pid p) (s.change ro (.fork pid (rustlandInitTask p)))
  | exit (pid : Int32) : Stepped ro s (.exit pid) (s.change ro (.exit pid))
  | enter (c : ℕ+) (free : s.draining = none) : Stepped ro s (.enter c) (s.enter c)
  | handOver (idleCpu : Task → Int32) : Stepped ro s (.handOver idleCpu) (s.handOver idleCpu)
  | leave (cpu : Int32) (prev : Option (Int32 × Bool)) {drain : OpenDrain} {host : Host}
    (begun : s.draining = some drain) (done : drain.stopped = true ∨ s.ring.pending = [])
    (after : Host.Silent (s.flushed drain).toHost host) :
    Stepped ro s (.leave cpu prev) ((s.flushed drain).setHost host)

theorem stepped_refl (event : Event) : Stepped ro s event s :=
  .silent event (aside_setHost s s.toHost) (.refl _)

theorem stepped_silent {event : Event} {host : Host} (h : Host.Silent s.toHost host) :
    Stepped ro s event (s.setHost host) := .silent event (aside_setHost s host) h

theorem stepped_speaks {event : Event} {host : Host} (h : Host.Speaks ro s.toHost host) :
    Stepped ro s event (s.setHost host) := by
  rcases h with h | ⟨ctx, task, hne, h⟩
  · exact stepped_silent h
  · exact .announces event (aside_setHost s host) h hne

theorem enabledTask_some {pid : Int32} {p : Task} (h : s.enabledTask pid = some p) :
    s.kernel.tasks pid = some p := by
  rw [enabledTask] at h
  split_ifs at h
  exact h

/-- A change that leaves the contexts alone sends nothing. -/
theorem stepped_change {event : Event} {change : Change}
    (hctxs : ctxs (change.apply ro s.kernel.tasks) = ctxs s.kernel.tasks)
    (hpresent : ∀ pid, (change.apply ro s.kernel.tasks pid).isSome =
      (s.kernel.tasks pid).isSome) : Stepped ro s event (s.change ro change) :=
  .silent event ⟨⟨rfl, rfl, rfl, rfl, rfl⟩, rfl, rfl⟩
    ⟨⟨rfl, rfl, rfl, rfl, hpresent⟩, rfl, hctxs⟩

theorem runnable_stepped {pid : Int32} {p : Task} (hp : s.kernel.tasks pid = some p)
    {event : Event} (hwrites : event.writes = true) :
    Stepped ro s event (s.runnable ro pid p) := by
  rw [runnable]
  split_ifs
  · exact stepped_refl event
  · cases hctx : p.ctx with
    | none => exact stepped_refl event
    | some ctx =>
      exact .books event ⟨aside_setHost _ _, ⟨rfl, rfl, rfl, rfl, isSome_update hp⟩, rfl,
        (ctxs_some hp).trans hctx, ctxs_update _ _ _, rfl⟩ hwrites

theorem running_stepped {pid : Int32} {p : Task} (hp : s.kernel.tasks pid = some p)
    (now : UInt64) {event : Event} (hwrites : event.writes = true) :
    Stepped ro s event (s.running ro pid p now) := by
  rw [running]
  split_ifs
  · exact .silent event ⟨⟨rfl, rfl, rfl, rfl, rfl⟩, rfl, rfl⟩ (.refl _)
  · cases hctx : p.ctx with
    | none => exact .silent event ⟨⟨rfl, rfl, rfl, rfl, rfl⟩, rfl, rfl⟩ (.refl _)
    | some ctx =>
      exact .books event ⟨⟨⟨rfl, rfl, rfl, rfl, rfl⟩, rfl, rfl⟩,
        ⟨rfl, rfl, rfl, rfl, isSome_update hp⟩, rfl, (ctxs_some hp).trans hctx,
        ctxs_update _ _ _, rfl⟩ hwrites

theorem stopping_stepped {pid : Int32} {p : Task} (hp : s.kernel.tasks pid = some p)
    (now : UInt64) {event : Event} (hwrites : event.writes = true) :
    Stepped ro s event (s.stopping ro pid p now) := by
  rw [stopping]
  split_ifs
  · exact stepped_refl event
  · cases hctx : p.ctx with
    | none => exact .silent event ⟨⟨rfl, rfl, rfl, rfl, rfl⟩, rfl, rfl⟩ (.refl _)
    | some ctx =>
      exact .books event ⟨⟨⟨rfl, rfl, rfl, rfl, rfl⟩, rfl, rfl⟩,
        ⟨rfl, rfl, rfl, rfl, isSome_update hp⟩, rfl, (ctxs_some hp).trans hctx,
        ctxs_update _ _ _, rfl⟩ hwrites

theorem timer_stepped (now : UInt64) (event : Event) :
    Stepped ro s event (s.timer ro now) := by
  rw [timer]
  split_ifs
  · cases s.kernel.tasks ro.userschedPid with
    | none => exact stepped_refl event
    | some p => exact stepped_silent ⟨⟨rfl, rfl, rfl, rfl, fun _ => rfl⟩, rfl, rfl⟩
  · exact stepped_refl event

theorem leave_stepped (cpu : Int32) (prev : Option (Int32 × Bool)) :
    Stepped ro s (.leave cpu prev) (s.leave ro cpu prev) := by
  rw [leave]
  split
  · exact stepped_refl _
  · next drain hdrain =>
    split_ifs with hdone
    · rw [Bool.or_eq_true, List.isEmpty_iff] at hdone
      exact .leave cpu prev hdrain hdone (Host.afterDrain_silent _ _ _ _)
    · exact stepped_refl _

theorem step_stepped (ro : Rodata) (s : Live) (event : Event) :
    Stepped ro s event (s.step ro event) := by
  cases event with
  | user error granted => exact .user error granted
  | initTask pid p => exact .fork pid p
  | exit pid => exact .exit pid
  | enable pid =>
    cases hp : s.kernel.tasks pid with
    | none =>
      have hsame : Change.apply ro s.kernel.tasks (.enable pid) = s.kernel.tasks := by
        rw [Change.apply, hp, Option.map_none, ← hp, Function.update_eq_self]
      exact stepped_change (by rw [hsame]) fun _ => by rw [hsame]
    | some p =>
      have hmap : Change.apply ro s.kernel.tasks (.enable pid) =
          Function.update s.kernel.tasks pid (some (rustlandEnable ro p)) := by
        rw [Change.apply, hp, Option.map_some]
      exact stepped_change (by rw [hmap]; exact ctxs_keep hp rfl)
        fun pid' => by rw [hmap]; exact isSome_update hp pid'
  | disable pid => exact stepped_change rfl fun _ => rfl
  | update pid cpu cpusPtr slice =>
    rw [step]
    split
    · exact stepped_refl _
    · next p hp =>
      have hmap : Change.apply ro s.kernel.tasks (.update pid cpu cpusPtr slice p.ctx) =
          Function.update s.kernel.tasks pid (some { p with
            cpu := cpu, cpusPtr := cpusPtr, slice := slice, ctx := p.ctx }) := by
        rw [Change.apply, hp, Option.map_some]
      exact stepped_change (by rw [hmap]; exact ctxs_keep hp rfl)
        fun pid' => by rw [hmap]; exact isSome_update hp pid'
  | runnable pid =>
    rw [step]
    split
    · exact stepped_refl _
    · next p hp => exact runnable_stepped (enabledTask_some hp) rfl
  | running pid now =>
    rw [step]
    split
    · exact stepped_refl _
    · next p hp => exact running_stepped (enabledTask_some hp) now rfl
  | stopping pid now =>
    rw [step]
    split
    · exact stepped_refl _
    · next p hp => exact stopping_stepped (enabledTask_some hp) now rfl
  | timer now => exact timer_stepped now _
  | selectCpu pid thisCpu prevCpu idle =>
    rw [step]
    split
    · exact stepped_refl _
    · next p hp => exact stepped_silent (Host.selectCpu_silent (enabledTask_some hp) _ _ _)
  | enqueue pid flags facts =>
    rw [step]
    split
    · exact stepped_refl _
    · next p hp => exact stepped_speaks (Host.enqueue_speaks (enabledTask_some hp) _ _)
  | dequeue pid => exact stepped_silent ⟨⟨rfl, rfl, rfl, rfl, fun _ => rfl⟩, rfl, rfl⟩
  | enter c =>
    cases hdrain : s.draining with
    | none => exact .enter c hdrain
    | some drain =>
      rw [step, enter, hdrain]
      exact stepped_refl _
  | handOver idleCpu => exact .handOver idleCpu
  | leave cpu prev => exact leave_stepped cpu prev
  | bypass cpu prev =>
    rw [step, bypass]
    split
    · exact stepped_refl _
    · exact stepped_silent (Host.afterDrain_silent _ _ _ _)

/-! ### Who changes what -/

/-- The parts of the host that few events change: what user space knows, which tasks are under the
    scheduler, who has a CPU, and the flag of the heartbeat. -/
inductive Part where
  | user
  | tasks
  | starts
  | stops
  | flag
  | other

/-- The part that an event may change. -/
def Event.part : Event → Part
  | .user _ _ => .user
  | .initTask _ _ | .exit _ | .enable _ | .disable _ => .tasks
  | .running _ _ => .starts
  | .stopping _ _ => .stops
  | .timer _ | .leave _ _ | .bypass _ _ => .flag
  | _ => .other

/-- Each part is changed by the events of that part only. -/
structure Frame (s : Live) (part : Part) (s' : Live) : Prop where
  waits : part ≠ .user → Waits s s' ∧ s'.sched.core = s.sched.core
  enabled : part ≠ .tasks → s'.enabled = s.enabled
  nrRunning : part ≠ .starts → part ≠ .stops → s'.nrRunning = s.nrRunning
  lastRun : part ≠ .starts → s'.userschedLastRunAt = s.userschedLastRunAt
  needed : part ≠ .flag → s'.userschedNeeded = s.userschedNeeded

theorem frame_setHost (s : Live) (part : Part) {host : Host} (h : host.core = s.core) :
    Frame s part (s.setHost host) where
  waits _ := ⟨(aside_setHost s host).toWaits, congrArg (·.2) h⟩
  enabled _ := rfl
  nrRunning _ _ := rfl
  lastRun _ := rfl
  needed _ := congrArg (·.1) h

theorem frame_refl (s : Live) (part : Part) : Frame s part s := s.frame_setHost part rfl

theorem frame_change (s : Live) (change : Change) : Frame s .tasks (s.change ro change) where
  waits _ := ⟨⟨rfl, rfl, rfl, rfl, rfl⟩, rfl⟩
  enabled h := absurd rfl h
  nrRunning _ _ := rfl
  lastRun _ := rfl
  needed _ := rfl

theorem runnable_frame (s : Live) (pid : Int32) (p : Task) :
    Frame s .other (s.runnable ro pid p) := by
  rw [runnable]
  split_ifs
  · exact s.frame_refl _
  · cases p.ctx with
    | none => exact s.frame_refl _
    | some ctx => exact s.frame_setHost _ rfl

theorem running_frame (s : Live) (pid : Int32) (p : Task) (now : UInt64) :
    Frame s .starts (s.running ro pid p now) := by
  have hstarts : ∀ s' : Live, Waits s s' → s'.sched.core = s.sched.core →
      s'.enabled = s.enabled → s'.userschedNeeded = s.userschedNeeded → Frame s .starts s' :=
    fun s' hwaits hcore henabled hneeded => ⟨fun _ => ⟨hwaits, hcore⟩, fun _ => henabled,
      fun h => absurd rfl h, fun h => absurd rfl h, fun _ => hneeded⟩
  rw [running]
  split_ifs
  · exact hstarts _ ⟨rfl, rfl, rfl, rfl, rfl⟩ rfl rfl rfl
  · cases p.ctx <;> exact hstarts _ ⟨rfl, rfl, rfl, rfl, rfl⟩ rfl rfl rfl

theorem stopping_frame (s : Live) (pid : Int32) (p : Task) (now : UInt64) :
    Frame s .stops (s.stopping ro pid p now) := by
  rw [stopping]
  split_ifs
  · exact s.frame_refl _
  · cases p.ctx <;> exact ⟨fun _ => ⟨⟨rfl, rfl, rfl, rfl, rfl⟩, rfl⟩, fun _ => rfl,
      fun _ h => absurd rfl h, fun _ => rfl, fun _ => rfl⟩

theorem timer_frame (s : Live) (now : UInt64) : Frame s .flag (s.timer ro now) := by
  rw [timer]
  split_ifs
  · cases s.kernel.tasks ro.userschedPid with
    | none => exact s.frame_refl _
    | some p => exact ⟨fun _ => ⟨⟨rfl, rfl, rfl, rfl, rfl⟩, rfl⟩, fun _ => rfl, fun _ _ => rfl,
        fun _ => rfl, fun h => absurd rfl h⟩
  · exact s.frame_refl _

theorem finish_frame (s : Live) (cpu : Int32) (prev : Option (Int32 × Bool)) :
    Frame s .flag (s.finish ro cpu prev) where
  waits _ := ⟨(aside_setHost s _).toWaits, congrArg (·.2) (s.toHost.afterDrain_core cpu _ prev)⟩
  enabled _ := rfl
  nrRunning _ _ := rfl
  lastRun _ := rfl
  needed h := absurd rfl h

theorem leave_frame (s : Live) (cpu : Int32) (prev : Option (Int32 × Bool)) :
    Frame s .flag (s.leave ro cpu prev) := by
  rw [leave]
  split
  · exact s.frame_refl _
  · next drain hdrain =>
    split_ifs
    · have hfinish : Frame (s.flushed drain) .flag ((s.flushed drain).finish ro cpu prev) :=
        (s.flushed drain).finish_frame cpu prev
      refine ⟨fun h => ?_, hfinish.enabled, hfinish.nrRunning, hfinish.lastRun, hfinish.needed⟩
      obtain ⟨⟨hphase, hread, hsettled, hrefused, hpasses⟩, hcore⟩ := hfinish.waits h
      exact ⟨⟨hphase, hread, hsettled, hrefused, hpasses⟩, hcore⟩
    · exact s.frame_refl _

theorem step_frame (ro : Rodata) (s : Live) (event : Event) :
    Frame s event.part (s.step ro event) := by
  cases event with
  | user error granted =>
    have hframe := s.user_frame (s.answers error granted)
    exact ⟨fun h => absurd rfl h, fun _ => hframe.enabled, fun _ _ => hframe.nrRunning,
      fun _ => hframe.userschedLastRunAt, fun _ => hframe.userschedNeeded⟩
  | initTask pid p => exact s.frame_change _
  | exit pid => exact s.frame_change _
  | enable pid => exact s.frame_change _
  | disable pid => exact s.frame_change _
  | update pid cpu cpusPtr slice =>
    rw [step]
    split
    · exact s.frame_refl _
    · exact ⟨fun _ => ⟨⟨rfl, rfl, rfl, rfl, rfl⟩, rfl⟩, fun _ => rfl, fun _ _ => rfl,
        fun _ => rfl, fun _ => rfl⟩
  | runnable pid =>
    rw [step]
    split
    · exact s.frame_refl _
    · exact s.runnable_frame pid _
  | running pid now =>
    rw [step]
    split
    · exact s.frame_refl _
    · exact s.running_frame pid _ now
  | stopping pid now =>
    rw [step]
    split
    · exact s.frame_refl _
    · exact s.stopping_frame pid _ now
  | timer now => exact s.timer_frame now
  | selectCpu pid thisCpu prevCpu idle =>
    rw [step]
    split
    · exact s.frame_refl _
    · exact s.frame_setHost _ (Host.selectCpu_core _ _ _ _ _ _)
  | enqueue pid flags facts =>
    rw [step]
    split
    · exact s.frame_refl _
    · exact s.frame_setHost _ (Host.enqueue_core _ _ _ _ _)
  | dequeue pid => exact s.frame_setHost _ rfl
  | enter c =>
    rw [step, enter]
    split
    · exact s.frame_refl _
    · exact ⟨fun _ => ⟨⟨rfl, rfl, rfl, rfl, rfl⟩, rfl⟩, fun _ => rfl, fun _ _ => rfl,
        fun _ => rfl, fun _ => rfl⟩
  | handOver idleCpu =>
    rw [step, handOver]
    split
    · split_ifs
      · exact s.frame_refl _
      · exact ⟨fun _ => ⟨⟨rfl, rfl, rfl, rfl, rfl⟩, rfl⟩, fun _ => rfl, fun _ _ => rfl,
          fun _ => rfl, fun _ => rfl⟩
    · exact s.frame_refl _
  | leave cpu prev => exact s.leave_frame cpu prev
  | bypass cpu prev =>
    rw [step, bypass]
    split
    · exact s.frame_refl _
    · exact s.finish_frame cpu prev

/-- Nobody else touches what user space knows. -/
theorem step_waits (ro : Rodata) (s : Live) {event : Event}
    (h : ∀ error granted, event ≠ .user error granted) :
    Waits s (s.step ro event) ∧ (s.step ro event).sched.core = s.sched.core := by
  refine (s.step_frame ro event).waits ?_
  cases event with
  | user error granted => exact absurd rfl (h error granted)
  | _ => simp [Event.part]

end Live

end CerynthOS.Scx
