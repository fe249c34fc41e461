import CerynthOS.Scx.Queues

/-! The order of dispatch is the order of execution.

    User space sends its order as a list of records, and the kernel's queues are ordered by virtual
    time. The two agree because every virtual time is zero: that of a record always is, that of a
    task under the scheduler is set to zero when it joins, and afterwards only insertions write it. -/

namespace CerynthOS.Scx
open Kernel

variable {ro : Rodata} {rings : Rings} {around : Surroundings} {env : Env}

/-! ### Tasks -/

/-- The tasks under the scheduler have virtual time zero. -/
def Clean (enabled : Int32 → Bool) (tasks : Tasks) : Prop :=
  ∀ pid p, tasks pid = some p → enabled pid = true → p.dsqVtime = 0

variable {enabled : Int32 → Bool} {tasks : Tasks}

theorem Clean.update (h : Clean enabled tasks) {pid : Int32} {p : Task}
    (hp : enabled pid = true → p.dsqVtime = 0) :
    Clean enabled (Function.update tasks pid (some p)) := by
  intro pid' p' hp' hen
  by_cases heq : pid' = pid
  · rw [heq, Function.update_self] at hp'
    rw [← Option.some.inj hp']
    exact hp (heq ▸ hen)
  · rw [Function.update_of_ne heq] at hp'
    exact h pid' p' hp' hen

/-- Whatever happens to a task, it is clean as long as it is under the scheduler. -/
theorem clean_change (h : Clean enabled tasks) (change : Change) :
    Clean (change.enabled enabled) (change.apply ro tasks) := by
  intro pid' p' hp' hen
  have hother : ∀ {pid : Int32} {o : Option Task} {b : Bool}, pid' ≠ pid →
      Function.update tasks pid o pid' = some p' → Function.update enabled pid b pid' = true →
      p'.dsqVtime = 0 := by
    intro pid o b hne hp hb
    rw [Function.update_of_ne hne] at hp hb
    exact h pid' p' hp hb
  cases change with
  | fork pid p =>
    by_cases heq : pid' = pid
    · rw [Change.enabled, heq, Function.update_self] at hen
      cases hen
    · exact hother heq hp' hen
  | exit pid =>
    by_cases heq : pid' = pid
    · rw [Change.enabled, heq, Function.update_self] at hen
      cases hen
    · exact hother heq hp' hen
  | enable pid =>
    by_cases heq : pid' = pid
    · rw [Change.apply, heq, Function.update_self] at hp'
      obtain ⟨p, -, rfl⟩ := Option.map_eq_some_iff.mp hp'
      rfl
    · exact hother heq hp' hen
  | disable pid =>
    by_cases heq : pid' = pid
    · rw [Change.enabled, heq, Function.update_self] at hen
      cases hen
    · rw [Change.enabled, Function.update_of_ne heq] at hen
      exact h pid' p' hp' hen
  | update pid cpu cpusPtr slice ctx =>
    by_cases heq : pid' = pid
    · rw [Change.apply, heq, Function.update_self] at hp'
      obtain ⟨p, hp, rfl⟩ := Option.map_eq_some_iff.mp hp'
      rw [Change.enabled, heq] at hen
      exact h pid p hp hen
    · rw [Change.apply, Function.update_of_ne heq] at hp'
      exact h pid' p' hp' hen

theorem clean_changes (h : Clean enabled tasks) (changes : List Change) :
    Clean (changes.foldl Change.enabled enabled) (changes.foldl (Change.apply ro) tasks) := by
  induction changes generalizing enabled tasks with
  | nil => exact h
  | cons change changes ih => exact ih (clean_change h change)

/-- The tasks of a kernel are clean, whoever is under the scheduler by now. -/
def CleanKernel (around : Surroundings) (k : Kernel) : Prop :=
  Clean (around.enabledAt k.tick) k.tasks

theorem CleanKernel.elapse {k : Kernel} (h : CleanKernel around k) :
    CleanKernel around (k.elapse (around.env ro)) := clean_changes h _

/-- A record with virtual time zero leaves the tasks clean. -/
theorem CleanKernel.callback {k : Kernel} (h : CleanKernel around k) {task : DispatchedTask}
    (ht : task.vtime = 0) : CleanKernel around (Kernel.callback (around.env ro) task k).2 := by
  have hclean : CleanKernel around (k.elapse (around.env ro)) := h.elapse
  have htasks := dispatchTask_tasks (around.env ro) (k.elapse (around.env ro)) task
  have htick : (Kernel.callback (around.env ro) task k).2.tick = (k.elapse (around.env ro)).tick :=
    callback_tick _ _ _
  rw [CleanKernel, htick]
  change Clean _ ((k.elapse (around.env ro)).dispatchTask (around.env ro) task).tasks
  rw [htasks]
  cases (k.elapse (around.env ro)).tasks task.pid with
  | none => exact hclean
  | some p => exact hclean.update fun _ => ht

theorem CleanKernel.through {k : Kernel} (h : CleanKernel around k) {tasks : List DispatchedTask}
    (ht : ∀ task ∈ tasks, task.vtime = 0) :
    CleanKernel around (RingBuffer.through (Kernel.callback (around.env ro)) tasks k) := by
  induction tasks generalizing k with
  | nil => exact h
  | cons task tasks ih =>
    rw [RingBuffer.through_cons]
    exact ih (h.callback (ht task List.mem_cons_self)) fun t hm =>
      ht t (List.mem_cons_of_mem _ hm)

/-! ### Queues -/

/-- The records of two entries, if both have one, are in order. -/
def Entry.Earlier (e e' : Entry) : Prop :=
  ∀ i j, e.record = some i → e'.record = some j → i < j

/-- All virtual times are zero, so that the queue is first in, first out; and the entries that user
    space sent, all from before place `n` of the ring, have arrived in the order of their records. -/
structure InOrder (n : ℕ) (q : KeyQueue Entry) : Prop where
  fifo : KeyQueue.Fifo Entry.vtime 0 q
  records : q.arrived.Pairwise Entry.Earlier
  bound : ∀ e ∈ q.arrived, ∀ i, e.record = some i → i < n

variable {n m : ℕ} {q : KeyQueue Entry}

theorem InOrder.mono (h : InOrder n q) (hnm : n ≤ m) : InOrder m q where
  fifo := h.fifo
  records := h.records
  bound e he i hi := (h.bound e he i hi).trans_le hnm

theorem inOrder_empty : InOrder n .empty where
  fifo := KeyQueue.fifo_empty
  records := .nil
  bound _ h := absurd h List.not_mem_nil

theorem InOrder.insert (h : InOrder n q) {e : Entry} (hv : e.vtime = 0) (hnm : n ≤ m)
    (hrecord : ∀ i, e.record = some i → n ≤ i ∧ i < m) : InOrder m (q.insert Entry.vtime e) where
  fifo := h.fifo.insert hv
  records := by
    refine List.pairwise_append.mpr ⟨h.records, List.pairwise_singleton _ _, ?_⟩
    intro e' he' e'' he'' i j hi hj
    rw [List.mem_singleton.mp he''] at hj
    have := h.bound e' he' i hi
    have := (hrecord j hj).1
    omega
  bound e' he' i hi := by
    rcases List.mem_append.mp he' with he' | he'
    · exact (h.bound e' he' i hi).trans_le hnm
    · rw [List.mem_singleton.mp he'] at hi
      exact (hrecord i hi).2

theorem InOrder.take (h : InOrder n q) {e : Entry} {q' : KeyQueue Entry}
    (ht : q.take = some (e, q')) : InOrder n q' := by
  have harrived : q'.arrived = q.arrived := by
    obtain ⟨waiting, arrived, taken, left⟩ := q
    cases waiting with
    | nil => cases ht
    | cons x rest =>
      obtain ⟨-, rfl⟩ := Prod.mk.inj (Option.some.inj ht)
      rfl
  exact ⟨h.fifo.take ht, by rw [harrived]; exact h.records, by rw [harrived]; exact h.bound⟩

theorem InOrder.remove (h : InOrder n q) (p : Entry → Bool) : InOrder n (q.remove p) :=
  ⟨h.fifo.remove p, h.records, h.bound⟩

/-- All queues but the scheduler's own are in order. -/
def QueuesInOrder (n : ℕ) (dsq : Queues) : Prop := ∀ d, d ≠ schedDsq → InOrder n (dsq d)

variable {dsq : Queues}

theorem QueuesInOrder.mono (h : QueuesInOrder n dsq) (hnm : n ≤ m) : QueuesInOrder m dsq :=
  fun d hd => (h d hd).mono hnm

theorem QueuesInOrder.update (h : QueuesInOrder n dsq) (d : UInt64) {q : KeyQueue Entry}
    (hq : d ≠ schedDsq → InOrder n q) : QueuesInOrder n (Function.update dsq d q) := by
  intro d' hd'
  by_cases heq : d' = d
  · rw [heq, Function.update_self]
    exact hq (heq ▸ hd')
  · rw [Function.update_of_ne heq]
    exact h d' hd'

theorem QueuesInOrder.insert (h : QueuesInOrder n dsq) (d : UInt64) {e : Entry} (hv : e.vtime = 0)
    (hnm : n ≤ m) (hrecord : ∀ i, e.record = some i → n ≤ i ∧ i < m) :
    QueuesInOrder m (Function.update dsq d ((dsq d).insert Entry.vtime e)) :=
  (h.mono hnm).update d fun hd => (h d hd).insert hv hnm hrecord

/-- A flush of the entries of records with virtual time zero keeps the queues in order. -/
theorem QueuesInOrder.flushTo {handovers : List (Tasks × DispatchedTask)}
    (h : QueuesInOrder n dsq) (hv : ∀ handover ∈ handovers, handover.2.vtime = 0) :
    QueuesInOrder (n + handovers.length) (flushTo dsq (entriesFrom n handovers)) := by
  induction handovers generalizing n dsq with
  | nil => exact h
  | cons handover handovers ih =>
    have hrest := fun h' hm => hv h' (List.mem_cons_of_mem handover hm)
    have hlen : n + (handover :: handovers).length = n + 1 + handovers.length := by
      rw [List.length_cons]
      omega
    rw [hlen, entriesFrom]
    cases hp : placed handover with
    | none => exact ih (h.mono (Nat.le_succ n)) hrest
    | some i =>
      obtain ⟨p, -, rfl⟩ := Option.map_eq_some_iff.mp hp
      have hzero : Entry.vtime ⟨insertion p handover.2, some n⟩ = 0 := by
        rw [Entry.vtime, insertion, hv handover List.mem_cons_self]
        rfl
      refine ih (h.insert _ hzero (Nat.le_succ n) fun j hj => ?_) hrest
      obtain rfl := Option.some.inj hj
      omega

theorem entriesFrom_insertions (n : ℕ) (handovers : List (Tasks × DispatchedTask)) :
    (entriesFrom n handovers).map Entry.insertion = handovers.filterMap placed := by
  induction handovers generalizing n with
  | nil => rfl
  | cons handover handovers ih =>
    rw [entriesFrom]
    cases hp : placed handover with
    | none => rw [List.filterMap_cons_none hp, ih]
    | some i => rw [List.filterMap_cons_some hp, List.map_cons, ih]

/-- The entries of a drain are what its dispatch buffer sends to the queues. -/
theorem Host.drain_entries (env : Env) (s : Host) (c : ℕ+) : (s.drain env c).kernel.inserted =
    s.kernel.inserted ++ (entriesFrom s.ring.consumed
      (s.kernel.drainHandovers env c s.ring)).map Entry.insertion := by
  rw [entriesFrom_insertions]
  exact drain_inserted env c s.ring s.kernel

/-! ### The host -/

/-- The tasks under the scheduler and the records on the ring have virtual time zero, and the queues
    are in order. -/
structure Ordered (around : Surroundings) (s : Host) : Prop where
  clean : CleanKernel around s.kernel
  records : ∀ task ∈ s.ring.records, task.vtime = 0
  queues : QueuesInOrder s.ring.consumed s.dsq

namespace Ordered

variable {s s' : Host} {pid cpu : Int32} {p : Task}

/-- What else changes does not matter. -/
theorem congr (h : Ordered around s) (htasks : s'.kernel.tasks = s.kernel.tasks)
    (htick : s'.kernel.tick = s.kernel.tick) (hring : s'.ring = s.ring) (hdsq : s'.dsq = s.dsq) :
    Ordered around s' := by
  refine ⟨?_, ?_, ?_⟩
  · rw [CleanKernel, htasks, htick]
    exact h.clean
  · rw [hring]
    exact h.records
  · rw [hring, hdsq]
    exact h.queues

theorem setTask (h : Ordered around s) (pid : Int32) (hp : p.dsqVtime = 0) :
    Ordered around (s.setTask pid p) :=
  ⟨h.clean.update fun _ => hp, h.records, h.queues⟩

theorem setDsq (h : Ordered around s) (d : UInt64) {q : KeyQueue Entry}
    (hq : d ≠ schedDsq → InOrder s.ring.consumed q) : Ordered around (s.setDsq d q) :=
  ⟨h.clean, h.records, h.queues.update d hq⟩

theorem dsqInsertVtime (h : Ordered around s) (pid : Int32) (p : Task)
    (dsq sliceNs : UInt64) {vtime : UInt64} (flags : UInt64) (hv : vtime = 0) :
    Ordered around (s.dsqInsertVtime pid p dsq sliceNs vtime flags) := by
  refine (h.setTask pid hv).setDsq dsq fun hd => ?_
  refine (h.queues dsq hd).insert ?_ le_rfl fun i hi => by cases hi
  rw [Entry.vtime, hv]
  rfl

theorem dsqInsert (h : Ordered around s) (pid : Int32) (hp : p.dsqVtime = 0)
    (sliceNs flags : UInt64) : Ordered around (s.dsqInsert pid p schedDsq sliceNs flags) :=
  (h.setTask pid (p := { p with slice := sliceAfter sliceNs p.slice }) hp).setDsq schedDsq
    fun hd => absurd rfl hd

theorem dsqMoveToLocal (h : Ordered around s) {d : UInt64}
    (hs : s.dsqMoveToLocal d = some s') : Ordered around s' := by
  obtain ⟨⟨e, q⟩, ht, rfl⟩ := Option.map_eq_some_iff.mp hs
  exact h.setDsq d fun hd => (h.queues d hd).take ht

theorem cpuToDsq (h : Ordered around s) (cpu : Int32) :
    Ordered around (s.setKernel (s.kernel.cpuToDsq cpu).2) :=
  h.congr (cpuToDsq_tasks _ _) (congrArg (·.2.2.2) (cpuToDsq_frame s.kernel cpu)) rfl rfl

theorem canDirectDispatch (h : Ordered around s) (cpu : Int32) :
    Ordered around (s.canDirectDispatch cpu).2 := by
  rw [Host.canDirectDispatch]
  split_ifs
  · exact h.cpuToDsq cpu
  · exact h

theorem directDispatch (h : Ordered around s) (pid : Int32) (hp : p.dsqVtime = 0) (cpu : Int32)
    (flags : UInt64) : Ordered around (s.directDispatch ro pid p cpu flags) :=
  ((h.cpuToDsq cpu).dsqInsertVtime pid p _ _ flags hp).congr rfl rfl rfl rfl

theorem kickIf (h : Ordered around s) (wakeup : Bool) (cpu : Int32) :
    Ordered around (s.kickIf wakeup cpu) := by
  cases wakeup
  · exact h
  · exact h.congr rfl rfl rfl rfl

theorem selectCpu (h : Ordered around s) (pid : Int32) (hp : p.dsqVtime = 0)
    (thisCpu prevCpu idle : Int32) :
    Ordered around (s.selectCpu ro pid p thisCpu prevCpu idle).2 := by
  have hdirect := h.canDirectDispatch idle
  simp only [Host.selectCpu]
  by_cases husched : pid = ro.userschedPid
  · rwa [if_pos husched]
  · rw [if_neg husched]
    by_cases hbuiltin : (!ro.builtinIdle) = true
    · rwa [if_pos hbuiltin]
    · rw [if_neg hbuiltin]
      by_cases hidle : idle ≥ 0
      · rw [if_pos hidle]
        dsimp only
        split_ifs
        · exact hdirect.directDispatch pid hp idle 0
        · exact hdirect
      · rwa [if_neg hidle]

theorem queueTaskToUserspace (h : Ordered around s) (pid : Int32) (hp : p.dsqVtime = 0)
    (prevCpu : Int32) (flags : UInt64) (facts : EnqueueFacts) :
    Ordered around (s.queueTaskToUserspace ro pid p prevCpu flags facts) := by
  rw [Host.queueTaskToUserspace]
  cases p.ctx with
  | none => exact h
  | some ctx =>
    dsimp only
    split_ifs
    · have h' : Ordered around { s with nrSchedCongested := s.nrSchedCongested + 1 } :=
        h.congr rfl rfl rfl rfl
      exact (h'.dsqInsertVtime pid p sharedDsq _ flags hp).congr rfl rfl rfl rfl
    · have h' := h.setTask pid (p := { p with ctx := some { ctx with enqCnt := ctx.enqCnt + 1 } }) hp
      exact h'.congr rfl rfl rfl rfl

theorem enqueue (h : Ordered around s) (pid : Int32) (hp : p.dsqVtime = 0) (flags : UInt64)
    (facts : EnqueueFacts) : Ordered around (s.enqueue ro pid p flags facts) := by
  have hdirect := h.canDirectDispatch facts.idle
  rw [Host.enqueue]
  split_ifs
  · exact (h.dsqInsert pid hp _ flags).kickIf _ _
  · exact (h.directDispatch pid hp _ flags).kickIf _ _
  · exact (h.queueTaskToUserspace pid hp _ flags facts).kickIf _ _
  · exact (h.queueTaskToUserspace pid hp _ flags facts).kickIf _ _
  · -- the idle CPU is not allowed any more
    dsimp only
    split_ifs
    · exact (hdirect.queueTaskToUserspace pid hp _ flags facts).kickIf _ _
    · exact hdirect.kickIf _ _
  · dsimp only
    split_ifs
    · exact (hdirect.queueTaskToUserspace pid hp _ flags facts).kickIf _ _
    · exact (hdirect.directDispatch pid hp _ flags).kickIf _ _

theorem userschedHasPendingTasks (h : Ordered around s) (avail : Bool) :
    Ordered around (s.userschedHasPendingTasks avail).2 := h.congr rfl rfl rfl rfl

/-- A task that is under the scheduler has virtual time zero. -/
theorem enabledTask_vtime (h : Ordered around s) (hp : s.enabledTask around pid = some p) :
    p.dsqVtime = 0 := by
  rw [Host.enabledTask] at hp
  split_ifs at hp with hen
  exact h.clean pid p hp hen

/-- The slice of a task may change. -/
theorem setSlice {p : Task} {slice : UInt64} (h : Ordered around s)
    (hp : s.kernel.tasks pid = some p) : Ordered around (s.setTask pid { p with slice }) :=
  ⟨h.clean.update fun hen => h.clean pid p hp hen, h.records, h.queues⟩

theorem replenish (h : Ordered around s) (avail : Bool) (prev : Option (Int32 × Bool)) :
    Ordered around (s.replenish ro avail prev) := by
  cases prev with
  | none => exact h
  | some prev =>
    obtain ⟨pid, queued⟩ := prev
    cases queued with
    | false => exact h
    | true =>
      simp only [Host.replenish, if_true]
      by_cases husched : pid = ro.userschedPid
      · rw [if_pos husched]
        have h' := h.userschedHasPendingTasks avail
        split
        · next p hp =>
          split_ifs
          · exact h'.setSlice hp
          · exact h'
        · exact h'
      · rw [if_neg husched]
        split
        · next p hp => exact h.setSlice hp
        · exact h

/-- A drain takes the records it hands over off the ring. -/
theorem drain_consumed (s : Host) (c : ℕ+) : (s.drain env c).ring.consumed =
    s.ring.consumed + (s.kernel.drainHandovers env c s.ring).length := by
  have hlen : (s.kernel.drainHandovers env c s.ring).length = s.kernel.drainCount env c s.ring := by
    rw [← List.length_map (·.2), drainHandovers, handovers_records, List.length_take]
    exact Nat.min_eq_left (RingBuffer.feed_le _ _ _)
  rw [hlen]
  rfl

theorem drain (h : Ordered around s) (c : ℕ+) : Ordered around (s.drain (around.env ro) c) := by
  have hpending : ∀ task ∈ s.ring.pending, task.vtime = 0 :=
    fun task ht => h.records task (List.mem_of_mem_drop ht)
  refine ⟨?_, h.records, ?_⟩
  · have hthrough : CleanKernel around (RingBuffer.through (Kernel.callback (around.env ro))
        (s.ring.pending.take (s.kernel.drainCount (around.env ro) c s.ring))
        (s.kernel.enter c)) :=
      CleanKernel.through (show CleanKernel around (s.kernel.enter c) from h.clean)
        fun task ht => hpending task (List.mem_of_mem_take ht)
    have hkernel : (s.drain (around.env ro) c).kernel = (RingBuffer.through
        (Kernel.callback (around.env ro))
        (s.ring.pending.take (s.kernel.drainCount (around.env ro) c s.ring))
        (s.kernel.enter c)).flush :=
      congrArg Kernel.flush (RingBuffer.drain_state _ _ _)
    rw [hkernel]
    exact hthrough
  · rw [drain_consumed]
    refine h.queues.flushTo fun handover hm => ?_
    exact h.records _ (System.turnHandovers_records (around.env ro) (.dispatch c) hm)

theorem dispatch (h : Ordered around s) (cpu : Int32) (c : ℕ+) (avail : Bool)
    (prev : Option (Int32 × Bool)) :
    Ordered around (s.dispatch ro (around.env ro) cpu c avail prev) := by
  have hdrain : Ordered around ((s.drain (around.env ro) c).userschedHasPendingTasks avail).2 :=
    (h.drain c).userschedHasPendingTasks avail
  simp only [Host.dispatch, Host.afterDrain]
  split
  · next s' hs =>
    split_ifs at hs
    exact hdrain.dsqMoveToLocal hs
  · have hcpu := hdrain.cpuToDsq cpu
    split
    · next s' hs => exact hcpu.dsqMoveToLocal hs
    · cases hs : Host.dsqMoveToLocal _ sharedDsq with
      | some s' => exact hcpu.dsqMoveToLocal hs
      | none => exact hcpu.replenish avail prev

theorem pass (h : Ordered around s) :
    Ordered around { s with sched := s.sched.dispatchTasks rings } := by
  obtain ⟨batch, -, -, hrecords, -⟩ := Scheduler.dispatchTasks_spec rings s.sched
  refine ⟨h.clean, fun task ht => ?_, ?_⟩
  · have ht' : task ∈ (s.sched.dispatchTasks rings).bpf.dispatched.records := ht
    rw [hrecords, List.mem_append] at ht'
    rcases ht' with hold | hnew
    · exact h.records task hold
    · obtain ⟨queued, -, rfl⟩ := List.mem_map.mp hnew
      rfl
  · have hconsumed := Scheduler.dispatchTasks_consumed rings s.sched
    exact h.queues.mono hconsumed.ge

theorem step (h : Ordered around s) (event : Host.Event) :
    Ordered around (s.step ro rings around event) := by
  have helapse : Ordered around (s.elapse ro around) := ⟨h.clean.elapse, h.records, h.queues⟩
  cases event with
  | pass => exact h.pass
  | timer => exact h.congr rfl rfl rfl rfl
  | selectCpu pid thisCpu prevCpu idle =>
    rw [Host.step]
    split
    · next p hp => exact helapse.selectCpu pid (helapse.enabledTask_vtime hp) _ _ _
    · exact helapse
  | enqueue pid flags facts =>
    rw [Host.step]
    split
    · next p hp => exact helapse.enqueue pid (helapse.enabledTask_vtime hp) flags facts
    · exact helapse
  | dequeue pid => exact ⟨h.clean, h.records, fun d hd => (h.queues d hd).remove _⟩
  | dispatch cpu c avail prev => exact helapse.dispatch cpu c avail prev

theorem run (h : Ordered around s) (events : List Host.Event) :
    Ordered around (s.run ro rings around events) := by
  induction events generalizing s with
  | nil => exact h
  | cons event events ih => exact ih (h.step event)

end Ordered

/-! ### From the order of a batch to the order of execution -/

theorem ordered_boot (pid : UInt32) (startedAtMs : UInt64) (profile : Profile) (tasks : Tasks) :
    Ordered around (Host.boot pid startedAtMs profile tasks) where
  clean _ _ _ hen := by cases hen
  records _ h := absurd h List.not_mem_nil
  queues _ _ := inOrder_empty

/-- The pass that comes next sends this task as record `i` of the ring; `sooner` are the tasks before
    it in the order of the batch. -/
structure Sends (rings : Rings) (s : Host) (sooner : List QueuedTask) (task : QueuedTask) (i : ℕ) :
    Prop where
  ordered : ∃ later, orderTasks s.sched.profile (s.sched.dequeueBatch rings maxBatch).2 =
    sooner ++ task :: later
  reserved : rings.reserve (s.sched.bpf.reserveCalls + sooner.length) = true
  place : i = s.ring.records.length + (rings.granted s.sched.bpf.reserveCalls sooner).length

theorem Sends.record {s : Host} {sooner : List QueuedTask} {task : QueuedTask} {i : ℕ}
    (h : Sends rings s sooner task i) :
    (s.step ro rings around .pass).ring.records[i]? = some (.new task) := by
  obtain ⟨⟨later, hordered⟩, hreserved, rfl⟩ := h
  have hrecords := Scheduler.dispatchTasks_records rings s.sched
  have hsent : rings.granted s.sched.bpf.reserveCalls (sooner ++ task :: later) =
      rings.granted s.sched.bpf.reserveCalls sooner ++
        task :: rings.granted (s.sched.bpf.reserveCalls + sooner.length + 1) later := by
    rw [Rings.granted_append, Rings.granted, if_pos hreserved]
  rw [hordered, hsent, List.map_append, List.map_cons] at hrecords
  change (s.sched.dispatchTasks rings).bpf.dispatched.records[
    s.sched.bpf.dispatched.records.length + _]? = _
  rw [hrecords, List.getElem?_append_right (Nat.le_add_right _ _), Nat.add_sub_cancel_left,
    List.getElem?_append_right (by rw [List.length_map])]
  simp

/-- Of two tasks that a pass sends, the one that comes first has the earlier record. -/
theorem Sends.lt {s : Host} {sooner between : List QueuedTask} {x y : QueuedTask} {i j : ℕ}
    (hx : Sends rings s sooner x i) (hy : Sends rings s (sooner ++ x :: between) y j) : i < j := by
  obtain ⟨-, hreserved, rfl⟩ := hx
  obtain ⟨-, -, rfl⟩ := hy
  rw [Rings.granted_append, Rings.granted, if_pos hreserved, List.length_append, List.length_cons]
  omega

/-- In every reachable state, what waits in the queues was inserted with virtual time zero, and the
    queues are taken in the order of insertion. So two tasks that a pass has ordered and sent, and
    that arrived in one queue, are taken in the order of the pass, unless the first has left. -/
theorem executed_in_order (ro : Rodata) (rings : Rings) (around : Surroundings) (pid : UInt32)
    (startedAtMs : UInt64) (profile : Profile) (tasks : Tasks) (events : List Host.Event) :
    let s := (Host.boot pid startedAtMs profile tasks).run ro rings around events
    (∀ d, d ≠ schedDsq → (∀ e ∈ (s.dsq d).waiting, e.insertion.vtime = 0) ∧
      ((s.dsq d).taken ++ (s.dsq d).waiting).Sublist (s.dsq d).arrived) ∧
    ∀ sooner x between y i j, Sends rings s sooner x i →
      Sends rings s (sooner ++ x :: between) y j →
      (s.step ro rings around .pass).ring.records[i]? = some (.new x) ∧
      (s.step ro rings around .pass).ring.records[j]? = some (.new y) ∧
      ∀ later d, d ≠ schedDsq →
        let q := ((s.step ro rings around .pass).run ro rings around later).dsq d
        ∀ ex ∈ q.arrived, ∀ ey ∈ q.arrived, ex.record = some i → ey.record = some j →
          ey ∈ q.taken → ex ∈ q.left ∨ ∃ l₁ l₂, q.taken = l₁ ++ ey :: l₂ ∧ ex ∈ l₁ := by
  intro s
  have hs : Ordered around s := (ordered_boot pid startedAtMs profile tasks).run events
  refine ⟨fun d hd => ⟨fun e he => ?_, (hs.queues d hd).fifo.order⟩, ?_⟩
  · exact UInt64.toNat_inj.mp ((hs.queues d hd).fifo.keys e he)
  · intro sooner x between y i j hx hy
    refine ⟨hx.record, hy.record, ?_⟩
    intro later d hd q ex hex ey hey hxi hyj htaken
    have hlt : i < j := hx.lt hy
    have hq : InOrder _ q := ((hs.step .pass).run later).queues d hd
    refine hq.fifo.taken_before hq.records (fun hyx => ?_) (fun heq => ?_) hex htaken
    · have := hyx j i hyj hxi
      omega
    · rw [heq, hyj] at hxi
      have := Option.some.inj hxi
      omega

/-! ### Two tasks on one CPU -/

/-- The record of a task that is queued on CPU 0. -/
def queuedTask (pid : Int32) : QueuedTask where
  pid := pid
  cpu := 0
  nrCpusAllowed := 4
  flags := 0
  startTs := 0
  stopTs := 0
  execRuntime := 0
  weight := 100
  vtime := 0
  enqCnt := 1
  comm := .replicate 16 0

/-- The queued ring holds two tasks. -/
def twoTasks : Rings where
  consume
    | 0 => .record (queuedTask 1201)
    | 1 => .record (queuedTask 1202)
    | _ => .empty
  reserve _ := true

/-- Both join the scheduler, one of them with a virtual time from elsewhere. -/
def twoJoin : Surroundings where
  changes
    | 0 => [.fork 1201 ⟨0, fun _ => true, 0, 77, some ⟨0, 0, 0, 1⟩⟩, .enable 1201,
      .fork 1202 ⟨0, fun _ => true, 0, 0, some ⟨0, 0, 0, 1⟩⟩, .enable 1202]
    | _ => []
  idleCpu _ _ := -1

def balancedRodata : Rodata := ⟨false, 5000000, 900, 0⟩

/-- The first task of the batch is taken first. -/
theorem twoTasks_in_order :
    let q := (((Host.boot 900 0 .balanced fun _ => none).step balancedRodata twoTasks twoJoin
      .pass).run balancedRodata twoTasks twoJoin
        [.dispatch 0 ⟨2, by decide⟩ false none, .dispatch 0 ⟨1, by decide⟩ false none]).dsq 0
    (⟨⟨1201, 0, 5000000, 0, 0⟩, some 0⟩ : Entry) ∈ q.left ∨
      ∃ l₁ l₂, q.taken = l₁ ++ ⟨⟨1202, 0, 5000000, 0, 0⟩, some 1⟩ :: l₂ ∧
        (⟨⟨1201, 0, 5000000, 0, 0⟩, some 0⟩ : Entry) ∈ l₁ := by
  have hx : Sends twoTasks (Host.boot 900 0 .balanced fun _ => none) [] (queuedTask 1201) 0 :=
    ⟨⟨[queuedTask 1202], rfl⟩, rfl, rfl⟩
  have hy : Sends twoTasks (Host.boot 900 0 .balanced fun _ => none) [queuedTask 1201]
      (queuedTask 1202) 1 := ⟨⟨[], rfl⟩, rfl, rfl⟩
  exact ((executed_in_order balancedRodata twoTasks twoJoin 900 0 .balanced (fun _ => none)
    []).2 [] _ [] _ 0 1 hx hy).2.2 _ 0 (by decide) _ (by decide) _ (by decide) rfl rfl (by decide)

end CerynthOS.Scx
