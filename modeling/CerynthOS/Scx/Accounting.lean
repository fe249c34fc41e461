import CerynthOS.Schemes.History
import CerynthOS.Scx.Steps

/-! The books of a task.

    The kernel tells the scheduler when a task becomes runnable and when it gets and gives up a CPU.
    From this a timeline of the task can be read; the context of the task sums it up, and every
    record for user space carries the sum. What the kernel promises is the order of these callbacks
    for one task, and that its clock does not run backwards while the task runs. -/

namespace CerynthOS.Scx
open Kernel

/-- The times at which a task got and gave up a CPU, since it was created. The first `slept` runs are
    those before it last became runnable; `started` is when the current one began. -/
structure Timeline where
  runs : List (UInt64 × UInt64)
  slept : ℕ
  started : Option UInt64

namespace Timeline

def empty : Timeline := ⟨[], 0, none⟩

/-- When the task last got a CPU. -/
def lastStart (line : Timeline) : UInt64 :=
  line.started.getD ((line.runs.getLast?.map (·.1)).getD 0)

/-- When the task last gave up a CPU. -/
def lastStop (line : Timeline) : UInt64 := (line.runs.getLast?.map (·.2)).getD 0

/-- How long the task has run since it last became runnable, up to its last stop. -/
def runtime (line : Timeline) : ℕ :=
  ((line.runs.drop line.slept).map fun run => run.2.toNat - run.1.toNat).sum

/-- What the books should say. -/
def book (line : Timeline) : UInt64 × UInt64 × UInt64 :=
  (line.lastStart, line.lastStop, .ofNat line.runtime)

theorem book_runnable {line : Timeline} :
    ({ line with slept := line.runs.length } : Timeline).book =
      (line.lastStart, line.lastStop, 0) := by
  simp [book, runtime, lastStart, lastStop]

theorem book_running (line : Timeline) (now : UInt64) :
    ({ line with started := some now } : Timeline).book =
      (now, line.lastStop, .ofNat line.runtime) := rfl

theorem book_stopping {line : Timeline} (hslept : line.slept ≤ line.runs.length)
    {start now : UInt64} (hle : start ≤ now) :
    (⟨line.runs ++ [(start, now)], line.slept, none⟩ : Timeline).book =
      (start, now, .ofNat line.runtime + (now - start)) := by
  have hspan : now - start = .ofNat (now.toNat - start.toNat) := by
    rw [← UInt64.toNat_sub_of_le _ _ hle, UInt64.ofNat_toNat]
  simp [book, runtime, lastStart, lastStop, List.drop_append_of_le_length hslept, hspan,
    UInt64.ofNat_add]

end Timeline

namespace Live

variable {ro : Rodata} {s : Live} {pid : Int32} {events : List Event} {event : Event}

/-- What an event adds to the timeline of a task. -/
def extend (pid : Int32) (line : Timeline) : Event → Timeline
  | .initTask pid' _ => if pid' = pid then .empty else line
  | .runnable pid' => if pid' = pid then { line with slept := line.runs.length } else line
  | .running pid' now => if pid' = pid then { line with started := some now } else line
  | .stopping pid' now =>
    if pid' = pid then
      match line.started with
      | none => line
      | some start => ⟨line.runs ++ [(start, now)], line.slept, none⟩
    else line
  | _ => line

def timeline (pid : Int32) (events : List Event) : Timeline := events.foldl (extend pid) .empty

/-- What the kernel promises: a task is runnable before it runs, it stops before it runs again, and
    it neither leaves the scheduler nor exits while it runs. -/
def Promised (s : Live) (events : List Event) : Event → Prop
  | .initTask pid _ => (timeline pid events).started = none
  | .exit pid => (timeline pid events).started = none
  | .disable pid => (timeline pid events).started = none
  | .runnable pid => (timeline pid events).started = none ∧ (s.enabledTask pid).isSome
  | .running pid _ => (timeline pid events).started = none ∧ (s.enabledTask pid).isSome
  | .stopping pid now => ∃ start ≤ now, (timeline pid events).started = some start
  | _ => True

/-- The kernel keeps its promises throughout. -/
def Lawful (ro : Rodata) (s : Live) (events : List Event) : Prop :=
  Each (fun before event => (s.run ro before).Promised before event) events

theorem timeline_concat (pid : Int32) (events : List Event) (event : Event) :
    timeline pid (events ++ [event]) = extend pid (timeline pid events) event := by
  rw [timeline, List.foldl_append]
  rfl

/-! ### What a step does to the books -/

/-- The times in a context. -/
def times (ctx : TaskCtx) : UInt64 × UInt64 × UInt64 := (ctx.startTs, ctx.stopTs, ctx.execRuntime)

/-- The books of the tasks. -/
def bookOf (tasks : Tasks) (pid : Int32) : Option (UInt64 × UInt64 × UInt64) :=
  (ctxs tasks pid).map times

theorem bookOf_congr {tasks tasks' : Tasks} (h : ctxs tasks' = ctxs tasks) :
    bookOf tasks' = bookOf tasks := by
  funext pid
  rw [bookOf, h, bookOf]

/-- What is sent in a step, if anything, says what the books say. -/
def Sends (ro : Rodata) (s s' : Live) : Prop :=
  s'.queued = s.queued ∨ ∃ task : QueuedTask, s'.queued = s.queued ++ [task] ∧
    task.pid ≠ ro.userschedPid ∧
    bookOf s.kernel.tasks task.pid = some (task.startTs, task.stopTs, task.execRuntime)

theorem handOver_kept (s : Live) (idleCpu : Task → Int32) :
    ctxs (s.handOver idleCpu).kernel.tasks = ctxs s.kernel.tasks ∧
    (∀ pid, ((s.handOver idleCpu).kernel.tasks pid).isSome = (s.kernel.tasks pid).isSome) ∧
    (s.handOver idleCpu).queued = s.queued := by
  rw [handOver]
  split
  · split_ifs
    · exact ⟨rfl, fun _ => rfl, rfl⟩
    · exact ⟨(callback_ctxs idleCpu _ s.kernel).1, (callback_ctxs idleCpu _ s.kernel).2, rfl⟩
  · exact ⟨rfl, fun _ => rfl, rfl⟩

theorem bookOf_announced {s s' : Host} {ctx : TaskCtx} {task : QueuedTask}
    (h : Host.Announces s s' ctx task) :
    bookOf s.kernel.tasks task.pid = some (task.startTs, task.stopTs, task.execRuntime) ∧
    bookOf s'.kernel.tasks = bookOf s.kernel.tasks := by
  have hbook : bookOf s.kernel.tasks task.pid = some (times ctx) := by
    rw [bookOf, h.known, Option.map_some]
  refine ⟨?_, funext fun pid => ?_⟩
  · rw [hbook, h.startTs, h.stopTs, h.execRuntime]
    rfl
  · by_cases hpid : pid = task.pid
    · rw [hpid, hbook, bookOf, h.ctxs, Function.update_self]
      rfl
    · rw [bookOf, h.ctxs, Function.update_of_ne hpid, bookOf]

/-- Every record that is sent says what the books say. -/
theorem Stepped.sends {s' : Live} (hs : Stepped ro s event s') : Sends ro s s' := by
  cases hs with
  | user error granted => exact .inl (s.user_frame _).queued
  | silent _ aside host => exact .inl host.queued
  | announces _ aside host other =>
    exact .inr ⟨_, host.queued, other, (bookOf_announced host).1⟩
  | books _ books => exact .inl books.queued
  | fork pid p => exact .inl rfl
  | exit pid => exact .inl rfl
  | enter c free =>
    rw [Live.enter, free]
    exact .inl rfl
  | handOver idleCpu => exact .inl (s.handOver_kept idleCpu).2.2
  | leave cpu prev begun done after => exact .inl after.queued

/-- The event is none of those that write the books. -/
def Event.Unbooked : Event → Prop
  | .initTask _ _ => False
  | .exit _ => False
  | .runnable _ => False
  | .running _ _ => False
  | .stopping _ _ => False
  | _ => True

theorem Stepped.unbooked {s' : Live} (hs : Stepped ro s event s') (h : event.Unbooked) :
    bookOf s'.kernel.tasks = bookOf s.kernel.tasks := by
  cases hs with
  | user error granted => rw [(s.user_frame _).kernel]
  | silent _ aside host => exact bookOf_congr host.ctxs
  | announces _ aside host other => exact (bookOf_announced host).2
  | books _ books writes => cases event <;> first | exact h.elim | cases writes
  | fork pid p => exact h.elim
  | exit pid => exact h.elim
  | enter c free =>
    rw [Live.enter, free]
    rfl
  | handOver idleCpu => exact bookOf_congr (s.handOver_kept idleCpu).1
  | leave cpu prev begun done after => exact bookOf_congr after.ctxs

theorem nrRunning_unbooked (ro : Rodata) (s : Live) (h : event.Unbooked) :
    (s.step ro event).nrRunning = s.nrRunning := by
  refine (s.step_frame ro event).nrRunning ?_ ?_
  all_goals cases event <;> first | exact h.elim | simp [Event.part]

/-! ### Tasks under the scheduler -/

theorem enabledTask_isSome (s : Live) (pid : Int32) :
    (s.enabledTask pid).isSome = (s.enabled pid && (s.kernel.tasks pid).isSome) := by
  rw [enabledTask]
  cases s.enabled pid <;> rfl

theorem step_enabled (ro : Rodata) (s : Live) {event : Event} {pid : Int32}
    (hfork : ∀ p, event ≠ .initTask pid p) (hexit : event ≠ .exit pid)
    (hdisable : event ≠ .disable pid) (h : s.enabled pid = true) :
    (s.step ro event).enabled pid = true := by
  have hframe := s.step_frame ro event
  cases event with
  | initTask pid' p =>
    have hne : pid ≠ pid' := fun heq => hfork p (by rw [heq])
    exact (Function.update_of_ne hne _ _).trans h
  | exit pid' =>
    have hne : pid ≠ pid' := fun heq => hexit (by rw [heq])
    exact (Function.update_of_ne hne _ _).trans h
  | enable pid' =>
    change Function.update s.enabled pid' true pid = true
    by_cases heq : pid = pid'
    · rw [heq, Function.update_self]
    · rw [Function.update_of_ne heq, h]
  | disable pid' =>
    have hne : pid ≠ pid' := fun heq => hdisable (by rw [heq])
    exact (Function.update_of_ne hne _ _).trans h
  | _ => rw [hframe.enabled (by simp [Event.part]), h]

theorem Stepped.present {s' : Live} (hs : Stepped ro s event s') (hexit : event ≠ .exit pid)
    (h : (s.kernel.tasks pid).isSome) : (s'.kernel.tasks pid).isSome := by
  cases hs with
  | user error granted => rwa [(s.user_frame _).kernel]
  | silent _ aside host => rwa [host.present]
  | announces _ aside host => rwa [host.present]
  | books _ books => rwa [books.present]
  | fork pid' p =>
    change (Function.update s.kernel.tasks pid' _ pid).isSome
    by_cases heq : pid = pid'
    · rw [heq, Function.update_self]
      rfl
    · rwa [Function.update_of_ne heq]
  | exit pid' =>
    have hne : pid ≠ pid' := fun heq => hexit (by rw [heq])
    change (Function.update s.kernel.tasks pid' none pid).isSome
    rwa [Function.update_of_ne hne]
  | enter c free =>
    rw [Live.enter, free]
    exact h
  | handOver idleCpu => exact ((s.handOver_kept idleCpu).2.1 pid).trans h
  | leave cpu prev begun done after => exact (after.present pid).trans h

/-- A task stays under the scheduler until it leaves it. -/
theorem step_enabledTask (ro : Rodata) (s : Live) {event : Event} {pid : Int32}
    (hfork : ∀ p, event ≠ .initTask pid p) (hexit : event ≠ .exit pid)
    (hdisable : event ≠ .disable pid) (h : (s.enabledTask pid).isSome) :
    ((s.step ro event).enabledTask pid).isSome := by
  rw [enabledTask_isSome, Bool.and_eq_true] at h ⊢
  exact ⟨step_enabled ro s hfork hexit hdisable h.1, (s.step_stepped ro event).present hexit h.2⟩

/-! ### The books are right -/

theorem extend_unbooked (h : event.Unbooked) (line : Timeline) : extend pid line event = line := by
  cases event <;> first | rfl | exact h.elim

theorem timeline_slept (pid : Int32) (events : List Event) :
    (timeline pid events).slept ≤ (timeline pid events).runs.length := by
  induction events using List.reverseRecOn with
  | nil => exact le_rfl
  | append_singleton events event ih =>
    rw [timeline_concat]
    cases event with
    | initTask pid' p =>
      rw [extend]
      split_ifs
      · exact le_rfl
      · exact ih
    | runnable pid' =>
      rw [extend]
      split_ifs
      · exact le_rfl
      · exact ih
    | running pid' now =>
      rw [extend]
      split_ifs <;> exact ih
    | stopping pid' now =>
      rw [extend]
      split_ifs
      · split
        · exact ih
        · exact ih.trans (by simp)
      · exact ih
    | _ => exact ih

/-- The context of a task is written. -/
theorem bookOf_update {p : Task} (ctx' : TaskCtx) (tasks : Tasks) (pid : Int32) :
    bookOf (Function.update tasks pid (some { p with ctx := some ctx' })) =
      Function.update (bookOf tasks) pid (some (times ctx')) := by
  funext pid'
  rw [bookOf, ctxs_update]
  by_cases h : pid' = pid
  · rw [h, Function.update_self, Function.update_self]
    rfl
  · rw [Function.update_of_ne h, Function.update_of_ne h, bookOf]

theorem bookOf_some {p : Task} (hp : s.kernel.tasks pid = some p) :
    bookOf s.kernel.tasks pid = p.ctx.map times := by
  rw [bookOf, ctxs_some hp]

/-- The context of a task is written, if it has one. -/
theorem bookOf_write {p : Task} (hp : s.kernel.tasks pid = some p) (f : TaskCtx → TaskCtx) :
    bookOf (match p.ctx with
      | none => s
      | some ctx => s.setHost (s.setTask pid { p with ctx := some (f ctx) })).kernel.tasks =
    Function.update (bookOf s.kernel.tasks) pid (p.ctx.map fun ctx => times (f ctx)) := by
  have hbook := bookOf_some hp
  cases hctx : p.ctx with
  | none =>
    rw [hctx, Option.map_none] at hbook
    rw [Option.map_none, ← hbook, Function.update_eq_self]
  | some ctx => exact bookOf_update (f ctx) s.kernel.tasks pid

/-- The books agree with the timelines. -/
structure Accounts (ro : Rodata) (s : Live) (events : List Event) : Prop where
  present : ∀ pid, (timeline pid events).started.isSome → (s.enabledTask pid).isSome
  books : ∀ pid ≠ ro.userschedPid, ∀ book, bookOf s.kernel.tasks pid = some book →
    book = (timeline pid events).book
  running : ∃ pids : Finset Int32, (∀ pid, pid ∈ pids ↔
      pid ≠ ro.userschedPid ∧ (timeline pid events).started.isSome) ∧
    s.nrRunning = .ofNat pids.card

namespace Accounts

/-- Only a task that gets a CPU runs afterwards and not before. -/
theorem present_step (h : Accounts ro s events) (hp : s.Promised events event) (pid : Int32)
    (hrun : (timeline pid (events ++ [event])).started.isSome) :
    ((s.step ro event).enabledTask pid).isSome := by
  rw [timeline_concat] at hrun
  have hbefore : (s.enabledTask pid).isSome := by
    cases event with
    | initTask pid' p =>
      rw [extend] at hrun
      split_ifs at hrun
      · cases hrun
      · exact h.present pid hrun
    | runnable pid' =>
      rw [extend] at hrun
      split_ifs at hrun <;> exact h.present pid hrun
    | running pid' now =>
      rw [extend] at hrun
      split_ifs at hrun with heq
      · exact heq ▸ hp.2
      · exact h.present pid hrun
    | stopping pid' now =>
      rw [extend] at hrun
      split_ifs at hrun
      · split at hrun
        · exact h.present pid hrun
        · cases hrun
      · exact h.present pid hrun
    | _ => exact h.present pid hrun
  refine step_enabledTask ro s (fun p heq => ?_) (fun heq => ?_) (fun heq => ?_) hbefore
  · rw [heq, extend, if_pos rfl] at hrun
    cases hrun
  · rw [heq] at hp hrun
    have hnone : (timeline pid events).started = none := hp
    have hsome : (timeline pid events).started.isSome := hrun
    rw [hnone] at hsome
    cases hsome
  · rw [heq] at hp hrun
    have hnone : (timeline pid events).started = none := hp
    have hsome : (timeline pid events).started.isSome := hrun
    rw [hnone] at hsome
    cases hsome

/-- The books of one task are written, and only its timeline goes on. -/
theorem books_update (h : Accounts ro s events) {s' : Live}
    {o : Option (UInt64 × UInt64 × UInt64)}
    (hbooks : bookOf s'.kernel.tasks = Function.update (bookOf s.kernel.tasks) pid o)
    (ho : ∀ book, o = some book → book = (extend pid (timeline pid events) event).book)
    (hother : ∀ pid' ≠ pid, extend pid' (timeline pid' events) event = timeline pid' events)
    (pid' : Int32) (hne : pid' ≠ ro.userschedPid) (book : UInt64 × UInt64 × UInt64)
    (hbook : bookOf s'.kernel.tasks pid' = some book) :
    book = (timeline pid' (events ++ [event])).book := by
  rw [timeline_concat]
  rw [hbooks] at hbook
  by_cases heq : pid' = pid
  · rw [heq, Function.update_self] at hbook
    rw [heq]
    exact ho book hbook
  · rw [Function.update_of_ne heq] at hbook
    rw [hother pid' heq]
    exact h.books pid' hne book hbook

/-- Nobody gets or gives up a CPU. -/
theorem running_congr (h : Accounts ro s events) {s' : Live} (hnr : s'.nrRunning = s.nrRunning)
    (hstarted : ∀ pid, pid ≠ ro.userschedPid →
      (timeline pid (events ++ [event])).started.isSome = (timeline pid events).started.isSome) :
    ∃ pids : Finset Int32, (∀ pid, pid ∈ pids ↔
        pid ≠ ro.userschedPid ∧ (timeline pid (events ++ [event])).started.isSome) ∧
      s'.nrRunning = .ofNat pids.card := by
  obtain ⟨pids, hmem, hcard⟩ := h.running
  refine ⟨pids, fun pid => ?_, hnr.trans hcard⟩
  rw [hmem]
  exact and_congr_right fun hne => by rw [hstarted pid hne]

/-- Nothing happens that is in the books. -/
theorem still (h : Accounts ro s events) (hp : s.Promised events event)
    (hbooks : bookOf (s.step ro event).kernel.tasks = bookOf s.kernel.tasks)
    (hnr : (s.step ro event).nrRunning = s.nrRunning)
    (hother : ∀ pid ≠ ro.userschedPid,
      extend pid (timeline pid events) event = timeline pid events) :
    Accounts ro (s.step ro event) (events ++ [event]) := by
  refine ⟨h.present_step hp, fun pid hne book hbook => ?_, h.running_congr hnr fun pid hne => ?_⟩
  · rw [hbooks] at hbook
    rw [timeline_concat, hother pid hne]
    exact h.books pid hne book hbook
  · rw [timeline_concat, hother pid hne]

theorem unbooked (h : Accounts ro s events) (hb : event.Unbooked)
    (hp : s.Promised events event) : Accounts ro (s.step ro event) (events ++ [event]) := by
  exact h.still hp ((s.step_stepped ro event).unbooked hb) (nrRunning_unbooked ro s hb)
    fun pid _ => extend_unbooked hb _

theorem initTask (h : Accounts ro s events) {p : Task}
    (hp : s.Promised events (.initTask pid p)) :
    Accounts ro (s.step ro (.initTask pid p)) (events ++ [.initTask pid p]) := by
  have hnone : (timeline pid events).started = none := hp
  refine ⟨h.present_step hp, h.books_update (bookOf_update _ _ pid) ?_ ?_,
    h.running_congr rfl ?_⟩
  · rintro book ⟨⟩
    rw [extend, if_pos rfl]
    rfl
  · intro pid' hne
    rw [extend, if_neg hne.symm]
  · intro pid' _
    rw [timeline_concat, extend]
    split_ifs with heq
    · rw [← heq, hnone]
      rfl
    · rfl

theorem exit (h : Accounts ro s events) (hp : s.Promised events (.exit pid)) :
    Accounts ro (s.step ro (.exit pid)) (events ++ [.exit pid]) := by
  have hbooks : bookOf (Function.update s.kernel.tasks pid none) =
      Function.update (bookOf s.kernel.tasks) pid none := by
    funext pid'
    rw [bookOf, ctxs_update]
    by_cases heq : pid' = pid
    · rw [heq, Function.update_self, Function.update_self]
      rfl
    · rw [Function.update_of_ne heq, Function.update_of_ne heq, bookOf]
  refine ⟨h.present_step hp, h.books_update hbooks ?_ fun _ _ => rfl,
    h.running_congr rfl fun pid' _ => by rw [timeline_concat]; rfl⟩
  rintro book ⟨⟩

theorem runnable (h : Accounts ro s events) (hp : s.Promised events (.runnable pid)) :
    Accounts ro (s.step ro (.runnable pid)) (events ++ [.runnable pid]) := by
  obtain ⟨p, henabled⟩ := Option.isSome_iff_exists.mp hp.2
  have hstep : s.step ro (.runnable pid) = s.runnable ro pid p := by
    simp only [step, henabled]
  have hother : ∀ pid' ≠ pid,
      extend pid' (timeline pid' events) (.runnable pid) = timeline pid' events := by
    intro pid' hne
    rw [extend, if_neg hne.symm]
  by_cases husched : pid = ro.userschedPid
  · rw [Live.runnable, if_pos husched] at hstep
    exact h.still hp (by rw [hstep]) (by rw [hstep]) fun pid' hne => hother pid' (husched ▸ hne)
  · have hbook := bookOf_some (enabledTask_some henabled)
    rw [Live.runnable, if_neg husched] at hstep
    have hwrite := (congrArg (fun s : Live => bookOf s.kernel.tasks) hstep).trans
      (bookOf_write (enabledTask_some henabled) fun ctx => { ctx with execRuntime := 0 })
    refine ⟨h.present_step hp, h.books_update hwrite ?_ hother, h.running_congr ?_ fun pid' _ => ?_⟩
    · intro book hsome
      obtain ⟨ctx, hctx, rfl⟩ := Option.map_eq_some_iff.mp hsome
      have hold := h.books pid husched (times ctx) (by rw [hbook, hctx, Option.map_some])
      simp only [times, Timeline.book, Prod.mk.injEq] at hold
      rw [extend, if_pos rfl, Timeline.book_runnable, ← hold.1, ← hold.2.1]
      rfl
    · rw [hstep]
      cases p.ctx <;> rfl
    · rw [timeline_concat, extend]
      split_ifs <;> rfl

theorem running_step (h : Accounts ro s events) {now : UInt64}
    (hp : s.Promised events (.running pid now)) :
    Accounts ro (s.step ro (.running pid now)) (events ++ [.running pid now]) := by
  obtain ⟨p, henabled⟩ := Option.isSome_iff_exists.mp hp.2
  have hstep : s.step ro (.running pid now) = s.running ro pid p now := by
    simp only [step, henabled]
  have hother : ∀ pid' ≠ pid,
      extend pid' (timeline pid' events) (.running pid now) = timeline pid' events := by
    intro pid' hne
    rw [extend, if_neg hne.symm]
  by_cases husched : pid = ro.userschedPid
  · rw [Live.running, if_pos husched] at hstep
    exact h.still hp (by rw [hstep]) (by rw [hstep]) fun pid' hne => hother pid' (husched ▸ hne)
  · have hbook := bookOf_some (enabledTask_some henabled)
    rw [Live.running, if_neg husched] at hstep
    have hwrite := (congrArg (fun s : Live => bookOf s.kernel.tasks) hstep).trans
      (bookOf_write (s := { s with nrRunning := s.nrRunning + 1 }) (enabledTask_some henabled)
        fun ctx => { ctx with startTs := now })
    refine ⟨h.present_step hp, h.books_update hwrite ?_ hother, ?_⟩
    · intro book hsome
      obtain ⟨ctx, hctx, rfl⟩ := Option.map_eq_some_iff.mp hsome
      have hold := h.books pid husched (times ctx) (by rw [hbook, hctx, Option.map_some])
      simp only [times, Timeline.book, Prod.mk.injEq] at hold
      rw [extend, if_pos rfl, Timeline.book_running, ← hold.2.1, ← hold.2.2]
      rfl
    · obtain ⟨pids, hmem, hcard⟩ := h.running
      have hnew : pid ∉ pids := by
        rw [hmem, hp.1]
        rintro ⟨-, ⟨⟩⟩
      refine ⟨insert pid pids, fun pid' => ?_, ?_⟩
      · rw [timeline_concat, Finset.mem_insert]
        by_cases heq : pid' = pid
        · rw [heq, extend, if_pos rfl]
          exact ⟨fun _ => ⟨husched, rfl⟩, fun _ => .inl rfl⟩
        · rw [hother pid' heq, hmem]
          exact or_iff_right heq
      · rw [Finset.card_insert_of_notMem hnew, UInt64.ofNat_add, ← hcard, hstep]
        cases p.ctx <;> rfl

theorem stopping_step (h : Accounts ro s events) {now : UInt64}
    (hp : s.Promised events (.stopping pid now)) :
    Accounts ro (s.step ro (.stopping pid now)) (events ++ [.stopping pid now]) := by
  obtain ⟨start, hle, hstart⟩ := id hp
  obtain ⟨p, henabled⟩ := Option.isSome_iff_exists.mp (h.present pid (by rw [hstart]; rfl))
  have hstep : s.step ro (.stopping pid now) = s.stopping ro pid p now := by
    simp only [step, henabled]
  have hother : ∀ pid' ≠ pid,
      extend pid' (timeline pid' events) (.stopping pid now) = timeline pid' events := by
    intro pid' hne
    rw [extend, if_neg hne.symm]
  by_cases husched : pid = ro.userschedPid
  · rw [Live.stopping, if_pos husched] at hstep
    exact h.still hp (by rw [hstep]) (by rw [hstep]) fun pid' hne => hother pid' (husched ▸ hne)
  · have hbook := bookOf_some (enabledTask_some henabled)
    rw [Live.stopping, if_neg husched] at hstep
    have hwrite := (congrArg (fun s : Live => bookOf s.kernel.tasks) hstep).trans
      (bookOf_write (s := { s with nrRunning := s.nrRunning - 1 }) (enabledTask_some henabled)
        fun ctx => { ctx with
          stopTs := now
          execRuntime := ctx.execRuntime + (now - ctx.startTs) })
    have hline : extend pid (timeline pid events) (.stopping pid now) =
        ⟨(timeline pid events).runs ++ [(start, now)], (timeline pid events).slept, none⟩ := by
      rw [extend, if_pos rfl, hstart]
    refine ⟨h.present_step hp, h.books_update hwrite ?_ hother, ?_⟩
    · intro book hsome
      obtain ⟨ctx, hctx, rfl⟩ := Option.map_eq_some_iff.mp hsome
      have hold := h.books pid husched (times ctx) (by rw [hbook, hctx, Option.map_some])
      simp only [times, Timeline.book, Timeline.lastStart, hstart, Option.getD_some,
        Prod.mk.injEq] at hold
      rw [hline, Timeline.book_stopping (timeline_slept pid events) hle, ← hold.2.2, ← hold.1]
      rfl
    · obtain ⟨pids, hmem, hcard⟩ := h.running
      have hold : pid ∈ pids := (hmem pid).mpr ⟨husched, by rw [hstart]; rfl⟩
      refine ⟨pids.erase pid, fun pid' => ?_, ?_⟩
      · rw [timeline_concat, Finset.mem_erase]
        by_cases heq : pid' = pid
        · rw [heq, hline]
          exact ⟨fun hmem => absurd rfl hmem.1, fun hmem => by cases hmem.2⟩
        · rw [hother pid' heq, hmem]
          exact and_iff_right heq
      · have hnr : (s.step ro (.stopping pid now)).nrRunning = s.nrRunning - 1 := by
          rw [hstep]
          cases p.ctx <;> rfl
        rw [hnr, hcard, ← Finset.card_erase_add_one hold, UInt64.ofNat_add]
        exact add_sub_cancel_right _ _

theorem step (h : Accounts ro s events) (event : Event) (hp : s.Promised events event) :
    Accounts ro (s.step ro event) (events ++ [event]) := by
  cases event with
  | initTask pid p => exact h.initTask hp
  | exit pid => exact h.exit hp
  | runnable pid => exact h.runnable hp
  | running pid now => exact h.running_step hp
  | stopping pid now => exact h.stopping_step hp
  | _ => exact h.unbooked trivial hp

theorem run (h : Accounts ro s []) (hlawful : Lawful ro s events) :
    Accounts ro (s.run ro events) events := by
  induction events using List.reverseRecOn with
  | nil => exact h
  | append_singleton events event ih =>
    obtain ⟨hbefore, hlast⟩ := each_concat.mp hlawful
    rw [run_append]
    exact (ih hbefore).step event hlast

end Accounts

theorem accounts_boot (ro : Rodata) (pid : UInt32) (startedAtMs : UInt64) (profile : Profile) :
    Accounts ro (boot pid startedAtMs profile) [] where
  present pid h := by cases h
  books pid hne book hbook := by cases hbook
  running := ⟨∅, fun pid => by simp [timeline, Timeline.empty], rfl⟩

/-- A task runs twice before the scheduler hears of it, for three and for four microseconds. -/
def twoRuns : List Event :=
  [.initTask 7 ⟨0, fun _ => true, 0, 0, none⟩, .enable 7, .runnable 7, .running 7 1000,
    .stopping 7 4000, .running 7 10000, .stopping 7 14000,
    .enqueue 7 0 ⟨false, false, 1, 100, .replicate 16 0, false, -1, true⟩]

theorem twoRuns_lawful : Lawful ⟨false, 5000000, 900, 0⟩ (boot 1 0 .balanced) twoRuns := by
  refine each_cons.mpr ⟨rfl, each_cons.mpr ⟨trivial, each_cons.mpr ⟨⟨rfl, rfl⟩, each_cons.mpr
    ⟨⟨rfl, rfl⟩, each_cons.mpr ⟨⟨1000, by decide, rfl⟩, each_cons.mpr ⟨⟨rfl, rfl⟩, each_cons.mpr
    ⟨⟨10000, by decide, rfl⟩, each_singleton.mpr trivial⟩⟩⟩⟩⟩⟩⟩

/-- As long as the kernel keeps its promises, `nr_running` is the number of tasks that have a CPU,
    the scheduler not counted. -/
theorem nrRunning_counts (ro : Rodata) (pid : UInt32) (startedAtMs : UInt64) (profile : Profile)
    (events : List Event) (hlawful : Lawful ro (boot pid startedAtMs profile) events) :
    ∃ pids : Finset Int32, (∀ pid, pid ∈ pids ↔
        pid ≠ ro.userschedPid ∧ (timeline pid events).started.isSome) ∧
      ((boot pid startedAtMs profile).run ro events).nrRunning = .ofNat pids.card :=
  ((accounts_boot ro pid startedAtMs profile).run hlawful).running

theorem twoRuns_nrRunning : ∃ pids : Finset Int32, (∀ pid, pid ∈ pids ↔
      pid ≠ 900 ∧ (timeline pid twoRuns).started.isSome) ∧
    ((boot 1 0 .balanced).run ⟨false, 5000000, 900, 0⟩ twoRuns).nrRunning = .ofNat pids.card :=
  nrRunning_counts ⟨false, 5000000, 900, 0⟩ 1 0 .balanced twoRuns twoRuns_lawful

/-- As long as the kernel keeps its promises, every record that is sent to user space carries the
    times of its task at that moment: when it last got and gave up a CPU, and how long it has run
    since it last became runnable. -/
theorem records_timed (ro : Rodata) (pid : UInt32) (startedAtMs : UInt64) (profile : Profile)
    (events : List Event) (hlawful : Lawful ro (boot pid startedAtMs profile) events) (n : ℕ)
    (task : QueuedTask)
    (htask : ((boot pid startedAtMs profile).run ro events).queued[n]? = some task) :
    ∃ before event after, events = before ++ event :: after ∧
      ((boot pid startedAtMs profile).run ro before).queued.length = n ∧
      task.startTs = (timeline task.pid before).lastStart ∧
      task.stopTs = (timeline task.pid before).lastStop ∧
      task.execRuntime = .ofNat (timeline task.pid before).runtime := by
  induction events using List.reverseRecOn with
  | nil => cases htask
  | append_singleton events event ih =>
    obtain ⟨hbefore, -⟩ := each_concat.mp hlawful
    set s := (boot pid startedAtMs profile).run ro events
    rw [run_append] at htask
    have hsent : s.queued[n]? = some task ∨ s.queued.length = n ∧
        task.pid ≠ ro.userschedPid ∧
        bookOf s.kernel.tasks task.pid = some (task.startTs, task.stopTs, task.execRuntime) := by
      have hlast : (s.step ro event).queued[n]? = some task := htask
      rcases (s.step_stepped ro event).sends with hsame | ⟨task', hnew, hne, hbook⟩
      · rw [hsame] at hlast
        exact .inl hlast
      · rw [hnew, List.getElem?_append] at hlast
        split_ifs at hlast with hn
        · exact .inl hlast
        · rw [List.getElem?_singleton] at hlast
          split_ifs at hlast with hzero
          obtain rfl := Option.some.inj hlast
          exact .inr ⟨by omega, hne, hbook⟩
    rcases hsent with hold | ⟨hlen, hne, hbook⟩
    · obtain ⟨before, event', after, rfl, hrest⟩ := ih hbefore hold
      exact ⟨before, event', after ++ [event], by simp, hrest⟩
    · have h := (accounts_boot ro pid startedAtMs profile).run hbefore
      have hsame := h.books task.pid hne _ hbook
      simp only [Timeline.book, Prod.mk.injEq] at hsame
      exact ⟨events, event, [], rfl, hlen, hsame⟩

theorem twoRuns_timed : ∃ before event after, twoRuns = before ++ event :: after ∧
    ((boot 1 0 .balanced).run ⟨false, 5000000, 900, 0⟩ before).queued.length = 0 ∧
    (10000 : UInt64) = (timeline 7 before).lastStart ∧
    (14000 : UInt64) = (timeline 7 before).lastStop ∧
    (7000 : UInt64) = .ofNat (timeline 7 before).runtime :=
  records_timed ⟨false, 5000000, 900, 0⟩ 1 0 .balanced twoRuns twoRuns_lawful 0
    ⟨7, 0, 1, 0, 10000, 14000, 7000, 100, 0, 1, .replicate 16 0⟩ rfl

end Live

end CerynthOS.Scx
