import CerynthOS.Scx.Latency

/-! Only the newest record of a task is dispatched.

    The context of a task counts the records that were sent for it, and every record carries the
    count of its time. A record that comes back while the count has gone on is out of date, and its
    insertion is cancelled. The count starts again for a new task, so all of this is about pids that
    are used once. -/

namespace CerynthOS.Scx
open Kernel

namespace Live

variable {ro : Rodata} {s s' : Live} {forked : List Int32}

/-- The records that were sent for a task, oldest first. -/
def sentOf (s : Live) (pid : Int32) : List QueuedTask := s.queued.filter (·.pid == pid)

/-- The tasks that were created. -/
def forks : List Event → List Int32
  | [] => []
  | .initTask pid _ :: events => pid :: forks events
  | _ :: events => forks events

/-- The records of a task are numbered from one, the context of a task knows the last number, and a
    task that is still to come has neither. A drain that has not stopped has a slot left. -/
structure Generations (forked : List Int32) (s : Live) : Prop where
  numbers : ∀ pid, (s.sentOf pid).map (·.enqCnt) =
    (List.range (s.sentOf pid).length).map fun i => .ofNat (i + 1)
  current : ∀ pid ctx, ctxs s.kernel.tasks pid = some ctx →
    ctx.enqCnt = .ofNat (s.sentOf pid).length
  unborn : ∀ pid ∉ forked, s.sentOf pid = [] ∧ s.kernel.tasks pid = none
  booked : ∀ pid, (s.kernel.tasks pid).isSome → (ctxs s.kernel.tasks pid).isSome
  slots : ∀ drain, s.draining = some drain → drain.stopped = false → 0 < s.kernel.nrSlots

namespace Generations

/-- The slots of an open drain are where they were. -/
theorem slots_aside (h : Generations forked s) (hdraining : s'.draining = s.draining)
    (haccount : s'.kernel.account = s.kernel.account) :
    ∀ drain, s'.draining = some drain → drain.stopped = false → 0 < s'.kernel.nrSlots := by
  have hmax : s'.kernel.maxBatch = s.kernel.maxBatch := congrArg (·.1.1) haccount
  have hbuf : s'.kernel.buf = s.kernel.buf := congrArg (·.2.1) haccount
  rw [hdraining, nrSlots, hmax, hbuf]
  exact h.slots

/-- The same records, and contexts that count the same. -/
theorem same (h : Generations forked s) (hqueued : s'.queued = s.queued)
    (hctxs : ∀ pid, (ctxs s'.kernel.tasks pid).map (·.enqCnt) =
      (ctxs s.kernel.tasks pid).map (·.enqCnt))
    (hpresent : ∀ pid, (s'.kernel.tasks pid).isSome = (s.kernel.tasks pid).isSome)
    (hslots : ∀ drain, s'.draining = some drain → drain.stopped = false →
      0 < s'.kernel.nrSlots) : Generations forked s' := by
  have hsent : ∀ pid, s'.sentOf pid = s.sentOf pid := fun pid => by rw [sentOf, hqueued, sentOf]
  refine ⟨fun pid => ?_, fun pid ctx hctx => ?_, fun pid hpid => ?_, fun pid hp => ?_, hslots⟩
  · rw [hsent]
    exact h.numbers pid
  · have hcount := hctxs pid
    rw [hctx, Option.map_some, eq_comm, Option.map_eq_some_iff] at hcount
    obtain ⟨old, hold, heq⟩ := hcount
    rw [hsent, ← heq]
    exact h.current pid old hold
  · obtain ⟨hnone, htask⟩ := h.unborn pid hpid
    rw [hsent]
    refine ⟨hnone, Option.isNone_iff_eq_none.mp ?_⟩
    rw [← Option.not_isSome, hpresent, htask]
    rfl
  · rw [hpresent] at hp
    have hsome := congrArg Option.isSome (hctxs pid)
    rw [Option.isSome_map, Option.isSome_map] at hsome
    rw [hsome]
    exact h.booked pid hp

theorem silent (h : Generations forked s) (hdraining : s'.draining = s.draining)
    (host : Host.Silent s.toHost s'.toHost) : Generations forked s' :=
  h.same host.queued (fun pid => by rw [host.ctxs]) host.present
    (h.slots_aside hdraining host.account)

theorem books (h : Generations forked s) {pid : Int32} {ctx ctx' : TaskCtx}
    (hb : Books s s' pid ctx ctx') : Generations forked s' := by
  refine h.same hb.queued (fun pid' => ?_) hb.present (h.slots_aside hb.draining hb.account)
  rw [hb.ctxs]
  by_cases heq : pid' = pid
  · rw [heq, Function.update_self, hb.known, Option.map_some, Option.map_some, hb.enqCnt]
  · rw [Function.update_of_ne heq]

/-- The record that is sent has the next number. -/
theorem announces (h : Generations forked s) {ctx : TaskCtx} {task : QueuedTask}
    (hdraining : s'.draining = s.draining) (ha : Host.Announces s.toHost s'.toHost ctx task) :
    Generations forked s' := by
  have hqueued : s'.queued = s.queued ++ [task] := ha.queued
  have hself : s'.sentOf task.pid = s.sentOf task.pid ++ [task] := by
    rw [sentOf, hqueued, List.filter_append, sentOf, List.filter_singleton, beq_self_eq_true]
    rfl
  have hother : ∀ pid, pid ≠ task.pid → s'.sentOf pid = s.sentOf pid := by
    intro pid hne
    have hbeq : (task.pid == pid) = false := beq_false_of_ne fun heq => hne heq.symm
    rw [sentOf, hqueued, List.filter_append, sentOf, List.filter_singleton, hbeq]
    exact List.append_nil _
  have hcount : task.enqCnt = .ofNat ((s.sentOf task.pid).length + 1) := by
    rw [ha.enqCnt, h.current task.pid ctx ha.known]
    exact (UInt64.ofNat_add _ 1).symm
  refine ⟨fun pid => ?_, fun pid ctx' hctx' => ?_, fun pid hpid => ?_, fun pid hp => ?_,
    h.slots_aside hdraining ha.account⟩
  · by_cases heq : pid = task.pid
    · rw [heq, hself, List.map_append, h.numbers, List.map_singleton, hcount, List.length_append,
        List.length_singleton, List.range_succ, List.map_append, List.map_singleton]
    · rw [hother pid heq]
      exact h.numbers pid
  · rw [ha.ctxs] at hctx'
    by_cases heq : pid = task.pid
    · rw [heq, Function.update_self] at hctx'
      obtain rfl := Option.some.inj hctx'
      rw [heq, hself, List.length_append, List.length_singleton, ← hcount]
      exact ha.enqCnt.symm
    · rw [Function.update_of_ne heq] at hctx'
      rw [hother pid heq]
      exact h.current pid ctx' hctx'
  · obtain ⟨hnone, htask⟩ := h.unborn pid hpid
    have hne : pid ≠ task.pid := by
      rintro rfl
      have hknown := ha.known
      rw [Scx.ctxs, htask] at hknown
      cases hknown
    rw [hother pid hne]
    refine ⟨hnone, Option.isNone_iff_eq_none.mp ?_⟩
    rw [← Option.not_isSome, ha.present, htask]
    rfl
  · rw [ha.ctxs]
    by_cases heq : pid = task.pid
    · rw [heq, Function.update_self]
      rfl
    · rw [Function.update_of_ne heq]
      rw [ha.present] at hp
      exact h.booked pid hp

/-- A new task has sent nothing yet. -/
theorem fork (h : Generations forked s) {pid : Int32} (hpid : pid ∉ forked) (p : Task) :
    Generations (forked ++ [pid]) (s.change ro (.fork pid (rustlandInitTask p))) := by
  have htasks : (s.change ro (.fork pid (rustlandInitTask p))).kernel.tasks =
      Function.update s.kernel.tasks pid (some (rustlandInitTask p)) := rfl
  refine ⟨h.numbers, fun pid' ctx hctx => ?_, fun pid' hpid' => ?_, fun pid' hp => ?_, h.slots⟩
  · rw [htasks, ctxs_update] at hctx
    by_cases heq : pid' = pid
    · rw [heq, Function.update_self] at hctx
      obtain rfl := Option.some.inj hctx
      rw [heq, show (s.change ro _).sentOf pid = [] from (h.unborn pid hpid).1]
      rfl
    · rw [Function.update_of_ne heq] at hctx
      exact h.current pid' ctx hctx
  · rw [List.mem_append, List.mem_singleton, not_or] at hpid'
    rw [htasks, Function.update_of_ne hpid'.2]
    exact h.unborn pid' hpid'.1
  · rw [htasks] at hp
    rw [htasks, ctxs_update]
    by_cases heq : pid' = pid
    · rw [heq, Function.update_self]
      rfl
    · rw [Function.update_of_ne heq] at hp ⊢
      exact h.booked pid' hp

theorem exit (h : Generations forked s) (pid : Int32) :
    Generations forked (s.change ro (.exit pid)) := by
  have htasks : (s.change ro (.exit pid)).kernel.tasks =
      Function.update s.kernel.tasks pid none := rfl
  refine ⟨h.numbers, fun pid' ctx hctx => ?_, fun pid' hpid' => ?_, fun pid' hp => ?_, h.slots⟩
  · rw [htasks, ctxs_update] at hctx
    by_cases heq : pid' = pid
    · rw [heq, Function.update_self] at hctx
      cases hctx
    · rw [Function.update_of_ne heq] at hctx
      exact h.current pid' ctx hctx
  · obtain ⟨hnone, htask⟩ := h.unborn pid' hpid'
    refine ⟨hnone, ?_⟩
    rw [htasks]
    by_cases heq : pid' = pid
    · rw [heq, Function.update_self]
    · rw [Function.update_of_ne heq, htask]
  · rw [htasks] at hp
    rw [htasks, ctxs_update]
    by_cases heq : pid' = pid
    · rw [heq, Function.update_self] at hp
      cases hp
    · rw [Function.update_of_ne heq] at hp ⊢
      exact h.booked pid' hp

theorem handOver (h : Generations forked s) (idleCpu : Task → Int32) :
    Generations forked (s.handOver idleCpu) := by
  rw [Live.handOver]
  split
  · next drain task rest hdrain hpending =>
    split_ifs with hstopped
    · exact h
    · have hkept := callback_ctxs idleCpu task s.kernel
      refine h.same rfl (fun pid => ?_) hkept.2 ?_
      · change (ctxs (callback (still idleCpu) task s.kernel).2.tasks pid).map _ = _
        rw [hkept.1]
      · rintro _ ⟨⟩ hstop
        change (callback (still idleCpu) task s.kernel).1 = false at hstop
        rw [callback_stop, decide_eq_false_iff_not] at hstop
        exact Nat.pos_of_ne_zero hstop
  · exact h

theorem mono {forked' : List Int32} (h : Generations forked s) (hsub : forked ⊆ forked') :
    Generations forked' s :=
  ⟨h.numbers, h.current, fun pid hpid => h.unborn pid fun hmem => hpid (hsub hmem), h.booked,
    h.slots⟩

theorem stepped {event : Event} (h : Generations forked s) (hs : Stepped ro s event s')
    (hnew : ∀ pid ∈ forks [event], pid ∉ forked) :
    Generations (forked ++ forks [event]) s' := by
  have hsub := List.subset_append_left forked (forks [event])
  cases hs with
  | user error granted =>
    refine Generations.mono ?_ hsub
    have huser := s.user_frame (s.answers error granted)
    refine h.same huser.queued (fun _ => by rw [huser.kernel]) (fun _ => by rw [huser.kernel]) ?_
    rw [huser.draining, huser.kernel]
    exact h.slots
  | silent _ aside host => exact (h.silent aside.draining host).mono hsub
  | announces _ aside host => exact (h.announces aside.draining host).mono hsub
  | books _ books => exact (h.books books).mono hsub
  | fork pid p => exact h.fork (hnew pid List.mem_cons_self) p
  | exit pid => exact (h.exit pid).mono hsub
  | enter c free =>
    refine Generations.mono ?_ hsub
    rw [Live.enter, free]
    refine h.same rfl (fun _ => rfl) (fun _ => rfl) ?_
    rintro _ ⟨⟩ -
    change 0 < (s.kernel.enter c).nrSlots
    rw [enter_nrSlots]
    exact c.2
  | handOver idleCpu => exact (h.handOver idleCpu).mono hsub
  | leave cpu prev begun done after =>
    refine Generations.mono ?_ hsub
    rename_i drain host
    refine h.same after.queued (fun pid => ?_) after.present ?_
    · change (ctxs host.kernel.tasks pid).map _ = _
      rw [after.ctxs]
      rfl
    · rintro _ ⟨⟩

theorem run (h : Generations forked s) (events : List Event)
    (hnew : (forked ++ forks events).Nodup) :
    Generations (forked ++ forks events) (s.run ro events) := by
  induction events generalizing forked s with
  | nil => exact h.mono (List.subset_append_left _ _)
  | cons event events ih =>
    have hcons : forks (event :: events) = forks [event] ++ forks events := by
      cases event <;> rfl
    rw [hcons, ← List.append_assoc] at hnew ⊢
    have hevent := List.nodup_append.mp (List.nodup_append.mp hnew).1
    refine ih (h.stepped (s.step_stepped ro event) fun pid hpid hmem => ?_) hnew
    exact hevent.2.2 pid hmem pid hpid rfl

end Generations

theorem generations_boot (pid : UInt32) (startedAtMs : UInt64) (profile : Profile) :
    Generations [] (boot pid startedAtMs profile) where
  numbers _ := rfl
  current _ _ hctx := by cases hctx
  unborn _ _ := ⟨rfl, rfl⟩
  booked _ hp := by cases hp
  slots _ hdrain := by cases hdrain

/-! ### What is dispatched -/

/-- The newest record of a task has the number that its context knows, and no other has. -/
theorem superseded_iff (h : Generations forked s) (hlen : s.queued.length < 2 ^ 64)
    {task : QueuedTask} (hsent : task ∈ s.queued) {p : Task}
    (hp : s.kernel.tasks task.pid = some p) :
    superseded p (.new task) = false ↔
      (s.sentOf task.pid).getLast?.map .new = some (DispatchedTask.new task) := by
  obtain ⟨ctx, hctx⟩ := Option.isSome_iff_exists.mp (h.booked task.pid (by rw [hp]; rfl))
  have hcurrent := h.current task.pid ctx hctx
  rw [ctxs_some hp] at hctx
  have hnumbers := h.numbers task.pid
  have hle : (s.sentOf task.pid).length ≤ s.queued.length := List.length_filter_le _ _
  have hmem : task ∈ s.sentOf task.pid := List.mem_filter.mpr ⟨hsent, beq_self_eq_true _⟩
  generalize s.sentOf task.pid = records at hcurrent hnumbers hle hmem
  have hsize : ∀ {n : ℕ}, n ≤ records.length → n < UInt64.size :=
    fun hn => (hn.trans hle).trans_lt hlen
  have hnumber : ∀ {i : ℕ} {t : QueuedTask}, records[i]? = some t →
      t.enqCnt.toNat = i + 1 ∧ i < records.length := by
    intro i t ht
    have hi := (List.getElem?_eq_some_iff.mp ht).1
    have hith := congrArg (·[i]?) hnumbers
    simp only [List.getElem?_map, ht, Option.map_some, List.getElem?_range hi,
      Option.some.injEq] at hith
    rw [hith, UInt64.toNat_ofNat_of_lt' (hsize (by omega))]
    exact ⟨rfl, hi⟩
  obtain ⟨i, hi⟩ := List.mem_iff_getElem?.mp hmem
  obtain ⟨htask, hilt⟩ := hnumber hi
  have hold : superseded p (.new task) = decide (i + 1 < records.length) := by
    rw [superseded, hctx]
    change decide (task.enqCnt < ctx.enqCnt) = _
    rw [decide_eq_decide, UInt64.lt_iff_toNat_lt, htask, hcurrent,
      UInt64.toNat_ofNat_of_lt' (hsize le_rfl)]
  rw [hold, decide_eq_false_iff_not, List.getLast?_eq_getElem?]
  constructor
  · intro hlast
    rw [show records.length - 1 = i by omega, hi]
    rfl
  · intro hlast hlt
    obtain ⟨t, ht, hnew⟩ := Option.map_eq_some_iff.mp hlast
    have hcount := (hnumber ht).1
    rw [show t.enqCnt = task.enqCnt from congrArg DispatchedTask.enqCnt hnew] at hcount
    omega

/-- In a run that uses no pid twice, a record that comes back from user space puts its task in a
    queue exactly if it is the newest record that was sent for a task that still exists. Only a
    record for any CPU is not asked for its age. -/
theorem newest_dispatched (ro : Rodata) (pid : UInt32) (startedAtMs : UInt64) (profile : Profile)
    (events : List Event) (hforks : (forks events).Nodup) :
    let s := (boot pid startedAtMs profile).run ro events
    s.queued.length < 2 ^ 64 → ∀ drain task rest idleCpu, s.draining = some drain →
      drain.stopped = false → s.ring.pending = task :: rest →
      (s.step ro (.handOver idleCpu)).kernel.buf = s.kernel.buf ++
        (((s.kernel.tasks task.pid).filter fun _ => task.cpu = rlCpuAny ||
          (s.sentOf task.pid).getLast?.map .new = some task).map (insertion · task)).toList := by
  intro s hlen drain task rest idleCpu hdrain hstopped hpending
  have h : Generations (forks events) s := (generations_boot pid startedAtMs profile).run events
    (by rwa [List.nil_append])
  have hcustody : Custody s := (custody_boot pid startedAtMs profile).run events
  -- the record was sent to user space
  obtain ⟨sent, hrecords, hperm, -⟩ := hcustody.sent
  have hmem : task ∈ s.ring.records :=
    List.mem_of_mem_drop (show task ∈ s.ring.pending by rw [hpending]; exact List.mem_cons_self)
  rw [hrecords] at hmem
  obtain ⟨queued, hqueued, rfl⟩ := List.mem_map.mp hmem
  have hsent : queued ∈ s.queued := List.mem_of_mem_take
    (hperm.mem_iff.mpr (List.mem_append_left _ (List.mem_append_left _ hqueued)))
  have hbuf := dispatchTask_buf (still idleCpu) (k := s.kernel.elapse (still idleCpu))
    (h.slots drain hdrain hstopped) (.new queued)
  have hstep : (s.step ro (.handOver idleCpu)).kernel =
      ((s.kernel.elapse (still idleCpu)).dispatchTask (still idleCpu) (.new queued)) := by
    rw [step, Live.handOver, hdrain, hpending]
    dsimp only
    rw [if_neg (by rw [hstopped]; exact Bool.false_ne_true)]
    rfl
  have hplaced : stays s.kernel.tasks (.new queued) = (s.kernel.tasks queued.pid).filter fun _ =>
      (DispatchedTask.new queued).cpu = rlCpuAny ||
        (s.sentOf queued.pid).getLast?.map .new = some (DispatchedTask.new queued) := by
    cases hp : s.kernel.tasks queued.pid with
    | none => exact stays_none hp
    | some p =>
      rw [stays_some hp, Option.filter_some]
      simp only [superseded_iff h hlen hsent hp, Bool.or_eq_true, decide_eq_true_eq]
  rw [hstep, hbuf]
  exact congrArg (fun o => s.kernel.buf ++ (o.map (insertion · (.new queued))).toList) hplaced

/-- The task is taken back and wakes up once more before user space has dispatched it. -/
def twoWakeups : List Event :=
  oneWakeup ++ [.dequeue 1201,
    .enqueue 1201 0 ⟨false, false, 4, 100, .replicate 16 0, true, -1, true⟩] ++
  .replicate 6 (.user none true) ++ [.enter 2]

/-- The record of the first wakeup leaves nothing. -/
theorem twoWakeups_first :
    (((boot 900 0 .balanced).run userIdle twoWakeups).step userIdle
      (.handOver fun _ => -1)).kernel.buf = [] :=
  (newest_dispatched userIdle 900 0 .balanced twoWakeups (by decide) (by decide) ⟨0, [], false⟩
    ⟨1201, 0, 1, 0, 0, 1⟩ [⟨1201, 0, 0, 0, 0, 2⟩] (fun _ => -1) rfl rfl (by decide)).trans
    (by decide)

end Live

end CerynthOS.Scx
