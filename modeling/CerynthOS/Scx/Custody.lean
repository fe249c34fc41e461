import CerynthOS.Scx.Steps

/-! Where the records are.

    A record that was sent to user space is in one place at any time: in the queued ring, with user
    space, refused by the user ring, in the user ring, or handed to `dispatch_task`. User space moves
    one record at a step and a drain another, so this holds however the two are interleaved with
    each other and with the rest of the kernel. -/

namespace CerynthOS.Scx
open Kernel

namespace Live

variable {ro : Rodata} {s s' : Live}

/-- Where the records are that user space has read: sent, refused or held. `settled` of them, those
    from before the current pass, it has let go. -/
structure Custody (s : Live) : Prop where
  read_le : s.read ≤ s.queued.length
  settled_le : s.settled ≤ s.read
  batch : ∀ tasks, s.phase = .reading tasks → s.settled + tasks.length = s.read
  sent : ∃ sent : List QueuedTask, s.ring.records = sent.map .new ∧
    (s.queued.take s.read).Perm (sent ++ s.refused ++ s.phase.tasks) ∧
    (s.queued.take s.settled).Subperm (sent ++ s.refused)
  delivered : s.kernel.delivered = s.ring.handed
  errors : s.sched.stats.dispatchErrors = .ofNat s.refused.length

namespace Custody

/-- User space waits, while records may be announced or handed over. -/
theorem waits (h : Custody s) (hw : Waits s s') (hrecords : s'.ring.records = s.ring.records)
    (hdelivered : s'.kernel.delivered = s'.ring.handed) (hqueued : s.queued <+: s'.queued)
    (hstats : s'.sched.stats = s.sched.stats) : Custody s' := by
  obtain ⟨new, hnew⟩ := hqueued
  have htake : ∀ n ≤ s.read, s'.queued.take n = s.queued.take n := by
    intro n hn
    rw [← hnew, List.take_append_of_le_length (hn.trans h.read_le)]
  refine ⟨?_, ?_, ?_, ?_, hdelivered, ?_⟩
  · rw [hw.read, ← hnew, List.length_append]
    exact h.read_le.trans (Nat.le_add_right _ _)
  · rw [hw.settled, hw.read]
    exact h.settled_le
  · rw [hw.phase, hw.settled, hw.read]
    exact h.batch
  · rw [hrecords, hw.read, hw.settled, hw.refused, hw.phase, htake _ le_rfl, htake _ h.settled_le]
    exact h.sent
  · rw [hstats, hw.refused]
    exact h.errors

theorem kept (h : Custody s) (hw : Waits s s') (hk : Host.Kept s.toHost s'.toHost)
    (hqueued : s.queued <+: s'.queued) : Custody s' := by
  have hdelivered : s'.kernel.delivered = s.kernel.delivered :=
    congrArg (·.1.2.2.1) hk.account
  refine h.waits hw (congrArg _ hk.ring) ?_ hqueued hk.stats
  rw [hdelivered, show s'.ring = s.ring from hk.ring]
  exact h.delivered

/-- The scheduler may count, as long as it keeps its ring and its dispatch errors. -/
theorem setSched (h : Custody s) {sched : Scheduler}
    (hring : sched.bpf.dispatched = s.sched.bpf.dispatched)
    (herrors : sched.stats.dispatchErrors = s.sched.stats.dispatchErrors) :
    Custody (s.setSched sched) := by
  have hsame : (s.setSched sched).ring = s.ring := hring
  refine ⟨h.read_le, h.settled_le, h.batch, ?_, ?_, herrors.trans h.errors⟩
  · rw [hsame]
    exact h.sent
  · rw [hsame]
    exact h.delivered

theorem countBatch_dispatchErrors (sched : Scheduler) (n : UInt64) :
    (sched.countBatch n).stats.dispatchErrors = sched.stats.dispatchErrors := by
  simp only [Scheduler.countBatch]
  split_ifs <;> rfl

/-- The batch is put in order. -/
theorem startSending (h : Custody s) {tasks : List QueuedTask} (hphase : s.phase = .reading tasks) :
    Custody (s.startSending tasks) := by
  obtain ⟨sent, hrecords, hperm, hsub⟩ := h.sent
  rw [hphase, Phase.tasks] at hperm
  have hcount := h.setSched (congrArg (·.dispatched)
    (Scheduler.countBatch_spec s.sched (.ofNat tasks.length)).1)
    (countBatch_dispatchErrors s.sched (.ofNat tasks.length))
  obtain ⟨sent', hrecords', -⟩ := hcount.sent
  refine ⟨h.read_le, h.settled_le, ?_, ⟨sent, ?_, ?_, hsub⟩, hcount.delivered, hcount.errors⟩
  · intro tasks' htasks'
    cases htasks'
  · rw [← hrecords]
    exact congrArg (·.dispatched.records)
      (Scheduler.countBatch_spec s.sched (.ofNat tasks.length)).1
  · exact hperm.trans ((orderTasks_perm s.sched.profile tasks).symm.append_left _)

/-- The task that was read comes from the queued ring. -/
theorem readTask (h : Custody s) {tasks : List QueuedTask} (hphase : s.phase = .reading tasks)
    {task : QueuedTask} {rest : List QueuedTask} (hunread : s.unread = task :: rest) :
    Custody { s with phase := .reading (tasks ++ [task]), read := s.read + 1 } := by
  obtain ⟨sent, hrecords, hperm, hsub⟩ := h.sent
  rw [hphase, Phase.tasks] at hperm
  have hlt : s.read < s.queued.length := by
    have hlen := congrArg List.length hunread
    rw [unread, List.length_drop, List.length_cons] at hlen
    omega
  have htask : s.queued[s.read] = task := by
    have hdrop := List.drop_eq_getElem_cons hlt
    rw [← unread, hunread] at hdrop
    exact (List.cons.inj hdrop).1.symm
  refine ⟨hlt, h.settled_le.trans (Nat.le_succ _), ?_, ⟨sent, hrecords, ?_, hsub⟩,
    h.delivered, h.errors⟩
  · intro tasks' htasks'
    cases htasks'
    rw [List.length_append, List.length_singleton, ← Nat.add_assoc, h.batch tasks hphase]
  · rw [← List.take_concat_get' _ _ hlt, htask, Phase.tasks, ← List.append_assoc]
    exact hperm.append_right _

theorem consume (h : Custody s) {tasks : List QueuedTask} (hphase : s.phase = .reading tasks)
    (error : Option Int32) (granted : Bool) :
    Custody (s.consume tasks (s.answers error granted)) := by
  simp only [Live.consume, BpfScheduler.dequeueTask, answers]
  split_ifs
  · exact h.startSending hphase
  · cases error with
    | some res => exact (h.setSched (by rfl) (by rfl)).startSending hphase
    | none =>
      cases hunread : s.unread with
      | nil =>
        simp only [found, hunread]
        exact (h.setSched (by rfl) (by rfl)).startSending hphase
      | cons task rest =>
        simp only [found, hunread]
        have hread := h.readTask hphase hunread
        exact hread.setSched (by rfl) (by rfl)

/-- A task is sent or refused. -/
theorem submit (h : Custody s) {task : QueuedTask} {tasks : List QueuedTask}
    (hphase : s.phase = .sending (task :: tasks)) (rings : Rings) :
    Custody (s.submit task tasks rings) := by
  obtain ⟨sent, hrecords, hperm, hsub⟩ := h.sent
  rw [hphase, Phase.tasks] at hperm
  have hbatch : ∀ tasks', Phase.sending tasks = .reading tasks' →
      s.settled + tasks'.length = s.read := fun tasks' htasks' => by cases htasks'
  by_cases hreserve : rings.reserve s.sched.bpf.reserveCalls = true
  · obtain ⟨hring, hrefused, herrors⟩ := s.submit_granted task tasks hreserve
    refine ⟨h.read_le, h.settled_le, hbatch, ⟨sent ++ [task], ?_, ?_, ?_⟩, ?_, ?_⟩
    · rw [hring, RingBuffer.submit_records, hrecords, List.map_append, List.map_singleton]
    · rw [hrefused]
      refine hperm.trans ?_
      rw [List.append_assoc, List.append_assoc, List.append_assoc]
      exact List.perm_middle.append_left sent
    · rw [hrefused, List.append_assoc]
      exact hsub.trans ((List.sublist_append_right [task] s.refused).append_left sent).subperm
    · rw [hring, RingBuffer.handed_submit]
      exact h.delivered
    · rw [herrors, hrefused]
      exact h.errors
  · obtain ⟨hring, hrefused, herrors⟩ := s.submit_refused task tasks hreserve
    refine ⟨h.read_le, h.settled_le, hbatch, ⟨sent, ?_, ?_, ?_⟩, ?_, ?_⟩
    · rw [hring]
      exact hrecords
    · rw [hrefused, ← List.append_assoc, List.append_assoc (sent ++ s.refused)]
      exact hperm
    · rw [hrefused, ← List.append_assoc]
      exact hsub.trans (List.sublist_append_left _ [task]).subperm
    · rw [hring]
      exact h.delivered
    · rw [herrors, hrefused, h.errors, List.length_append, List.length_singleton]
      exact (UInt64.ofNat_add _ 1).symm

theorem complete (h : Custody s) (hphase : s.phase = .sending []) : Custody s.complete := by
  obtain ⟨sent, hrecords, hperm, -⟩ := h.sent
  rw [hphase, Phase.tasks] at hperm
  refine ⟨h.read_le, le_rfl, ?_, ⟨sent, hrecords, hperm, ?_⟩, h.delivered, h.errors⟩
  · intro tasks htasks
    cases htasks
    rfl
  · rw [List.append_nil] at hperm
    exact hperm.subperm

theorem user (h : Custody s) (error : Option Int32) (granted : Bool) :
    Custody (s.user (s.answers error granted)) := by
  rw [Live.user]
  split
  · next tasks hphase => exact h.consume hphase error granted
  · next hphase => exact h.complete hphase
  · next task tasks hphase => exact h.submit hphase _

theorem handOver (h : Custody s) (idleCpu : Task → Int32) : Custody (s.handOver idleCpu) := by
  rw [Live.handOver]
  split
  · next drain task rest hdrain hpending =>
    split_ifs
    · exact h
    · refine h.waits ⟨rfl, rfl, rfl, rfl, rfl⟩ rfl ?_ List.prefix_rfl rfl
      change (callback (still idleCpu) task s.kernel).2.delivered = s.ring.advance.handed
      rw [callback_delivered, RingBuffer.advance_handed hpending, h.delivered]
  · exact h

theorem stepped {event : Event} (h : Custody s) (hs : Stepped ro s event s') : Custody s' := by
  cases hs with
  | user error granted => exact h.user error granted
  | silent _ aside host => exact h.kept aside.toWaits host.toKept (by rw [host.queued])
  | announces _ aside host => exact h.kept aside.toWaits host.toKept ⟨_, host.queued.symm⟩
  | books _ books => exact h.kept books.toWaits books.toKept (by rw [books.queued])
  | fork pid p => exact h.waits ⟨rfl, rfl, rfl, rfl, rfl⟩ rfl h.delivered List.prefix_rfl rfl
  | exit pid => exact h.waits ⟨rfl, rfl, rfl, rfl, rfl⟩ rfl h.delivered List.prefix_rfl rfl
  | enter c free =>
    rw [enter, free]
    exact h.waits ⟨rfl, rfl, rfl, rfl, rfl⟩ rfl h.delivered List.prefix_rfl rfl
  | handOver idleCpu => exact h.handOver idleCpu
  | leave cpu prev begun done after =>
    rename_i drain host
    have hflushed : Custody (s.flushed drain) :=
      h.waits ⟨rfl, rfl, rfl, rfl, rfl⟩ rfl h.delivered List.prefix_rfl rfl
    exact hflushed.kept (aside_setHost _ host).toWaits after.toKept
      (by rw [show ((s.flushed drain).setHost host).queued = _ from after.queued])

theorem run (h : Custody s) (events : List Event) : Custody (s.run ro events) := by
  induction events generalizing s with
  | nil => exact h
  | cons event events ih => exact ih (h.stepped (s.step_stepped ro event))

end Custody

theorem custody_boot (pid : UInt32) (startedAtMs : UInt64) (profile : Profile) :
    Custody (boot pid startedAtMs profile) where
  read_le := le_rfl
  settled_le := le_rfl
  batch tasks htasks := by
    cases htasks
    rfl
  sent := ⟨[], rfl, .refl _, List.nil_subperm⟩
  delivered := rfl
  errors := rfl

/-- However the two halves of the scheduler and the rest of the kernel are interleaved, every record
    that was sent to user space is in exactly one place: handed to `dispatch_task`, waiting in the
    user ring, refused, held by user space or unread. Those refused are what user space counts as
    dispatch errors. -/
theorem records_conserved (ro : Rodata) (pid : UInt32) (startedAtMs : UInt64) (profile : Profile)
    (events : List Event) :
    let s := (boot pid startedAtMs profile).run ro events
    (s.queued.map .new).Perm (s.kernel.delivered ++ s.ring.pending ++ s.refused.map .new ++
      s.phase.tasks.map .new ++ s.unread.map .new) ∧
    s.sched.stats.dispatchErrors = .ofNat s.refused.length := by
  intro s
  have h : Custody s := (custody_boot pid startedAtMs profile).run events
  obtain ⟨sent, hrecords, hperm, -⟩ := h.sent
  refine ⟨?_, h.errors⟩
  have hring : s.kernel.delivered ++ s.ring.pending = sent.map .new := by
    rw [← hrecords, h.delivered, s.ring.handed_append_pending]
  have hread := hperm.map DispatchedTask.new
  rw [List.map_append, List.map_append, ← hring] at hread
  have hqueued : s.queued.map DispatchedTask.new =
      (s.queued.take s.read).map .new ++ s.unread.map .new := by
    rw [unread, ← List.map_append, List.take_append_drop]
  rw [hqueued]
  exact hread.append_right _

end Live

end CerynthOS.Scx
