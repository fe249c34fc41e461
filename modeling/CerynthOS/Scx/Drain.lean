import CerynthOS.Scx.Dispatcher

/-! Draining the user ring: exactly once, in order and within the slots.

    The callback stops when the slots are used up, so `RingBuffer` gives the shortest prefix that
    uses them up; what is proved here is what one callback does to slots and deliveries, and from it
    what any run of submissions and drains does. -/

namespace CerynthOS.Scx
open Kernel

variable (env : Env)

/-! ### One callback -/

theorem callback_stop (task : DispatchedTask) (k : Kernel) :
    (callback env task k).1 = decide ((callback env task k).2.nrSlots = 0) := by
  simp [callback, handleDispatchedTask, beq_eq_decide]

theorem callback_delivered (task : DispatchedTask) (k : Kernel) :
    (callback env task k).2.delivered = k.delivered ++ [task] :=
  congrArg (·.2.2.1) (dispatchTask_frame env (k.elapse env) task)

theorem callback_maxBatch (task : DispatchedTask) (k : Kernel) :
    (callback env task k).2.maxBatch = k.maxBatch :=
  congrArg (·.1) (dispatchTask_frame env (k.elapse env) task)

theorem callback_inserted (task : DispatchedTask) (k : Kernel) :
    (callback env task k).2.inserted = k.inserted :=
  congrArg (·.2.1) (dispatchTask_frame env (k.elapse env) task)

theorem callback_tick (task : DispatchedTask) (k : Kernel) :
    (callback env task k).2.tick = k.tick + 1 :=
  congrArg (·.2.2.2) (dispatchTask_frame env (k.elapse env) task)

/-- One record takes at most one slot. -/
theorem callback_use (task : DispatchedTask) (k : Kernel) :
    k.nrSlots ≤ (callback env task k).2.nrSlots + 1 := by
  rcases Nat.eq_zero_or_pos k.nrSlots with h | h
  · omega
  · have hbuf := dispatchTask_buf env (k := k.elapse env) h task
    have hlen : ((stays (k.elapse env).tasks task).map (insertion · task)).toList.length ≤ 1 := by
      cases (stays (k.elapse env).tasks task) <;> simp
    have hcall : (callback env task k).2.buf.length ≤ k.buf.length + 1 := by
      have := congrArg List.length hbuf
      rw [List.length_append] at this
      exact this.trans_le (Nat.add_le_add_left hlen _)
    rw [nrSlots, nrSlots, callback_maxBatch]
    omega

/-! ### One drain -/

/-- The kernel after the first `m` pending records were handed over in one `ops.dispatch` with `c`
    slots. -/
def Kernel.afterRecords (c : ℕ) (ring : RingBuffer DispatchedTask) (k : Kernel) (m : ℕ) : Kernel :=
  RingBuffer.through (callback env) (ring.pending.take m) (k.enter c)

theorem through_delivered (tasks : List DispatchedTask) (k : Kernel) :
    (RingBuffer.through (callback env) tasks k).delivered = k.delivered ++ tasks := by
  induction tasks generalizing k with
  | nil => simp [RingBuffer.through]
  | cons task tasks ih =>
    rw [RingBuffer.through_cons, ih, callback_delivered, List.append_assoc]; rfl

theorem enter_nrSlots (k : Kernel) (c : ℕ) : (k.enter c).nrSlots = c := by
  simp [nrSlots, enter]

/-- How many records one drain hands over. -/
def Kernel.drainCount (c : ℕ) (ring : RingBuffer DispatchedTask) (k : Kernel) : ℕ :=
  (RingBuffer.feed (callback env) ring.pending (k.enter c)).1

theorem drain_delivered (c : ℕ) (ring : RingBuffer DispatchedTask) (k : Kernel) :
    (k.drainDispatched env c ring).2.delivered =
      k.delivered ++ ring.pending.take (k.drainCount env c ring) := by
  simp only [drainDispatched, RingBuffer.drain_state, flush]
  exact through_delivered env _ _

theorem drain_pending (c : ℕ) (ring : RingBuffer DispatchedTask) (k : Kernel) :
    (k.drainDispatched env c ring).1.pending = ring.pending.drop (k.drainCount env c ring) :=
  RingBuffer.drain_pending _ _ _

theorem drain_handed (c : ℕ) (ring : RingBuffer DispatchedTask) (k : Kernel) :
    (k.drainDispatched env c ring).1.handed =
      ring.handed ++ ring.pending.take (k.drainCount env c ring) :=
  RingBuffer.drain_handed _ _ _

/-- A drain hands over at least as many records as it has slots. -/
theorem le_drainCount (c : ℕ) (ring : RingBuffer DispatchedTask) (k : Kernel) :
    min c ring.pending.length ≤ k.drainCount env c ring := by
  have h := RingBuffer.le_feed (callback_stop env) (callback_use env) ring.pending (k.enter c)
  rwa [enter_nrSlots] at h

/-! ### What a drain leaves in the queues -/

/-- The records handed over by callbacks on `tasks`, each with the task table it met. -/
def Kernel.handovers : List DispatchedTask → Kernel → List (Tasks × DispatchedTask)
  | [], _ => []
  | task :: tasks, k =>
    ((k.elapse env).tasks, task) :: handovers tasks (callback env task k).2

/-- The insertion that a record leaves when it meets a task table. -/
def placed (handover : Tasks × DispatchedTask) : Option Insertion :=
  (stays handover.1 handover.2).map (insertion · handover.2)

theorem through_buf (tasks : List DispatchedTask) (k : Kernel)
    (h : ∀ m < tasks.length, 0 < (RingBuffer.through (callback env) (tasks.take m) k).nrSlots) :
    (RingBuffer.through (callback env) tasks k).buf =
      k.buf ++ (k.handovers env tasks).filterMap placed := by
  induction tasks generalizing k with
  | nil => simp [RingBuffer.through, handovers]
  | cons task tasks ih =>
    have hslot : 0 < (k.elapse env).nrSlots := h 0 (Nat.succ_pos _)
    have hbuf : (callback env task k).2.buf =
        k.buf ++ (placed ((k.elapse env).tasks, task)).toList :=
      dispatchTask_buf env hslot task
    rw [RingBuffer.through_cons, ih _ fun m hm => h (m + 1) (Nat.succ_lt_succ hm), hbuf, handovers,
      List.append_assoc]
    cases hp : placed ((k.elapse env).tasks, task) with
    | none => rw [List.filterMap_cons_none hp]; rfl
    | some i => rw [List.filterMap_cons_some hp]; rfl

theorem through_inserted (tasks : List DispatchedTask) (k : Kernel) :
    (RingBuffer.through (callback env) tasks k).inserted = k.inserted := by
  induction tasks generalizing k with
  | nil => rfl
  | cons task tasks ih => rw [RingBuffer.through_cons, ih, callback_inserted]

/-- The handovers of one drain. -/
def Kernel.drainHandovers (c : ℕ) (ring : RingBuffer DispatchedTask) (k : Kernel) :
    List (Tasks × DispatchedTask) :=
  (k.enter c).handovers env (ring.pending.take (k.drainCount env c ring))

/-- A drain adds to the queues exactly what its handovers leave there. -/
theorem drain_inserted (c : ℕ+) (ring : RingBuffer DispatchedTask) (k : Kernel) :
    (k.drainDispatched env c ring).2.inserted =
      k.inserted ++ (k.drainHandovers env c ring).filterMap placed := by
  have hpos : 0 < (k.enter c).nrSlots := by rw [enter_nrSlots]; exact c.2
  have hslots := fun m =>
    RingBuffer.feed_slots (callback_stop env) ring.pending (k.enter c) hpos (m := m)
  simp only [drainDispatched, RingBuffer.drain_state, flush, through_inserted]
  rw [through_buf]
  · rfl
  · intro m hm
    rw [List.length_take] at hm
    rw [List.take_take, Nat.min_eq_left (by omega)]
    exact hslots m (by omega)

/-- The records of the handovers are the records handed over. -/
theorem handovers_records (tasks : List DispatchedTask) (k : Kernel) :
    (k.handovers env tasks).map (·.2) = tasks := by
  induction tasks generalizing k with
  | nil => rfl
  | cons task tasks ih => exact congrArg (task :: ·) (ih _)

/-! ### Runs -/

namespace Drain

/-- User space submits a record, or a CPU enters `ops.dispatch` with some slots. -/
inductive Event where
  | submit (task : DispatchedTask)
  | dispatch (c : ℕ+)

/-- The ring and the kernel after one event. -/
def step : RingBuffer DispatchedTask × Kernel → Event → RingBuffer DispatchedTask × Kernel
  | (ring, k), .submit task => (ring.submit task, k)
  | (ring, k), .dispatch c => k.drainDispatched env c ring

def run (events : List Event) (s : RingBuffer DispatchedTask × Kernel) :
    RingBuffer DispatchedTask × Kernel :=
  events.foldl (step env) s

/-- The records submitted in a run, in order. -/
def submitted : List Event → List DispatchedTask
  | [] => []
  | .submit task :: events => task :: submitted events
  | .dispatch _ :: events => submitted events

theorem submitted_append_dispatch (events : List Event) (cs : List ℕ+) :
    submitted (events ++ cs.map .dispatch) = submitted events := by
  induction events with
  | nil =>
    induction cs with
    | nil => rfl
    | cons c cs ih => exact ih
  | cons event events ih =>
    cases event with
    | submit task => exact congrArg (task :: ·) ih
    | dispatch c => exact ih

/-- The records handed over are those `dispatch_task` was called with. -/
theorem step_handed {s : RingBuffer DispatchedTask × Kernel} (h : s.2.delivered = s.1.handed)
    (event : Event) : (step env s event).2.delivered = (step env s event).1.handed := by
  obtain ⟨ring, k⟩ := s
  cases event with
  | submit task => rw [step, RingBuffer.handed_submit]; exact h
  | dispatch c =>
    simp only [step, drain_delivered, drain_handed]
    rw [show k.delivered = ring.handed from h]

theorem step_records (s : RingBuffer DispatchedTask × Kernel) (event : Event) :
    (step env s event).1.records = s.1.records ++ submitted [event] := by
  cases event with
  | submit task => rfl
  | dispatch c => exact (List.append_nil _).symm

theorem run_handed (events : List Event) {s : RingBuffer DispatchedTask × Kernel}
    (h : s.2.delivered = s.1.handed) :
    (run env events s).2.delivered = (run env events s).1.handed := by
  induction events generalizing s with
  | nil => exact h
  | cons event events ih => exact ih (step_handed env h event)

theorem run_records (events : List Event) (s : RingBuffer DispatchedTask × Kernel) :
    (run env events s).1.records = s.1.records ++ submitted events := by
  induction events generalizing s with
  | nil => exact (List.append_nil _).symm
  | cons event events ih =>
    have hcons : submitted (event :: events) = submitted [event] ++ submitted events := by
      cases event <;> rfl
    change (run env events (step env s event)).1.records = _
    rw [ih, step_records, hcons, List.append_assoc]

/-- Drains alone leave at most what their slots do not cover. -/
theorem run_dispatch_pending (cs : List ℕ+) (s : RingBuffer DispatchedTask × Kernel) :
    (run env (cs.map .dispatch) s).1.pending.length ≤
      s.1.pending.length - (cs.map PNat.val).sum := by
  induction cs generalizing s with
  | nil => exact le_of_eq rfl
  | cons c cs ih =>
    have hone : (step env s (.dispatch c)).1.pending.length ≤ s.1.pending.length - c := by
      have := le_drainCount env c s.1 s.2
      simp only [step, drain_pending, List.length_drop]
      omega
    have hrest := ih (step env s (.dispatch c))
    simp only [List.map_cons, List.sum_cons]
    change (run env (cs.map .dispatch) (step env s (.dispatch c))).1.pending.length ≤ _
    omega

theorem length_le_slots (cs : List ℕ+) : cs.length ≤ (cs.map PNat.val).sum := by
  induction cs with
  | nil => exact Nat.zero_le _
  | cons c cs ih =>
    have hc : 0 < PNat.val c := c.2
    simp only [List.length_cons, List.map_cons, List.sum_cons]
    omega

/-- One drain hands over exactly the shortest prefix of the ring that uses up the slots, or all of
    it, and no record without a slot; over any run every submitted record is handed over exactly
    once and in order, and drains alone empty the ring as fast as their slots allow. -/
theorem drain_exactly_once (tasks : Tasks) :
    (∀ (c : ℕ+) (ring : RingBuffer DispatchedTask) (k : Kernel), ∃ n,
      (k.drainDispatched env c ring).2.delivered = k.delivered ++ ring.pending.take n ∧
      (k.drainDispatched env c ring).1.pending = ring.pending.drop n ∧
      (∀ m < n, 0 < (k.afterRecords env c ring m).nrSlots) ∧
      (IsLeast {m | m ≤ ring.pending.length ∧ (k.afterRecords env c ring m).nrSlots = 0} n ∨
        (∀ m ≤ ring.pending.length, 0 < (k.afterRecords env c ring m).nrSlots) ∧
          n = ring.pending.length)) ∧
    (∀ events : List Event,
      (run env events (.empty, .boot tasks)).2.delivered =
        (run env events (.empty, .boot tasks)).1.handed ∧
      (run env events (.empty, .boot tasks)).2.delivered ++
        (run env events (.empty, .boot tasks)).1.pending = submitted events) ∧
    ∀ (events : List Event) (cs : List ℕ+),
      (run env (events ++ cs.map .dispatch) (.empty, .boot tasks)).1.pending.length ≤
        (run env events (.empty, .boot tasks)).1.pending.length - (cs.map PNat.val).sum ∧
      ((run env events (.empty, .boot tasks)).1.pending.length ≤ cs.length →
        (run env (events ++ cs.map .dispatch) (.empty, .boot tasks)).2.delivered =
          submitted events) := by
  have honce : ∀ events : List Event,
      (run env events (.empty, .boot tasks)).2.delivered =
        (run env events (.empty, .boot tasks)).1.handed ∧
      (run env events (.empty, .boot tasks)).2.delivered ++
        (run env events (.empty, .boot tasks)).1.pending = submitted events := by
    intro events
    have h := run_handed env events (s := (.empty, .boot tasks)) rfl
    exact ⟨h, by rw [h, RingBuffer.handed_append_pending, run_records]; rfl⟩
  refine ⟨fun c ring k => ⟨k.drainCount env c ring, drain_delivered env c ring k,
    drain_pending env c ring k, fun m hm => ?_, ?_⟩, honce, fun events cs => ?_⟩
  · have hpos : 0 < (k.enter c).nrSlots := by rw [enter_nrSlots]; exact c.2
    exact RingBuffer.feed_slots (callback_stop env) _ _ hpos hm
  · have hpos : 0 < (k.enter c).nrSlots := by rw [enter_nrSlots]; exact c.2
    exact RingBuffer.feed_shortest (callback_stop env) _ _ hpos
  · have happ : run env (events ++ cs.map .dispatch) (.empty, .boot tasks) =
        run env (cs.map .dispatch) (run env events (.empty, .boot tasks)) := List.foldl_append
    have hleft := run_dispatch_pending env cs (run env events (.empty, .boot tasks))
    refine ⟨by rw [happ]; exact hleft, fun hn => ?_⟩
    have hnil : (run env (events ++ cs.map .dispatch) (.empty, .boot tasks)).1.pending = [] := by
      rw [happ]
      exact List.eq_nil_of_length_eq_zero (by have := length_le_slots cs; omega)
    have hall := (honce (events ++ cs.map .dispatch)).2
    rwa [hnil, List.append_nil, submitted_append_dispatch] at hall

end Drain

end CerynthOS.Scx
