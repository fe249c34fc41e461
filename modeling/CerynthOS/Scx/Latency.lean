import CerynthOS.Schemes.Progress
import CerynthOS.Scx.Custody

/-! No record waits forever.

    A pass reads up to a batch of records, so a record is read within as many passes as there are
    batches before it, and one pass later user space has let go of it. A drain hands over at least
    one record, so a record in the user ring is handed over within as many drains as there are
    records before it. Whatever else happens in between costs nothing. -/

namespace CerynthOS.Scx
open Kernel

namespace Live

variable {ro : Rodata} {s s' : Live}

/-- A read of the queued ring does not fail. -/
def Event.Faultless : Event → Prop
  | .user error _ => error = none
  | _ => True

/-! ### What only grows -/

/-- Records are added behind those there were, and none is taken back. -/
structure Grows (s s' : Live) : Prop where
  queued : s.queued <+: s'.queued
  records : s.ring.records <+: s'.ring.records
  consumed : s.ring.consumed ≤ s'.ring.consumed
  refused : s.refused <+: s'.refused

theorem Grows.refl (s : Live) : Grows s s :=
  ⟨List.prefix_rfl, List.prefix_rfl, le_rfl, List.prefix_rfl⟩

theorem Grows.trans {s'' : Live} (h : Grows s s') (h' : Grows s' s'') : Grows s s'' :=
  ⟨h.queued.trans h'.queued, h.records.trans h'.records, h.consumed.trans h'.consumed,
    h.refused.trans h'.refused⟩

theorem Host.Kept.grows (hk : Host.Kept s.toHost s'.toHost) (hqueued : s.queued <+: s'.queued)
    (hrefused : s'.refused = s.refused) : Grows s s' := by
  have hring : s'.ring = s.ring := hk.ring
  exact ⟨hqueued, by rw [hring], by rw [hring], by rw [hrefused]⟩

theorem submit_grows (s : Live) (task : QueuedTask) (tasks : List QueuedTask) (rings : Rings) :
    Grows s (s.submit task tasks rings) := by
  by_cases hreserve : rings.reserve s.sched.bpf.reserveCalls = true
  · obtain ⟨hring, hrefused, -⟩ := s.submit_granted task tasks hreserve
    exact ⟨List.prefix_rfl, by simp [hring], by simp [hring], by rw [hrefused]⟩
  · obtain ⟨hring, hrefused, -⟩ := s.submit_refused task tasks hreserve
    exact ⟨List.prefix_rfl, by rw [hring], by rw [hring], by simp [hrefused]⟩

theorem user_grows (s : Live) (rings : Rings) : Grows s (s.user rings) := by
  rw [user]
  split
  · next tasks hphase =>
    obtain ⟨hframe, hring, hrefused, -⟩ := s.consume_frame tasks rings
    exact ⟨by rw [hframe.queued], by rw [hring], by rw [hring], by rw [hrefused]⟩
  · exact ⟨List.prefix_rfl, List.prefix_rfl, le_rfl, List.prefix_rfl⟩
  · exact s.submit_grows _ _ rings

theorem handOver_grows (s : Live) (idleCpu : Task → Int32) : Grows s (s.handOver idleCpu) := by
  rw [handOver]
  split
  · next drain task rest hdrain hpending =>
    split_ifs
    · exact .refl s
    · refine ⟨List.prefix_rfl, List.prefix_rfl, ?_, List.prefix_rfl⟩
      change s.ring.consumed ≤ s.ring.advance.consumed
      rw [RingBuffer.advance_consumed hpending]
      exact Nat.le_succ _
  · exact .refl s

theorem Stepped.grows {event : Event} (hs : Stepped ro s event s') : Grows s s' := by
  cases hs with
  | user error granted => exact s.user_grows _
  | silent _ aside host => exact Host.Kept.grows host.toKept (by rw [host.queued]) aside.refused
  | announces _ aside host =>
    exact Host.Kept.grows host.toKept ⟨_, host.queued.symm⟩ aside.refused
  | books _ books => exact Host.Kept.grows books.toKept (by rw [books.queued]) books.refused
  | fork pid p => exact ⟨List.prefix_rfl, List.prefix_rfl, le_rfl, List.prefix_rfl⟩
  | exit pid => exact ⟨List.prefix_rfl, List.prefix_rfl, le_rfl, List.prefix_rfl⟩
  | enter c free =>
    rw [Live.enter, free]
    exact ⟨List.prefix_rfl, List.prefix_rfl, le_rfl, List.prefix_rfl⟩
  | handOver idleCpu => exact s.handOver_grows idleCpu
  | leave cpu prev begun done after =>
    rename_i drain host
    have hhost : Grows (s.flushed drain) ((s.flushed drain).setHost host) :=
      Host.Kept.grows after.toKept
        (by rw [show ((s.flushed drain).setHost host).queued = _ from after.queued]) rfl
    exact ⟨hhost.queued, hhost.records, hhost.consumed, hhost.refused⟩

theorem run_grows (s : Live) (events : List Event) : Grows s (s.run ro events) := by
  induction events generalizing s with
  | nil => exact .refl s
  | cons event events ih => exact (s.step_stepped ro event).grows.trans (ih _)

/-! ### Passes -/

/-- How many passes it takes until user space has let go of record `p`. -/
def passesLeft (p : ℕ) (s : Live) : ℕ :=
  if p < s.settled then 0
  else
    match s.phase with
    | .reading _ => (p - s.settled) / maxBatch + 1
    | .sending _ => if p < s.read then 1 else (p - s.read) / maxBatch + 2

theorem passesLeft_le (p : ℕ) (h : s.settled ≤ s.read) :
    passesLeft p s ≤ (p - s.settled) / maxBatch + 2 := by
  rw [passesLeft, show maxBatch = 64 from rfl]
  split
  · exact Nat.zero_le _
  · split
    · omega
    · split_ifs <;> omega

theorem lt_settled_of_passesLeft {p : ℕ} (h : passesLeft p s = 0) : p < s.settled := by
  rw [passesLeft] at h
  split at h
  · assumption
  · split at h
    · exact absurd h (Nat.succ_ne_zero _)
    · split_ifs at h

theorem passesLeft_congr {p : ℕ} (hw : Waits s s') : passesLeft p s' = passesLeft p s := by
  rw [passesLeft, passesLeft, hw.settled, hw.phase, hw.read]

/-- A batch that is full or has read the record. -/
theorem startSending_pays {p : ℕ} {tasks : List QueuedTask} (hphase : s.phase = .reading tasks)
    (hbatch : s.settled + tasks.length = s.read) (h : maxBatch ≤ tasks.length ∨ p < s.read) :
    passesLeft p (s.startSending tasks) ≤ passesLeft p s := by
  have h64 : maxBatch = 64 := rfl
  rw [passesLeft, passesLeft, hphase]
  change (if p < s.settled then 0 else if p < s.read then 1 else (p - s.read) / maxBatch + 2) ≤ _
  rw [h64] at h ⊢
  dsimp only
  split_ifs <;> omega

theorem consume_pays {p : ℕ} {tasks : List QueuedTask} (h : Custody s)
    (hphase : s.phase = .reading tasks) (hp : p < s.queued.length) (granted : Bool) :
    passesLeft p (s.consume tasks (s.answers none granted)) ≤ passesLeft p s := by
  have hbatch := h.batch tasks hphase
  simp only [consume, BpfScheduler.dequeueTask, answers]
  split_ifs with hfull
  · exact startSending_pays hphase hbatch (.inl hfull)
  · cases hunread : s.unread with
    | nil =>
      have hread : p < s.read := by
        rw [unread, List.drop_eq_nil_iff] at hunread
        omega
      simp only [found, hunread]
      exact startSending_pays hphase hbatch (.inr hread)
    | cons task rest =>
      simp only [found, hunread, passesLeft, hphase]
      exact le_rfl

theorem complete_pays {p : ℕ} (h : Custody s) (hphase : s.phase = .sending []) :
    passesLeft p s.complete ≤ passesLeft p s - 1 := by
  have hle := h.settled_le
  have h64 : maxBatch = 64 := rfl
  simp only [passesLeft, hphase, complete, h64]
  by_cases hread : p < s.read
  · simp [hread]
  · rw [if_neg hread, if_neg (show ¬ p < s.settled by omega), if_neg hread]
    omega

/-- User space works a record off, unless a read fails. -/
theorem user_pays {p : ℕ} (h : Custody s) (hp : p < s.queued.length) (granted : Bool) :
    s.passes ≤ (s.user (s.answers none granted)).passes ∧
      passesLeft p (s.user (s.answers none granted)) ≤
        passesLeft p s - ((s.user (s.answers none granted)).passes - s.passes) := by
  rw [user]
  split
  · next tasks hphase =>
    obtain ⟨-, -, -, hpasses⟩ := s.consume_frame tasks (s.answers none granted)
    rw [hpasses, Nat.sub_self, Nat.sub_zero]
    exact ⟨le_rfl, consume_pays h hphase hp granted⟩
  · next hphase =>
    have hpasses : s.complete.passes = s.passes + 1 := rfl
    rw [hpasses, Nat.add_sub_cancel_left]
    exact ⟨Nat.le_succ _, complete_pays h hphase⟩
  · next task tasks hphase =>
    have hpasses : (s.submit task tasks (s.answers none granted)).passes = s.passes := rfl
    rw [hpasses, Nat.sub_self, Nat.sub_zero, passesLeft, passesLeft, hphase]
    exact ⟨le_rfl, le_rfl⟩

/-- What is known of a state when record `p` has been sent to user space. -/
def Awaits (p : ℕ) (s : Live) : Prop := Custody s ∧ p < s.queued.length

theorem passes_pay (ro : Rodata) (p : ℕ) :
    Pays (step ro) (Awaits p) Event.Faultless (passesLeft p) Live.passes := by
  rintro s event ⟨h, hp⟩ hfaultless
  have hs := s.step_stepped ro event
  refine ⟨⟨h.stepped hs, hp.trans_le hs.grows.queued.length_le⟩, ?_⟩
  have hwaits : ∀ s' : Live, Waits s s' → s.passes ≤ s'.passes ∧
      passesLeft p s' ≤ passesLeft p s - (s'.passes - s.passes) := by
    intro s' hw
    rw [hw.passes, passesLeft_congr hw, Nat.sub_self, Nat.sub_zero]
    exact ⟨le_rfl, le_rfl⟩
  generalize s.step ro event = s' at hs
  cases hs with
  | user error granted =>
    obtain rfl : error = none := hfaultless
    exact user_pays h hp granted
  | silent _ aside host => exact hwaits s' aside.toWaits
  | announces _ aside host => exact hwaits s' aside.toWaits
  | books _ books => exact hwaits s' books.toWaits
  | fork pid p => exact hwaits _ ⟨rfl, rfl, rfl, rfl, rfl⟩
  | exit pid => exact hwaits _ ⟨rfl, rfl, rfl, rfl, rfl⟩
  | enter c free =>
    refine hwaits _ ?_
    rw [Live.enter, free]
    exact ⟨rfl, rfl, rfl, rfl, rfl⟩
  | handOver idleCpu =>
    refine hwaits _ ?_
    rw [Live.handOver]
    split
    · split_ifs <;> exact ⟨rfl, rfl, rfl, rfl, rfl⟩
    · exact ⟨rfl, rfl, rfl, rfl, rfl⟩
  | leave cpu prev begun done after => exact hwaits _ ⟨rfl, rfl, rfl, rfl, rfl⟩

/-! ### Drains -/

/-- How many drains it takes until the first `n` records of the user ring are handed over. -/
def drainsLeft (n : ℕ) (s : Live) : ℕ :=
  match s.draining with
  | none => n - s.ring.consumed
  | some drain =>
    if n ≤ s.ring.consumed then 0
    else if drain.first < s.ring.consumed then n - s.ring.consumed + 1 else n - s.ring.consumed

theorem drainsLeft_le (n : ℕ) (s : Live) : drainsLeft n s ≤ n - s.ring.consumed + 1 := by
  rw [drainsLeft]
  split
  · exact Nat.le_succ _
  · split_ifs <;> omega

theorem le_consumed_of_drainsLeft {n : ℕ} (h : drainsLeft n s = 0) : n ≤ s.ring.consumed := by
  rw [drainsLeft] at h
  split at h
  · omega
  · split_ifs at h <;> omega

/-- The first `n` records have been sent, and a drain that has stopped has handed one over. -/
structure Draining (n : ℕ) (s : Live) : Prop where
  sent : n ≤ s.ring.records.length
  first_le : ∀ drain, s.draining = some drain → drain.first ≤ s.ring.consumed
  stopped : ∀ drain, s.draining = some drain → drain.stopped = true →
    drain.first < s.ring.consumed

/-- The drain is where it was. -/
theorem Draining.aside {n : ℕ} (h : Draining n s) (hrecords : s.ring.records <+: s'.ring.records)
    (hconsumed : s'.ring.consumed = s.ring.consumed) (hdraining : s'.draining = s.draining)
    (hdrains : s'.drains = s.drains) :
    Draining n s' ∧ s.drains ≤ s'.drains ∧
      drainsLeft n s' ≤ drainsLeft n s - (s'.drains - s.drains) := by
  rw [drainsLeft, drainsLeft, hconsumed, hdraining, hdrains, Nat.sub_self, Nat.sub_zero]
  refine ⟨⟨h.sent.trans hrecords.length_le, ?_, ?_⟩, le_rfl, le_rfl⟩
  · rw [hdraining, hconsumed]
    exact h.first_le
  · rw [hdraining, hconsumed]
    exact h.stopped

theorem Draining.handOver {n : ℕ} (h : Draining n s) (idleCpu : Task → Int32) :
    Draining n (s.handOver idleCpu) ∧ s.drains ≤ (s.handOver idleCpu).drains ∧
      drainsLeft n (s.handOver idleCpu) ≤
        drainsLeft n s - ((s.handOver idleCpu).drains - s.drains) := by
  have hrefl := h.aside List.prefix_rfl rfl rfl rfl
  rw [Live.handOver]
  split
  · next drain task rest hdrain hpending =>
    split_ifs
    · exact hrefl
    · -- one more record is handed over, and the drain has not ended
      have hfirst := h.first_le drain hdrain
      have hnext := RingBuffer.advance_consumed hpending
      have hleft : drainsLeft n s = if n ≤ s.ring.consumed then 0
          else if drain.first < s.ring.consumed then n - s.ring.consumed + 1
          else n - s.ring.consumed := by
        rw [drainsLeft, hdrain]
      refine ⟨⟨h.sent, ?_, ?_⟩, le_rfl, ?_⟩
      · rintro _ ⟨⟩
        change drain.first ≤ s.ring.advance.consumed
        omega
      · rintro _ ⟨⟩ -
        change drain.first < s.ring.advance.consumed
        omega
      · change (if n ≤ s.ring.advance.consumed then 0
          else if drain.first < s.ring.advance.consumed then n - s.ring.advance.consumed + 1
          else n - s.ring.advance.consumed) ≤ drainsLeft n s - (s.drains - s.drains)
        rw [hleft, hnext]
        split_ifs <;> omega
  · exact hrefl

theorem drains_pay (ro : Rodata) (n : ℕ) :
    Pays (step ro) (Draining n) (fun _ => True) (drainsLeft n) Live.drains := by
  intro s event h _
  have hs := s.step_stepped ro event
  have hgrows := hs.grows
  generalize s.step ro event = s' at hs hgrows
  have hkept : ∀ {host host' : Host}, Host.Kept host host' → host'.ring.consumed =
      host.ring.consumed := fun hk => congrArg (·.consumed) hk.ring
  cases hs with
  | user error granted =>
    have huser := s.user_frame (s.answers error granted)
    exact h.aside hgrows.records huser.consumed huser.draining huser.drains
  | silent _ aside host =>
    exact h.aside hgrows.records (hkept host.toKept) aside.draining aside.drains
  | announces _ aside host =>
    exact h.aside hgrows.records (hkept host.toKept) aside.draining aside.drains
  | books _ books =>
    exact h.aside hgrows.records (hkept books.toKept) books.draining books.drains
  | fork pid p => exact h.aside hgrows.records rfl rfl rfl
  | exit pid => exact h.aside hgrows.records rfl rfl rfl
  | enter c free =>
    rw [Live.enter, free]
    refine ⟨⟨h.sent, ?_, ?_⟩, le_rfl, ?_⟩
    · rintro _ ⟨⟩
      exact le_rfl
    · rintro _ ⟨⟩ ⟨⟩
    · rw [drainsLeft, drainsLeft, free]
      change (if n ≤ s.ring.consumed then 0 else if s.ring.consumed < s.ring.consumed then _
        else n - s.ring.consumed) ≤ n - s.ring.consumed - (s.drains - s.drains)
      rw [if_neg (lt_irrefl _)]
      split_ifs <;> omega
  | handOver idleCpu => exact h.handOver idleCpu
  | leave cpu prev begun done after =>
    rename_i drain host
    have hring : ((s.flushed drain).setHost host).ring.consumed = s.ring.consumed :=
      congrArg (·.consumed) after.ring
    have hleft : drainsLeft n s = if n ≤ s.ring.consumed then 0
        else if drain.first < s.ring.consumed then n - s.ring.consumed + 1
        else n - s.ring.consumed := by
      rw [drainsLeft, begun]
    have hdone : n ≤ s.ring.consumed ∨ drain.first < s.ring.consumed := by
      rcases done with hstopped | hempty
      · exact .inr (h.stopped drain begun hstopped)
      · rw [RingBuffer.pending, List.drop_eq_nil_iff] at hempty
        exact .inl (h.sent.trans hempty)
    refine ⟨⟨h.sent.trans hgrows.records.length_le, ?_, ?_⟩, Nat.le_succ _, ?_⟩
    · rintro _ ⟨⟩
    · rintro _ ⟨⟩
    · change n - ((s.flushed drain).setHost host).ring.consumed ≤
        drainsLeft n s - (s.drains + 1 - s.drains)
      rw [hring, hleft]
      split_ifs <;> omega

theorem draining_boot (pid : UInt32) (startedAtMs : UInt64) (profile : Profile) :
    Draining 0 (boot pid startedAtMs profile) := by
  refine ⟨Nat.zero_le _, ?_, ?_⟩
  · rintro _ ⟨⟩
  · rintro _ ⟨⟩

/-- The drain is fit to hand over everything that is in the ring. -/
theorem Draining.run (h : Draining 0 s) (events : List Event) :
    Draining (s.run ro events).ring.records.length (s.run ro events) := by
  have hrun : Draining 0 (s.run ro events) :=
    ((drains_pay ro 0).run h fun _ _ => trivial).1
  exact ⟨le_rfl, hrun.first_le, hrun.stopped⟩

/-! ### From the queued ring to `dispatch_task` -/

/-- Take any record that was sent to user space. Once user space has completed as many passes as
    there are batches before it, and two more, and the kernel then as many drains as there are
    records in the user ring, and one more, it has been handed to `dispatch_task` or was refused,
    whatever else has happened in between. -/
theorem handed_within (ro : Rodata) (pid : UInt32) (startedAtMs : UInt64) (profile : Profile)
    (events reading draining : List Event) :
    let s := (boot pid startedAtMs profile).run ro events
    let s' := s.run ro reading
    let s'' := s'.run ro draining
    ∀ p < s.queued.length, (∀ event ∈ reading, event.Faultless) →
      s.passes + (p - s.settled) / maxBatch + 2 ≤ s'.passes →
      s'.drains + s'.ring.pending.length + 1 ≤ s''.drains →
      ((s.queued.take (p + 1)).map DispatchedTask.new).Subperm
        (s''.kernel.delivered ++ s''.refused.map .new) := by
  intro s s' s'' p hp hfaultless hpasses hdrains
  have h : Custody s := (custody_boot pid startedAtMs profile).run events
  have h' : Custody s' := h.run reading
  have h'' : Custody s'' := h'.run draining
  have hgrows : Grows s s' := s.run_grows reading
  have hgrows' : Grows s' s'' := s'.run_grows draining
  -- user space has let go of the record
  have hsettled : p < s'.settled := by
    have hle := passesLeft_le p h.settled_le
    refine lt_settled_of_passesLeft ((passes_pay ro p).finished ⟨h, hp⟩ hfaultless ?_)
    change s.passes + passesLeft p s ≤ s'.passes
    omega
  obtain ⟨sent, hrecords, -, hsub⟩ := h'.sent
  have htaken : (s.queued.take (p + 1)).Subperm (sent ++ s'.refused) := by
    have hprefix : s.queued.take (p + 1) <+: s'.queued.take s'.settled :=
      List.prefix_take_iff.mpr ⟨(List.take_prefix _ _).trans hgrows.queued,
        (List.length_take_le _ _).trans hsettled⟩
    exact hprefix.sublist.subperm.trans hsub
  -- and the drains have handed over all that was in the ring
  have hhanded : s'.ring.records <+: s''.kernel.delivered := by
    have hs' : Draining s'.ring.records.length s' := by
      have hrun : Draining _ ((boot pid startedAtMs profile).run ro (events ++ reading)) :=
        (draining_boot pid startedAtMs profile).run (events ++ reading)
      rwa [run_append] at hrun
    have hle := drainsLeft_le s'.ring.records.length s'
    have hpending : s'.ring.pending.length = s'.ring.records.length - s'.ring.consumed :=
      List.length_drop
    have hleft : drainsLeft s'.ring.records.length s'' = 0 := by
      refine (drains_pay ro _).finished hs' (fun _ _ => trivial) ?_
      change s'.drains + drainsLeft s'.ring.records.length s' ≤ s''.drains
      omega
    rw [h''.delivered]
    exact List.prefix_take_iff.mpr ⟨hgrows'.records, le_consumed_of_drainsLeft hleft⟩
  obtain ⟨kept, hperm, hkept⟩ := htaken
  have hmap : (kept.map DispatchedTask.new).Sublist
      (s''.kernel.delivered ++ s''.refused.map .new) := by
    have hnew := hkept.map DispatchedTask.new
    rw [List.map_append, ← hrecords] at hnew
    exact hnew.trans (hhanded.sublist.append (hgrows'.refused.map _).sublist)
  exact ⟨_, hperm.map _, hmap⟩

/-- The idle CPU search is left to user space, whose own pid is 900. -/
def userIdle : Rodata := ⟨false, 5000000, 900, 0⟩

/-- A task is created, joins the scheduler and wakes up. -/
def oneWakeup : List Event :=
  [.initTask 1201 ⟨0, fun _ => true, 0, 0, none⟩, .enable 1201, .runnable 1201,
    .enqueue 1201 1 ⟨false, false, 4, 100, .replicate 16 0, true, -1, true⟩]

/-- Two passes take it from the queued ring to the user ring, and two drains from there. -/
theorem oneWakeup_handed :
    let s := (boot 900 0 .balanced).run userIdle oneWakeup
    let s' := s.run userIdle (.replicate 6 (.user none true))
    let s'' := s'.run userIdle
      [.enter 1, .handOver fun _ => -1, .leave 0 none, .enter 1, .leave 0 none]
    ((s.queued.take 1).map DispatchedTask.new).Subperm
      (s''.kernel.delivered ++ s''.refused.map .new) := by
  refine handed_within userIdle 900 0 .balanced oneWakeup (.replicate 6 (.user none true)) _ 0
    (by decide) (fun event hevent => ?_) (by decide) (by decide)
  rw [List.eq_of_mem_replicate hevent]
  rfl

end Live

end CerynthOS.Scx
