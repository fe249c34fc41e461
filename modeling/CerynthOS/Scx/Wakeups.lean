import CerynthOS.Schemes.History
import CerynthOS.Scx.Steps

/-! The user-space scheduler gets its CPU.

    A dispatch first asks whether the user-space scheduler is needed: the heartbeat has rung, tasks
    are scheduled or the queued ring has data. Asking takes the flag of the heartbeat back, and user
    space reports after each pass that nothing is scheduled. So the answer says whether a record is
    unread, or the heartbeat has rung since the last dispatch that came this far. -/

namespace CerynthOS.Scx
open Kernel

variable {ro : Rodata}

/-! ### Where a dispatch looks first -/

namespace Host

variable {s : Host} {pid : Int32} {p : Task}

theorem cpuToDsq_ne (k : Kernel) (cpu : Int32) : (k.cpuToDsq cpu).1 ≠ schedDsq := by
  rw [cpuToDsq_dsq]
  split_ifs with h
  · decide
  · rw [not_or] at h
    intro heq
    have hcpu : cpu.toUInt32.toUInt64.toNat = 1025 := congrArg UInt64.toNat heq
    have h0 : (0 : ℤ) ≤ cpu.toInt := by
      simpa [Int32.lt_iff_toInt_lt] using h.1
    have h1 : cpu.toInt < 1024 := by
      simpa [maxCpus, Int32.le_iff_toInt_le] using h.2
    have hsame : (cpu.toUInt32.toNat : ℤ) = cpu.toInt := by
      change (cpu.toBitVec.toNat : ℤ) = cpu.toBitVec.toInt
      have hpos : (0 : ℤ) ≤ cpu.toBitVec.toInt := h0
      rw [BitVec.toInt_eq_toNat_cond] at hpos ⊢
      have := cpu.toBitVec.isLt
      split_ifs at hpos ⊢ <;> omega
    rw [UInt32.toNat_toUInt64] at hcpu
    omega

theorem dsqMoveToLocal_ne {s' : Host} {d : UInt64} (h : s.dsqMoveToLocal d = some s')
    {d' : UInt64} (hd : d' ≠ d) : s'.dsq d' = s.dsq d' := by
  obtain ⟨taken, -, rfl⟩ := Option.map_eq_some_iff.mp h
  exact Function.update_of_ne hd _ _

theorem replenish_dsq (s : Host) (avail : Bool) (prev : Option (Int32 × Bool)) :
    (s.replenish ro avail prev).dsq = s.dsq := by
  rcases prev with - | ⟨pid, - | -⟩
  · rfl
  · rfl
  · simp only [replenish, if_true]
    split
    · split_ifs <;> rfl
    · split_ifs <;> rfl

/-- The user-space scheduler is needed, and waits in its queue: it is what the CPU takes. -/
theorem afterDrain_pending {avail : Bool} (h : (s.userschedHasPendingTasks avail).1 = true)
    {e : Entry} {rest : List Entry} (hw : (s.dsq schedDsq).waiting = e :: rest) (cpu : Int32)
    (prev : Option (Int32 × Bool)) : (s.afterDrain ro cpu avail prev).dsq =
      Function.update s.dsq schedDsq
        { s.dsq schedDsq with waiting := rest, taken := (s.dsq schedDsq).taken ++ [e] } := by
  have htake : Host.dsqMoveToLocal (s.userschedHasPendingTasks avail).2 schedDsq =
      some ((s.userschedHasPendingTasks avail).2.setDsq schedDsq
        { s.dsq schedDsq with waiting := rest, taken := (s.dsq schedDsq).taken ++ [e] }) := by
    change ((s.dsq schedDsq).take.map _) = _
    rw [KeyQueue.take, hw]
    rfl
  simp only [afterDrain, h, if_true, htake]
  rfl

/-- Nobody needs the user-space scheduler: the CPU leaves it where it is. -/
theorem afterDrain_idle {avail : Bool} (h : (s.userschedHasPendingTasks avail).1 = false)
    (cpu : Int32) (prev : Option (Int32 × Bool)) :
    (s.afterDrain ro cpu avail prev).dsq schedDsq = s.dsq schedDsq := by
  simp only [afterDrain, h, if_false, Bool.false_eq_true]
  split
  · next s' hs => exact dsqMoveToLocal_ne hs (cpuToDsq_ne _ cpu).symm
  · cases hs : Host.dsqMoveToLocal _ sharedDsq with
    | some s' => exact dsqMoveToLocal_ne hs (by decide)
    | none =>
      rw [Option.getD_none, replenish_dsq]
      rfl

end Host

/-! ### Where the drain puts its tasks -/

theorem target_ne (p : Task) (task : DispatchedTask) : target p task ≠ schedDsq := by
  rw [target]
  by_cases hany : task.cpu = rlCpuAny
  · rw [if_pos hany]
    decide
  · rw [if_neg hany]
    dsimp only
    rw [← cpuToDsq_dsq (.boot fun _ => none)]
    exact Host.cpuToDsq_ne _ _

theorem entriesFrom_ne {n : ℕ} {handovers : List (Tasks × DispatchedTask)} {e : Entry}
    (he : e ∈ entriesFrom n handovers) : e.insertion.dsq ≠ schedDsq := by
  induction handovers generalizing n with
  | nil => exact absurd he List.not_mem_nil
  | cons handover handovers ih =>
    rw [entriesFrom] at he
    split at he
    · next i hi =>
      rcases List.mem_cons.mp he with rfl | he
      · obtain ⟨p, -, rfl⟩ := Option.map_eq_some_iff.mp hi
        exact target_ne p handover.2
      · exact ih he
    · exact ih he

/-- What is put in the queues takes nothing out, and the queue of the scheduler is left alone. -/
theorem flushTo_ne {entries : List Entry} (h : ∀ e ∈ entries, e.insertion.dsq ≠ schedDsq)
    (dsq : Queues) : flushTo dsq entries schedDsq = dsq schedDsq ∧
      ∀ d, (flushTo dsq entries d).taken = (dsq d).taken := by
  induction entries generalizing dsq with
  | nil => exact ⟨rfl, fun _ => rfl⟩
  | cons e entries ih =>
    obtain ⟨hsched, htaken⟩ := ih (fun e' he' => h e' (List.mem_cons_of_mem _ he'))
      (Function.update dsq e.insertion.dsq ((dsq e.insertion.dsq).insert Entry.vtime e))
    refine ⟨hsched.trans (Function.update_of_ne (h e List.mem_cons_self).symm _ _), fun d => ?_⟩
    refine (htaken d).trans ?_
    by_cases hd : d = e.insertion.dsq
    · rw [hd, Function.update_self]
      rfl
    · rw [Function.update_of_ne hd]

/-! ### The heartbeat -/

theorem toInt64_sub_pos {before after : UInt64} (hb : before.toNat < 2 ^ 63)
    (ha : after.toNat < 2 ^ 63) : (after - before).toInt64 > 0 ↔ before.toNat < after.toNat := by
  rw [gt_iff_lt, Int64.lt_iff_toInt_lt]
  change (0 : ℤ) < (after.toBitVec - before.toBitVec).toInt ↔ _
  rw [BitVec.toInt_sub, BitVec.toInt_eq_toNat_of_lt (by simpa using by omega),
    BitVec.toInt_eq_toNat_of_lt (by simpa using by omega)]
  change 0 < ((after.toNat : ℤ) - before.toNat).bmod (2 ^ 64) ↔ _
  rw [Int.bmod_eq_of_le (by omega) (by omega)]
  omega

/-- As long as the clock stays below 2^63 nanoseconds, the delta compares times as they are. -/
theorem timeDelta_ge {before after : UInt64} (hb : before.toNat < 2 ^ 63)
    (ha : after.toNat < 2 ^ 63) : timeDelta after before ≥ userschedTimerNs ↔
      before.toNat + userschedTimerNs.toNat ≤ after.toNat := by
  have hsec : userschedTimerNs.toNat = 1000000000 := rfl
  rw [timeDelta, ge_iff_le, UInt64.le_iff_toNat_le]
  split_ifs with hpos
  · rw [toInt64_sub_pos hb ha] at hpos
    rw [UInt64.toNat_sub_of_le _ _ (UInt64.le_iff_toNat_le.mpr hpos.le)]
    omega
  · rw [toInt64_sub_pos hb ha] at hpos
    rw [hsec]
    change 1000000000 ≤ 0 ↔ _
    omega

namespace Live

variable {s : Live}

/-- The time that an event reads off the clock of the kernel. -/
def Event.now : Event → UInt64
  | .running _ now => now
  | .stopping _ now => now
  | .timer now => now
  | _ => 0

/-- The event is a dispatch that comes to its question whether the scheduler is needed. -/
def asks (s : Live) : Event → Bool
  | .leave _ _ =>
    match s.draining with
    | none => false
    | some drain => drain.stopped || s.ring.pending.isEmpty
  | .bypass _ _ => s.draining.isSome
  | _ => false

/-- The event is a heartbeat that finds the user-space scheduler idle for a full period. -/
def rings (ro : Rodata) (s : Live) : Event → Bool
  | .timer now => (s.userschedLastRunAt.toNat + userschedTimerNs.toNat ≤ now.toNat) &&
    (s.kernel.tasks ro.userschedPid).isSome
  | _ => false

/-- The clock is sane, and user space has nothing scheduled. -/
structure Clocked (s : Live) : Prop where
  lastRun : s.userschedLastRunAt.toNat < 2 ^ 63
  nrScheduled : s.sched.bpf.nrScheduled = 0

theorem finish_core (s : Live) (cpu : Int32) (prev : Option (Int32 × Bool)) :
    (s.finish ro cpu prev).userschedNeeded = false ∧
    (s.finish ro cpu prev).sched.bpf.nrScheduled = s.sched.bpf.nrScheduled := by
  have h : (s.toHost.afterDrain ro cpu (!s.unread.isEmpty) prev).core = (false, s.sched.core) :=
    s.toHost.afterDrain_core cpu _ prev
  exact ⟨congrArg (·.1) h, congrArg (·.2.2.1.1) h⟩

theorem user_nrScheduled (h : s.sched.bpf.nrScheduled = 0) (answers : Rings) :
    (s.user answers).sched.bpf.nrScheduled = 0 := by
  rw [user]
  split
  · next tasks hphase =>
    have hcount : ∀ (sched : Scheduler) (n : UInt64),
        (sched.countBatch n).bpf.nrScheduled = sched.bpf.nrScheduled :=
      fun sched n => congrArg (·.nrScheduled) (Scheduler.countBatch_spec sched n).1
    simp only [consume, BpfScheduler.dequeueTask]
    split_ifs
    · exact (hcount _ _).trans h
    · cases answers.consume s.sched.bpf.consumeCalls with
      | empty => exact (hcount _ _).trans h
      | record task => exact h
      | error res => exact (hcount _ _).trans h
  · rfl
  · next task tasks hphase =>
    simp only [submit, setSched, Scheduler.dispatchOne, BpfScheduler.dispatchTask]
    split_ifs <;> exact h

/-- A step that neither asks nor rings. -/
theorem Clocked.still (h : Clocked s) {s' : Live} {part : Part} (hframe : Frame s part s')
    (huser : part ≠ .user) (hflag : part ≠ .flag) (hstarts : part ≠ .starts) :
    s'.userschedNeeded = (!false && (s.userschedNeeded || false)) ∧ Clocked s' := by
  have hcore := congrArg (·.2.1.1) (hframe.waits huser).2
  rw [Bool.or_false, Bool.not_false, Bool.true_and]
  exact ⟨hframe.needed hflag, by rw [hframe.lastRun hstarts]; exact h.lastRun,
    hcore.trans h.nrScheduled⟩

theorem Clocked.asks (h : Clocked s) (cpu : Int32) (prev : Option (Int32 × Bool)) (b : Bool) :
    (s.finish ro cpu prev).userschedNeeded = (!true && b) ∧ Clocked (s.finish ro cpu prev) :=
  ⟨(s.finish_core cpu prev).1, h.lastRun, (s.finish_core cpu prev).2.trans h.nrScheduled⟩

theorem Clocked.running (h : Clocked s) (pid : Int32) (p : Task) {now : UInt64}
    (hnow : now.toNat < 2 ^ 63) : (s.running ro pid p now).userschedNeeded = s.userschedNeeded ∧
      Clocked (s.running ro pid p now) := by
  rw [Live.running]
  split_ifs
  · exact ⟨rfl, hnow, h.nrScheduled⟩
  · cases p.ctx <;> exact ⟨rfl, h.lastRun, h.nrScheduled⟩

theorem Clocked.timer (h : Clocked s) {now : UInt64} (hnow : now.toNat < 2 ^ 63) :
    (s.timer ro now).userschedNeeded = (s.userschedNeeded || s.rings ro (.timer now)) ∧
      Clocked (s.timer ro now) := by
  rw [Live.timer, rings]
  split_ifs with hidle <;> rw [timeDelta_ge h.lastRun hnow] at hidle
  · rw [decide_eq_true hidle, Bool.true_and]
    cases s.kernel.tasks ro.userschedPid with
    | none => exact ⟨(Bool.or_false _).symm, h⟩
    | some p => exact ⟨(Bool.or_true _).symm, h.lastRun, h.nrScheduled⟩
  · rw [decide_eq_false hidle, Bool.false_and, Bool.or_false]
    exact ⟨rfl, h⟩

/-- What a step does to the flag: a dispatch that asks takes it back, a heartbeat raises it. -/
theorem step_needed (ro : Rodata) (h : Clocked s) (event : Event)
    (hnow : event.now.toNat < 2 ^ 63) :
    (s.step ro event).userschedNeeded =
      (!s.asks event && (s.userschedNeeded || s.rings ro event)) ∧
    Clocked (s.step ro event) := by
  have hframe := s.step_frame ro event
  cases event with
  | user error granted =>
    rw [Event.part] at hframe
    refine ⟨?_, ?_, user_nrScheduled h.nrScheduled _⟩
    · rw [hframe.needed (by simp)]
      simp [Live.asks, rings]
    · rw [hframe.lastRun (by simp)]
      exact h.lastRun
  | running pid now =>
    rw [show (!s.asks (.running pid now) && (s.userschedNeeded || s.rings ro (.running pid now)))
      = s.userschedNeeded from (Bool.true_and _).trans (Bool.or_false _), step]
    split
    · exact ⟨rfl, h⟩
    · exact h.running pid _ hnow
  | timer now => exact h.timer hnow
  | leave cpu prev =>
    rw [step, leave, Live.asks]
    cases hdrain : s.draining with
    | none => exact h.still (s.frame_refl .other) (by simp) (by simp) (by simp)
    | some drain =>
      dsimp only
      split_ifs with hdone
      · rw [hdone]
        have hflushed : Clocked (s.flushed drain) := ⟨h.lastRun, h.nrScheduled⟩
        exact hflushed.asks cpu prev _
      · rw [Bool.eq_false_of_not_eq_true hdone]
        exact h.still (s.frame_refl .other) (by simp) (by simp) (by simp)
  | bypass cpu prev =>
    rw [step, bypass, Live.asks]
    cases s.draining with
    | none => exact h.still (s.frame_refl .other) (by simp) (by simp) (by simp)
    | some drain => exact h.asks cpu prev _
  | _ => exact h.still hframe (by simp [Event.part]) (by simp [Event.part]) (by simp [Event.part])

/-- The rest of a dispatch takes the user-space scheduler from its queue if it is needed, and leaves
    it there if not. -/
theorem finish_first (ro : Rodata) (h : s.sched.bpf.nrScheduled = 0) {e : Entry} {rest : List Entry}
    (hw : (s.dsq schedDsq).waiting = e :: rest) (cpu : Int32) (prev : Option (Int32 × Bool)) :
    (s.unread ≠ [] ∨ s.userschedNeeded = true → (s.finish ro cpu prev).dsq =
      Function.update s.dsq schedDsq
        { s.dsq schedDsq with waiting := rest, taken := (s.dsq schedDsq).taken ++ [e] }) ∧
    (¬ (s.unread ≠ [] ∨ s.userschedNeeded = true) →
      (s.finish ro cpu prev).dsq schedDsq = s.dsq schedDsq) := by
  have hasked : (s.toHost.userschedHasPendingTasks (!s.unread.isEmpty)).1 = true ↔
      s.unread ≠ [] ∨ s.userschedNeeded = true := by
    simp only [Host.userschedHasPendingTasks, h, bne_self_eq_false, Bool.or_false, Bool.or_eq_true,
      Bool.not_eq_true', List.isEmpty_eq_false_iff]
    exact or_comm
  refine ⟨fun hneed => Host.afterDrain_pending (hasked.mpr hneed) hw cpu prev, fun hidle => ?_⟩
  exact Host.afterDrain_idle (Bool.eq_false_of_not_eq_true (mt hasked.mp hidle)) cpu prev

/-- A drain that is over has put its tasks in other queues than that of the scheduler. -/
theorem flushed_queues (s : Live) (drain : OpenDrain) :
    (s.flushed drain).dsq schedDsq = s.dsq schedDsq ∧
    ∀ d, ((s.flushed drain).dsq d).taken = (s.dsq d).taken :=
  flushTo_ne (fun _ => entriesFrom_ne) s.dsq

/-- In any run, when a dispatch comes to its question while the user-space scheduler waits in its
    queue, the CPU takes it before any other task if a record is unread, or a heartbeat has found it
    idle since the last dispatch that asked, and leaves it where it is if neither is the case. -/
theorem scheduler_first (ro : Rodata) (pid : UInt32) (startedAtMs : UInt64) (profile : Profile)
    (events : List Event) (last : Event) (hclock : ∀ event ∈ events, event.now.toNat < 2 ^ 63) :
    let s := (boot pid startedAtMs profile).run ro events
    let needed := s.unread ≠ [] ∨
      Raised (step ro) (rings ro) asks (boot pid startedAtMs profile) events
    s.asks last = true → ∀ e rest, (s.dsq schedDsq).waiting = e :: rest →
    (needed → (s.step ro last).dsq schedDsq =
        { s.dsq schedDsq with waiting := rest, taken := (s.dsq schedDsq).taken ++ [e] } ∧
      ∀ d ≠ schedDsq, ((s.step ro last).dsq d).taken = (s.dsq d).taken) ∧
    (¬ needed → (s.step ro last).dsq schedDsq = s.dsq schedDsq) := by
  intro s needed hasks e rest hw
  have hboot : Clocked (boot pid startedAtMs profile) := ⟨Nat.two_pow_pos 63, rfl⟩
  obtain ⟨hflag, hclocked⟩ := flag_iff (fun s : Live => s.userschedNeeded)
    (fun s event h hnow => step_needed ro h event hnow) rfl hboot hclock
  have hscheduled : s.sched.bpf.nrScheduled = 0 := hclocked.nrScheduled
  have hneeded : needed ↔ s.unread ≠ [] ∨ s.userschedNeeded = true := by
    rw [show needed = (s.unread ≠ [] ∨ Raised _ _ _ _ _) from rfl, ← hflag]
    rfl
  rw [hneeded]
  cases last with
  | leave cpu prev =>
    rw [asks] at hasks
    cases hdrain : s.draining with
    | none => simp [hdrain] at hasks
    | some drain =>
      rw [hdrain] at hasks
      have hstep : s.step ro (.leave cpu prev) = (s.flushed drain).finish ro cpu prev := by
        simp only [step, leave, hdrain, if_pos hasks]
      obtain ⟨hsched, htaken⟩ := flushed_queues s drain
      have hw' : ((s.flushed drain).dsq schedDsq).waiting = e :: rest := by rw [hsched, hw]
      obtain ⟨hfirst, hidle⟩ := finish_first ro (s := s.flushed drain) hscheduled hw' cpu prev
      rw [hstep]
      refine ⟨fun hneed => ?_, fun hno => (hidle hno).trans hsched⟩
      rw [hfirst hneed, Function.update_self, hsched]
      refine ⟨rfl, fun d hd => ?_⟩
      rw [Function.update_of_ne hd, htaken]
  | bypass cpu prev =>
    rw [asks] at hasks
    obtain ⟨drain, hdrain⟩ := Option.isSome_iff_exists.mp hasks
    have hstep : s.step ro (.bypass cpu prev) = s.finish ro cpu prev := by
      simp only [step, bypass, hdrain]
    obtain ⟨hfirst, hidle⟩ := finish_first ro hscheduled hw cpu prev
    rw [hstep]
    refine ⟨fun hneed => ?_, hidle⟩
    rw [hfirst hneed, Function.update_self]
    exact ⟨rfl, fun d hd => by rw [Function.update_of_ne hd]⟩
  | _ => cases hasks

/-- The scheduler with pid 900 is enqueued and waits for two seconds. -/
def quietSeconds : List Event :=
  [.initTask 900 ⟨0, fun _ => true, 0, 0, none⟩, .enable 900,
    .enqueue 900 0 ⟨false, false, 1, 100, .replicate 16 0, false, -1, true⟩,
    .timer 2000000000, .enter ⟨512, by decide⟩]

theorem quietSeconds_first :
    ((((boot 1 0 .balanced).run ⟨false, 5000000, 900, 0⟩ quietSeconds).step
      ⟨false, 5000000, 900, 0⟩ (.leave 0 none)).dsq schedDsq).waiting = [] := by
  have hfirst := scheduler_first ⟨false, 5000000, 900, 0⟩ 1 0 .balanced quietSeconds
    (.leave 0 none) (by decide) rfl _ [] rfl
  have hnever : Never (step ⟨false, 5000000, 900, 0⟩) asks
      ((boot 1 0 .balanced).run ⟨false, 5000000, 900, 0⟩ (quietSeconds.take 3))
      ([.timer 2000000000] ++ [.enter ⟨512, by decide⟩]) :=
    never_concat.mpr ⟨never_singleton.mpr rfl, rfl⟩
  have hrung : Raised (step ⟨false, 5000000, 900, 0⟩) (rings ⟨false, 5000000, 900, 0⟩) asks
      (boot 1 0 .balanced) quietSeconds :=
    ⟨quietSeconds.take 3, .timer 2000000000, [.enter ⟨512, by decide⟩], rfl, rfl,
      hnever⟩
  rw [(hfirst.1 (.inr hrung)).1]

end Live

end CerynthOS.Scx
