import CerynthOS.Scx.Latency

/-! A pass of user space is atomic.

    `dispatch_tasks` makes up to 130 ring operations, and the kernel goes on between any two of them.
    What comes of the pass is what it computes in one go from the answers it was given: at any moment
    the rest of the pass, done at once, has the same outcome. -/

namespace CerynthOS.Scx
open Kernel

/-! ### The rest of a pass -/

namespace Scheduler

variable (rings : Rings)

/-- The end of `dispatch_tasks`. -/
def completePass (self : Scheduler) : Scheduler :=
  { self with
    bpf := self.bpf.notifyComplete 0
    stats := { self.stats with progressSequence := self.stats.progressSequence + 1 } }

/-- The rest of `dispatch_tasks`, from where user space is. -/
def resume (self : Scheduler) : Phase → Scheduler
  | .reading tasks =>
    let (self, more) := self.dequeueBatch rings (maxBatch - tasks.length)
    let self := self.countBatch (.ofNat (tasks ++ more).length)
    ((orderTasks self.profile (tasks ++ more)).foldl (dispatchOne rings) self).completePass
  | .sending tasks => (tasks.foldl (dispatchOne rings) self).completePass

theorem resume_start (self : Scheduler) :
    self.resume rings (.reading []) = self.dispatchTasks rings := rfl

/-- The first read of the dequeue loop. -/
theorem dequeueBatch_succ (self : Scheduler) (room : ℕ) :
    self.dequeueBatch rings (room + 1) =
      match rings.consume self.bpf.consumeCalls with
      | .empty => ({ self with bpf := { self.bpf with
          nrQueued := 0
          consumeCalls := self.bpf.consumeCalls + 1 } }, [])
      | .record task =>
        let rest := dequeueBatch rings room { self with bpf := { self.bpf with
          nrQueued := Machine.satSub64 self.bpf.nrQueued 1
          consumeCalls := self.bpf.consumeCalls + 1 } }
        (rest.1, task :: rest.2)
      | .error _ => ({ self with
          bpf := { self.bpf with consumeCalls := self.bpf.consumeCalls + 1 }
          stats := { self.stats with dequeueErrors := self.stats.dequeueErrors + 1 } }, []) := by
  rw [dequeueBatch, BpfScheduler.dequeueTask]
  cases rings.consume self.bpf.consumeCalls <;> rfl

variable {rings} {self self' : Scheduler}

/-- What user space goes on to do depends only on what it knows. -/
theorem dequeueBatch_core (rings : Rings) (h : self'.core = self.core) (room : ℕ) :
    (self'.dequeueBatch rings room).1.core = (self.dequeueBatch rings room).1.core ∧
    (self'.dequeueBatch rings room).2 = (self.dequeueBatch rings room).2 := by
  induction room generalizing self self' with
  | zero => exact ⟨h, rfl⟩
  | succ room ih =>
    have hcalls : self'.bpf.consumeCalls = self.bpf.consumeCalls := congrArg (·.2.1.2.1) h
    simp only [core, Prod.mk.injEq] at h
    rw [dequeueBatch_succ, dequeueBatch_succ, hcalls]
    cases rings.consume self.bpf.consumeCalls with
    | empty => exact ⟨by simp [core, h], rfl⟩
    | error res => exact ⟨by simp [core, h], rfl⟩
    | record task =>
      obtain ⟨hself, hmore⟩ := @ih
        { self with bpf := { self.bpf with
          nrQueued := Machine.satSub64 self.bpf.nrQueued 1
          consumeCalls := self.bpf.consumeCalls + 1 } }
        { self' with bpf := { self'.bpf with
          nrQueued := Machine.satSub64 self'.bpf.nrQueued 1
          consumeCalls := self.bpf.consumeCalls + 1 } } (by simp [core, h])
      exact ⟨hself, congrArg (task :: ·) hmore⟩

theorem countBatch_core (h : self'.core = self.core) (n : UInt64) :
    (self'.countBatch n).core = (self.countBatch n).core := by
  simp only [core, Prod.mk.injEq] at h
  simp only [countBatch]
  split_ifs <;> simp [core, h]

theorem dispatchOne_core (h : self'.core = self.core) (task : QueuedTask) :
    (self'.dispatchOne rings task).core = (self.dispatchOne rings task).core := by
  simp only [core, Prod.mk.injEq] at h
  simp only [dispatchOne, BpfScheduler.dispatchTask, h]
  cases rings.reserve self.bpf.reserveCalls <;> simp [core, h, RingBuffer.submit]

theorem dispatchAll_core (h : self'.core = self.core) (tasks : List QueuedTask) :
    (tasks.foldl (dispatchOne rings) self').core = (tasks.foldl (dispatchOne rings) self).core := by
  induction tasks generalizing self self' with
  | nil => exact h
  | cons task tasks ih => exact ih (dispatchOne_core h task)

theorem completePass_core (h : self'.core = self.core) :
    self'.completePass.core = self.completePass.core := by
  simp only [core, Prod.mk.injEq] at h
  simp [completePass, core, h, BpfScheduler.notifyComplete]

theorem resume_core (h : self'.core = self.core) (phase : Phase) :
    (self'.resume rings phase).core = (self.resume rings phase).core := by
  cases phase with
  | reading tasks =>
    obtain ⟨hself, hmore⟩ := dequeueBatch_core rings h (maxBatch - tasks.length)
    simp only [resume, hmore]
    have hcount := countBatch_core hself
      (.ofNat (tasks ++ (self.dequeueBatch rings (maxBatch - tasks.length)).2).length)
    rw [show (countBatch _ _).profile = (countBatch _ _).profile from congrArg (·.2.2.1) hcount]
    exact completePass_core (dispatchAll_core hcount _)
  | sending tasks => exact completePass_core (dispatchAll_core h tasks)

end Scheduler

namespace Live

variable {ro : Rodata} {s : Live} {rings : Rings}

/-! ### What user space is told -/

/-- The answer of the queued ring in this step. -/
def readAt (s : Live) : Event → List Consumed
  | .user error _ =>
    match s.phase with
    | .reading tasks => if maxBatch ≤ tasks.length then [] else [s.found error]
    | .sending _ => []
  | _ => []

/-- The answer of the user ring in this step. -/
def grantAt (s : Live) : Event → List Bool
  | .user _ granted =>
    match s.phase with
    | .sending (_ :: _) => [granted]
    | _ => []
  | _ => []

/-- The rings answer user space only. -/
theorem silent_other (s : Live) {event : Event}
    (h : ∀ error granted, event ≠ .user error granted) :
    s.readAt event = [] ∧ s.grantAt event = [] := by
  cases event <;> first | exact ⟨rfl, rfl⟩ | exact absurd rfl (h _ _)

/-- The answers of the queued ring in a run. -/
def reads (ro : Rodata) : Live → List Event → List Consumed
  | _, [] => []
  | s, event :: events => s.readAt event ++ reads ro (s.step ro event) events

/-- The answers of the user ring in a run. -/
def grants (ro : Rodata) : Live → List Event → List Bool
  | _, [] => []
  | s, event :: events => s.grantAt event ++ grants ro (s.step ro event) events

/-- These are the answers that user space gets. -/
def Told (rings : Rings) (s : Live) (reads : List Consumed) (grants : List Bool) : Prop :=
  (∀ i answer, reads[i]? = some answer →
    rings.consume (s.sched.bpf.consumeCalls + i) = answer) ∧
  ∀ i answer, grants[i]? = some answer →
    rings.reserve (s.sched.bpf.reserveCalls + i) = answer

theorem calls_countBatch (sched : Scheduler) (n : UInt64) :
    (sched.countBatch n).bpf.consumeCalls = sched.bpf.consumeCalls ∧
    (sched.countBatch n).bpf.reserveCalls = sched.bpf.reserveCalls := by
  rw [(Scheduler.countBatch_spec sched n).1]
  exact ⟨rfl, rfl⟩

/-- Each operation has its answer. -/
theorem user_calls (s : Live) (error : Option Int32) (granted : Bool) :
    (s.user (s.answers error granted)).sched.bpf.consumeCalls =
      s.sched.bpf.consumeCalls + (s.readAt (.user error granted)).length ∧
    (s.user (s.answers error granted)).sched.bpf.reserveCalls =
      s.sched.bpf.reserveCalls + (s.grantAt (.user error granted)).length := by
  simp only [user, readAt, grantAt]
  cases hphase : s.phase with
  | reading tasks =>
    dsimp only
    simp only [consume, BpfScheduler.dequeueTask]
    split_ifs with hfull
    · exact calls_countBatch _ _
    · simp only [answers]
      cases s.found error with
      | empty => exact calls_countBatch _ _
      | error res => exact calls_countBatch _ _
      | record task => exact ⟨rfl, rfl⟩
  | sending tasks =>
    cases tasks with
    | nil => exact ⟨rfl, rfl⟩
    | cons task tasks =>
      simp only [submit, setSched, Scheduler.dispatchOne, BpfScheduler.dispatchTask, answers]
      cases granted <;> exact ⟨rfl, rfl⟩

theorem startSending_resume (s : Live) (tasks : List QueuedTask) :
    (s.startSending tasks).sched.resume rings (s.startSending tasks).phase =
      ((orderTasks s.sched.profile tasks).foldl (Scheduler.dispatchOne rings)
        (s.sched.countBatch (.ofNat tasks.length))).completePass := rfl

theorem resume_reading (sched : Scheduler) (tasks more : List QueuedTask) (self : Scheduler)
    (h : sched.dequeueBatch rings (maxBatch - tasks.length) = (self, more)) :
    sched.resume rings (.reading tasks) =
      ((orderTasks self.profile (tasks ++ more)).foldl (Scheduler.dispatchOne rings)
        (self.countBatch (.ofNat (tasks ++ more).length))).completePass := by
  have hprofile : (self.countBatch (.ofNat (tasks ++ more).length)).profile = self.profile :=
    (Scheduler.countBatch_spec self _).2
  simp only [Scheduler.resume, h, hprofile]

/-- In one step of user space the rest of the pass gets shorter, and stays what it was. -/
theorem user_resume (s : Live) (error : Option Int32) (granted : Bool)
    (htold : Told rings s (s.readAt (.user error granted)) (s.grantAt (.user error granted))) :
    let s' := s.user (s.answers error granted)
    s'.passes = s.passes ∧
      s'.sched.resume rings s'.phase = s.sched.resume rings s.phase ∨
    s'.passes = s.passes + 1 ∧ s'.sched = s.sched.resume rings s.phase := by
  intro s'
  obtain ⟨hread, hgrant⟩ := htold
  cases hphase : s.phase with
  | reading tasks =>
    have hs' : s' = s.consume tasks (s.answers error granted) := by
      simp only [s', user, hphase]
    refine .inl ?_
    rw [hs']
    by_cases hfull : maxBatch ≤ tasks.length
    · have hstart : s.consume tasks (s.answers error granted) = s.startSending tasks := by
        rw [consume, if_pos hfull]
      rw [hstart]
      refine ⟨rfl, ?_⟩
      rw [resume_reading s.sched tasks [] s.sched, startSending_resume, List.append_nil]
      rw [Nat.sub_eq_zero_of_le hfull, Scheduler.dequeueBatch]
    · have hanswer : rings.consume s.sched.bpf.consumeCalls = s.found error := by
        refine hread 0 _ ?_
        simp only [readAt, hphase, if_neg hfull, List.getElem?_cons_zero]
      have hone : maxBatch - tasks.length = maxBatch - (tasks.length + 1) + 1 := by omega
      have hbatch := Scheduler.dequeueBatch_succ rings s.sched (maxBatch - (tasks.length + 1))
      rw [hanswer, ← hone] at hbatch
      simp only [consume, if_neg hfull, BpfScheduler.dequeueTask, answers]
      cases hfound : s.found error with
      | empty =>
        rw [hfound] at hbatch
        refine ⟨rfl, (startSending_resume _ tasks).trans ?_⟩
        rw [resume_reading s.sched tasks [] _ hbatch, List.append_nil]
        rfl
      | error res =>
        rw [hfound] at hbatch
        refine ⟨rfl, (startSending_resume _ tasks).trans ?_⟩
        rw [resume_reading s.sched tasks [] _ hbatch, List.append_nil]
        rfl
      | record task =>
        rw [hfound] at hbatch
        have hlen : (tasks ++ [task]).length = tasks.length + 1 := List.length_append
        refine ⟨rfl, ?_⟩
        rw [resume_reading s.sched tasks _ _ hbatch,
          resume_reading _ (tasks ++ [task]) _ _ (Prod.eta _).symm, hlen, List.append_assoc]
        rfl
  | sending tasks =>
    cases tasks with
    | nil =>
      refine .inr ?_
      have hs' : s' = s.complete := by simp only [s', user, hphase]
      rw [hs']
      exact ⟨rfl, rfl⟩
    | cons task tasks =>
      have hs' : s' = s.submit task tasks (s.answers error granted) := by
        simp only [s', user, hphase]
      have hanswer : rings.reserve s.sched.bpf.reserveCalls = granted := by
        refine hgrant 0 _ ?_
        simp only [grantAt, hphase, List.getElem?_cons_zero]
      refine .inl ?_
      rw [hs']
      refine ⟨rfl, ?_⟩
      have hsame : s.sched.dispatchOne (s.answers error granted) task =
          s.sched.dispatchOne rings task := by
        cases granted <;>
          simp [Scheduler.dispatchOne, BpfScheduler.dispatchTask, answers, hanswer]
      change (tasks.foldl (Scheduler.dispatchOne rings)
        (s.sched.dispatchOne (s.answers error granted) task)).completePass = _
      rw [hsame]
      rfl

/-! ### A whole pass -/

theorem told_append {reads reads' : List Consumed} {grants grants' : List Bool}
    (h : Told rings s (reads ++ reads') (grants ++ grants')) : Told rings s reads grants := by
  refine ⟨fun i answer hi => h.1 i answer ?_, fun i answer hi => h.2 i answer ?_⟩
  · rwa [List.getElem?_append_left (List.getElem?_eq_some_iff.mp hi).1]
  · rwa [List.getElem?_append_left (List.getElem?_eq_some_iff.mp hi).1]

/-- The answers to the later operations. -/
theorem told_later {s' : Live} {reads reads' : List Consumed} {grants grants' : List Bool}
    (h : Told rings s (reads ++ reads') (grants ++ grants'))
    (hconsume : s'.sched.bpf.consumeCalls = s.sched.bpf.consumeCalls + reads.length)
    (hreserve : s'.sched.bpf.reserveCalls = s.sched.bpf.reserveCalls + grants.length) :
    Told rings s' reads' grants' := by
  refine ⟨fun i answer hi => ?_, fun i answer hi => ?_⟩
  · rw [hconsume, Nat.add_assoc]
    refine h.1 _ answer ?_
    rwa [List.getElem?_append_right (Nat.le_add_right _ _), Nat.add_sub_cancel_left]
  · rw [hreserve, Nat.add_assoc]
    refine h.2 _ answer ?_
    rwa [List.getElem?_append_right (Nat.le_add_right _ _), Nat.add_sub_cancel_left]

/-- One step, of user space or of anybody else. -/
theorem step_resume (ro : Rodata) (s : Live) (event : Event)
    (htold : Told rings s (s.readAt event) (s.grantAt event)) :
    let s' := s.step ro event
    s'.sched.bpf.consumeCalls = s.sched.bpf.consumeCalls + (s.readAt event).length ∧
    s'.sched.bpf.reserveCalls = s.sched.bpf.reserveCalls + (s.grantAt event).length ∧
    (s'.passes = s.passes ∧
        (s'.sched.resume rings s'.phase).core = (s.sched.resume rings s.phase).core ∨
      s'.passes = s.passes + 1 ∧ s'.sched.core = (s.sched.resume rings s.phase).core) := by
  by_cases huser : ∃ error granted, event = .user error granted
  · obtain ⟨error, granted, rfl⟩ := huser
    obtain ⟨hconsume, hreserve⟩ := s.user_calls error granted
    refine ⟨hconsume, hreserve, ?_⟩
    rcases s.user_resume error granted htold with ⟨hpasses, hsame⟩ | ⟨hpasses, hdone⟩
    · exact .inl ⟨hpasses, congrArg _ hsame⟩
    · exact .inr ⟨hpasses, congrArg _ hdone⟩
  · have hother : ∀ error granted, event ≠ .user error granted :=
      fun error granted h => huser ⟨error, granted, h⟩
    obtain ⟨hread, hgrant⟩ := s.silent_other hother
    obtain ⟨hwaits, hcore⟩ := s.step_waits ro hother
    rw [hread, hgrant]
    refine ⟨congrArg (·.2.1.2.1) hcore, congrArg (·.2.1.2.2) hcore, .inl ⟨hwaits.passes, ?_⟩⟩
    rw [hwaits.phase]
    exact Scheduler.resume_core hcore _

/-- No pass is taken back; and while none is completed, the rest of the current one stays what it
    was. -/
theorem run_resume (events : List Event) (s : Live)
    (htold : Told rings s (s.reads ro events) (s.grants ro events)) :
    s.passes ≤ (s.run ro events).passes ∧
    ((s.run ro events).passes = s.passes →
      (s.run ro events).sched.bpf.consumeCalls =
        s.sched.bpf.consumeCalls + (s.reads ro events).length ∧
      (s.run ro events).sched.bpf.reserveCalls =
        s.sched.bpf.reserveCalls + (s.grants ro events).length ∧
      ((s.run ro events).sched.resume rings (s.run ro events).phase).core =
        (s.sched.resume rings s.phase).core) := by
  induction events generalizing s with
  | nil => exact ⟨le_rfl, fun _ => ⟨rfl, rfl, rfl⟩⟩
  | cons event events ih =>
    obtain ⟨hconsume, hreserve, hstep⟩ := step_resume ro s event (told_append htold)
    obtain ⟨hle, hrun⟩ := ih (s.step ro event) (told_later htold hconsume hreserve)
    have hcons : s.run ro (event :: events) = (s.step ro event).run ro events := rfl
    rw [hcons]
    rcases hstep with ⟨hpasses, hsame⟩ | ⟨hpasses, -⟩
    · rw [hpasses] at hle hrun
      refine ⟨hle, fun hopen => ?_⟩
      obtain ⟨hconsume', hreserve', hsame'⟩ := hrun hopen
      rw [reads, grants, List.length_append, List.length_append, ← Nat.add_assoc, ← Nat.add_assoc,
        ← hconsume, ← hreserve]
      exact ⟨hconsume', hreserve', hsame'.trans hsame⟩
    · exact ⟨by omega, fun hopen => by omega⟩

/-- The answers that user space got, and none after that. -/
def oracle (s : Live) (reads : List Consumed) (grants : List Bool) : Rings where
  consume n := reads[n - s.sched.bpf.consumeCalls]?.getD .empty
  reserve n := grants[n - s.sched.bpf.reserveCalls]?.getD false

theorem told_oracle (s : Live) (reads : List Consumed) (grants : List Bool) :
    Told (s.oracle reads grants) s reads grants := by
  refine ⟨fun i answer hi => ?_, fun i answer hi => ?_⟩
  · simp only [oracle, Nat.add_sub_cancel_left, hi, Option.getD_some]
  · simp only [oracle, Nat.add_sub_cancel_left, hi, Option.getD_some]

theorem passes_le (ro : Rodata) (s : Live) (events : List Event) :
    s.passes ≤ (s.run ro events).passes :=
  (run_resume events s (s.told_oracle (s.reads ro events) (s.grants ro events))).1

/-- Only the last step of user space completes a pass. -/
theorem step_completes {event : Event} (h : (s.step ro event).passes = s.passes + 1) :
    s.phase = .sending [] ∧ ∃ error granted, event = .user error granted := by
  by_cases huser : ∃ error granted, event = .user error granted
  · refine ⟨?_, huser⟩
    obtain ⟨error, granted, rfl⟩ := huser
    rw [step, user] at h
    split at h
    · next tasks hphase =>
      rw [(s.consume_frame tasks _).2.2.2] at h
      exact absurd h (Nat.succ_ne_self _).symm
    · assumption
    · exact absurd h (Nat.succ_ne_self _).symm
  · have hwaits := (s.step_waits ro fun error granted heq => huser ⟨error, granted, heq⟩).1
    rw [hwaits.passes] at h
    exact absurd h (Nat.succ_ne_self _).symm

/-! ### Which records it reads -/

/-- User space reads no more in this pass. -/
theorem reads_sending (ro : Rodata) (events : List Event) (s : Live) {tasks : List QueuedTask}
    (hphase : s.phase = .sending tasks) (hpasses : (s.run ro events).passes = s.passes) :
    s.reads ro events = [] := by
  induction events generalizing s tasks with
  | nil => rfl
  | cons event events ih =>
    have hle := passes_le ro (s.step ro event) events
    have hcons : s.run ro (event :: events) = (s.step ro event).run ro events := rfl
    rw [hcons] at hpasses
    by_cases huser : ∃ error granted, event = .user error granted
    · obtain ⟨error, granted, rfl⟩ := huser
      have hnone : s.readAt (.user error granted) = [] := by
        simp only [readAt, hphase]
      rw [reads, hnone, List.nil_append]
      cases tasks with
      | nil =>
        have hdone : (s.step ro (.user error granted)).passes = s.passes + 1 := by
          simp only [step, user, hphase]
          rfl
        omega
      | cons task tasks =>
        have hsubmit : s.step ro (.user error granted) =
            s.submit task tasks (s.answers error granted) := by
          simp only [step, user, hphase]
        rw [hsubmit] at hpasses ⊢
        exact ih _ rfl hpasses
    · have hother : ∀ error granted, event ≠ .user error granted :=
        fun error granted h => huser ⟨error, granted, h⟩
      have hwaits := (s.step_waits ro hother).1
      rw [reads, (s.silent_other hother).1, List.nil_append]
      exact ih _ (hwaits.phase.trans hphase) (hpasses.trans hwaits.passes.symm)

/-- The record at the front of the queue is read, or user space stops reading. -/
theorem consume_read {tasks : List QueuedTask} (hfull : ¬ maxBatch ≤ tasks.length)
    (error : Option Int32) (granted : Bool) :
    (∃ task, s.found error = .record task ∧ s.queued[s.read]? = some task ∧
      (s.consume tasks (s.answers error granted)).read = s.read + 1) ∨
    (∀ task, s.found error ≠ .record task) ∧
      ∃ tasks', (s.consume tasks (s.answers error granted)).phase = .sending tasks' := by
  simp only [consume, if_neg hfull, BpfScheduler.dequeueTask, answers]
  cases hfound : s.found error with
  | empty => exact .inr ⟨by rintro task ⟨⟩, _, rfl⟩
  | error res => exact .inr ⟨by rintro task ⟨⟩, _, rfl⟩
  | record task =>
    refine .inl ⟨task, rfl, ?_, rfl⟩
    cases error with
    | some res => cases hfound
    | none =>
      cases hunread : s.unread with
      | nil => simp [found, hunread] at hfound
      | cons task' rest =>
        obtain rfl : task' = task := by simpa [found, hunread] using hfound
        rw [← Nat.add_zero s.read, ← List.getElem?_drop, ← unread, hunread]
        rfl

/-- A record that is read is the next one of the queue. -/
theorem reads_queued (events : List Event) (s : Live)
    (hpasses : (s.run ro events).passes = s.passes) {i : ℕ} {task : QueuedTask}
    (hi : (s.reads ro events)[i]? = some (.record task)) :
    (s.run ro events).queued[s.read + i]? = some task := by
  induction events generalizing s i with
  | nil => cases hi
  | cons event events ih =>
    have hcons : s.run ro (event :: events) = (s.step ro event).run ro events := rfl
    rw [hcons] at hpasses ⊢
    rw [reads] at hi
    by_cases huser : ∃ error granted, event = .user error granted
    · obtain ⟨error, granted, rfl⟩ := huser
      cases hphase : s.phase with
      | sending tasks =>
        have hnone := reads_sending ro (.user error granted :: events) s hphase hpasses
        rw [← reads, hnone] at hi
        cases hi
      | reading tasks =>
        have hstep : s.step ro (.user error granted) =
            s.consume tasks (s.answers error granted) := by
          simp only [step, user, hphase]
        simp only [readAt, hphase] at hi
        rw [hstep] at hi hpasses ⊢
        by_cases hfull : maxBatch ≤ tasks.length
        · rw [if_pos hfull, List.nil_append] at hi
          have hread : (s.consume tasks (s.answers error granted)).read = s.read := by
            rw [consume, if_pos hfull]
            rfl
          have hsame := (s.consume_frame tasks (s.answers error granted)).2.2.2
          rw [← hread]
          exact ih _ (hpasses.trans hsame.symm) hi
        · rw [if_neg hfull] at hi
          have hsame := (s.consume_frame tasks (s.answers error granted)).2.2.2
          have hrest := hpasses.trans hsame.symm
          rcases consume_read hfull error granted with ⟨task', hfound, hnext, hread⟩ | ⟨hno, _, hend⟩
          · cases i with
            | zero =>
              rw [hfound] at hi
              obtain rfl : task' = task := by simpa using hi
              have hgrows : Grows s (s.run ro (.user error granted :: events)) := s.run_grows _
              obtain ⟨later, hlater⟩ := hgrows.queued
              rw [hcons, hstep] at hlater
              rw [← hlater, Nat.add_zero]
              exact List.getElem?_append_left (List.getElem?_eq_some_iff.mp hnext).1 ▸ hnext
            | succ j =>
              have hj := ih _ hrest hi
              rwa [hread, Nat.add_assoc, Nat.add_comm 1] at hj
          · rw [reads_sending ro events _ hend hrest] at hi
            cases i with
            | zero => exact absurd (by simpa using hi) (hno task)
            | succ j => cases hi
    · have hother : ∀ error granted, event ≠ .user error granted :=
        fun error granted h => huser ⟨error, granted, h⟩
      have hwaits := (s.step_waits ro hother).1
      rw [(s.silent_other hother).1, List.nil_append] at hi
      rw [← hwaits.read]
      exact ih _ (hpasses.trans hwaits.passes.symm) hi

/-- However a pass of user space is interleaved with everything else, it comes out as if it were done
    in one go with some answers of the rings, of which those of the queued ring are the next records
    of the queue in their order. -/
theorem pass_atomic (ro : Rodata) (s : Live) (hphase : s.phase = .reading [])
    (events : List Event) (last : Event) (hopen : (s.run ro events).passes = s.passes)
    (hdone : ((s.run ro events).step ro last).passes = s.passes + 1) :
    ∃ rings : Rings,
      ((s.run ro events).step ro last).sched.core = (s.sched.dispatchTasks rings).core ∧
      ∀ i task, rings.consume (s.sched.bpf.consumeCalls + i) = .record task →
        (s.run ro events).queued[s.read + i]? = some task := by
  set t := s.run ro events
  have htold := s.told_oracle (s.reads ro events) (s.grants ro events)
  refine ⟨s.oracle (s.reads ro events) (s.grants ro events), ?_, fun i task hi => ?_⟩
  · obtain ⟨-, hrun⟩ := run_resume events s htold
    obtain ⟨-, -, hsame⟩ := hrun hopen
    rw [← hopen] at hdone
    obtain ⟨hend, error, granted, rfl⟩ := step_completes hdone
    rw [hphase, Scheduler.resume_start] at hsame
    rw [← hsame]
    have hcomplete : t.step ro (.user error granted) = t.complete := by
      simp only [step, user, hend]
    rw [hcomplete, hend]
    rfl
  · simp only [oracle, Nat.add_sub_cancel_left] at hi
    cases hread : (s.reads ro events)[i]? with
    | none =>
      rw [hread] at hi
      cases hi
    | some answer =>
      rw [hread, Option.getD_some] at hi
      rw [hi] at hread
      exact reads_queued events s hopen hread

/-- A heartbeat and a drain come in between the operations of a pass. -/
theorem oneWakeup_atomic :
    let s := (boot 900 0 .balanced).run userIdle oneWakeup
    let t := s.run userIdle
      [.user none true, .timer 5, .user none true, .enter 1, .user none true, .leave 0 none]
    ∃ rings : Rings,
      (t.step userIdle (.user none true)).sched.core = (s.sched.dispatchTasks rings).core ∧
      ∀ i task, rings.consume (s.sched.bpf.consumeCalls + i) = .record task →
        t.queued[s.read + i]? = some task :=
  pass_atomic userIdle _ rfl _ (.user none true) (by decide) (by decide)

end Live

end CerynthOS.Scx
