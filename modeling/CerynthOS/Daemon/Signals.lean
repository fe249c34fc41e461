import CerynthOS.Daemon.Tracked

/-! Signals reach only the backend's own child.

    A pid is the child's until somebody waits for it; from then on the system may give it to a
    stranger. So a signal is safe when the log so far has the spawn of a process of this pid and no
    call that has reaped it. -/

open Std.Do

set_option mvcgen.warning false

namespace CerynthOS.Daemon
open Ipc Json

/-- The child was spawned and has not been reaped. -/
structure Held (log : List Event) (c : Child) : Prop where
  spawned : .spawn c.proc c.id ∈ log
  unpolled : .tryWait c.proc .exited ∉ log
  unwaited : .wait c.proc (.ok ()) ∉ log

/-- Every signal was sent to a child that was held then. -/
def SignalsHeld (log : List Event) : Prop :=
  ∀ pre pid signal answer post, log = pre ++ .kill pid signal answer :: post →
    ∃ c : Child, c.id = pid ∧ Held pre c

/-- The log of a backend that has spawned so many processes, and signals and reaps no others. -/
structure Ledger (log : List Event) (procs : ℕ) : Prop where
  signals : SignalsHeld log
  spawned : ∀ i pid, .spawn i pid ∈ log → i < procs
  polled : ∀ i, .tryWait i .exited ∈ log → i < procs
  waited : ∀ i, .wait i (.ok ()) ∈ log → i < procs

/-- A call that may be made next, when nothing is spawned: a signal goes to a child that is held,
    and a process that is reaped is one of those spawned. -/
def Event.Allowed (log : List Event) (procs : ℕ) : Event → Prop
  | .kill pid _ _ => ∃ c : Child, c.id = pid ∧ Held log c
  | .tryWait i _ => i < procs
  | .wait i _ => i < procs
  | .spawn _ _ => False
  | _ => True

/-- A call that has nothing to do with processes. -/
def Event.IsRead : Event → Prop
  | .kill _ _ _ | .tryWait _ _ | .wait _ _ | .spawn _ _ => False
  | _ => True

variable {e : Event} {c : Child} {log l : List Event} {procs : ℕ}

theorem SignalsHeld.append (h : SignalsHeld log)
    (he : ∀ pid signal answer, e = .kill pid signal answer → ∃ c : Child, c.id = pid ∧ Held log c) :
    SignalsHeld (log ++ [e]) := by
  intro pre pid signal answer post heq
  rcases List.eq_nil_or_concat post with rfl | ⟨post, last, rfl⟩
  · obtain ⟨rfl, he'⟩ := List.append_inj' heq rfl
    exact he pid signal answer (List.singleton_inj.mp he')
  · have heq : log ++ [e] = (pre ++ .kill pid signal answer :: post) ++ [last] := by
      rw [heq, List.concat_eq_append, List.append_assoc, List.cons_append]
    exact h pre pid signal answer post (List.append_inj' heq rfl).1

theorem Ledger.append (h : Ledger log procs) (he : e.Allowed log procs) :
    Ledger (log ++ [e]) procs := by
  refine ⟨h.signals.append fun pid signal answer heq => by subst heq; exact he,
    fun i pid hi => ?_, fun i hi => ?_, fun i hi => ?_⟩
  all_goals rw [List.mem_append, List.mem_singleton] at hi
  · rcases hi with hi | rfl
    · exact h.spawned i pid hi
    · exact he.elim
  · rcases hi with hi | rfl
    · exact h.polled i hi
    · exact he
  · rcases hi with hi | rfl
    · exact h.waited i hi
    · exact he

theorem Held.append (h : Held log c) (hpolled : e ≠ .tryWait c.proc .exited)
    (hwaited : e ≠ .wait c.proc (.ok ())) : Held (log ++ [e]) c := by
  refine ⟨List.mem_append_left _ h.spawned, fun hm => ?_, fun hm => ?_⟩
  · rcases List.mem_append.mp hm with hm | hm
    · exact h.unpolled hm
    · exact hpolled (List.mem_singleton.mp hm).symm
  · rcases List.mem_append.mp hm with hm | hm
    · exact h.unwaited hm
    · exact hwaited (List.mem_singleton.mp hm).symm

theorem Event.IsRead.allowed (he : e.IsRead) : e.Allowed log procs := by
  cases e <;> first | exact he.elim | trivial

theorem Ledger.reads (h : Ledger log procs) (hl : ∀ e ∈ l, e.IsRead) :
    Ledger (log ++ l) procs := by
  induction l generalizing log with
  | nil => rwa [List.append_nil]
  | cons e l ih =>
    obtain ⟨he, hl⟩ := List.forall_mem_cons.mp hl
    rw [List.append_cons]
    exact ih (h.append he.allowed) hl

theorem Held.reads (h : Held log c) (hl : ∀ e ∈ l, e.IsRead) : Held (log ++ l) c := by
  induction l generalizing log with
  | nil => rwa [List.append_nil]
  | cons e l ih =>
    obtain ⟨he, hl⟩ := List.forall_mem_cons.mp hl
    rw [List.append_cons]
    refine ih (h.append ?_ ?_) hl <;>
    · rintro rfl
      exact he

/-- The process that was just spawned is held. -/
theorem Ledger.spawn (h : Ledger log procs) (pid : UInt32) :
    Ledger (log ++ [.spawn procs pid]) (procs + 1) ∧
      Held (log ++ [.spawn procs pid]) ⟨pid, procs⟩ := by
  have hlast : ∀ {e : Event}, e ∈ log ++ [.spawn procs pid] → e ∈ log ∨ e = .spawn procs pid :=
    fun hm => (List.mem_append.mp hm).imp_right List.mem_singleton.mp
  have hsignals : SignalsHeld (log ++ [.spawn procs pid]) := by
    refine h.signals.append fun _ _ _ heq => ?_
    cases heq
  refine ⟨⟨hsignals, fun i pid' hi => ?_, fun i hi => ?_, fun i hi => ?_⟩, ?_, fun hi => ?_,
    fun hi => ?_⟩
  · rcases hlast hi with hi | heq
    · exact Nat.lt_succ_of_lt (h.spawned i pid' hi)
    · cases heq
      exact Nat.lt_succ_self procs
  · exact Nat.lt_succ_of_lt (h.polled i ((hlast hi).resolve_right (by simp)))
  · exact Nat.lt_succ_of_lt (h.waited i ((hlast hi).resolve_right (by simp)))
  · exact List.mem_append_right _ (List.mem_singleton.mpr rfl)
  · exact (h.polled procs ((hlast hi).resolve_right (by simp))).false
  · exact (h.waited procs ((hlast hi).resolve_right (by simp))).false

/-- Calls that have nothing to do with processes. -/
def Reads {B : Type} (s s' : Sys B) : Prop := ∃ l, Called s s' l ∧ ∀ e ∈ l, e.IsRead

theorem Reads.one {B : Type} {s s' : Sys B} (h : Called s s' [e]) (he : e.IsRead) : Reads s s' :=
  ⟨_, h, by simpa using he⟩

@[grind →]
theorem Reads.trans {B : Type} {s s' s'' : Sys B} (h : Reads s s') (h' : Reads s' s'') :
    Reads s s'' := by
  obtain ⟨l, hc, hl⟩ := h
  obtain ⟨l', hc', hl'⟩ := h'
  exact ⟨_, hc.trans hc', fun e he => (List.mem_append.mp he).elim (hl e) (hl' e)⟩

namespace ScxBackend

/-- The backend signals what it holds, and holds the child it tracks. -/
structure Owned (s : Sys ScxBackend) : Prop where
  ledger : Ledger s.world.log s.world.procs.length
  pid_child : s.backend.pid = s.backend.child.map Child.id
  held : ∀ c, s.backend.child = some c → Held s.world.log c

namespace Owned
variable {s s' : Sys ScxBackend}

theorem proc_lt (h : Owned s) (hc : s.backend.child = some c) :
    c.proc < s.world.procs.length :=
  h.ledger.spawned _ _ (h.held c hc).spawned

theorem called (h : Owned s) (h' : Called s s' [e])
    (he : e.Allowed s.world.log s.world.procs.length)
    (hkeep : ∀ c, s.backend.child = some c →
      e ≠ .tryWait c.proc .exited ∧ e ≠ .wait c.proc (.ok ())) : Owned s' := by
  refine ⟨?_, by rw [h'.backend]; exact h.pid_child, fun c hc => ?_⟩
  · rw [h'.log, h'.moved.length]
    exact h.ledger.append he
  · rw [h'.backend] at hc
    rw [h'.log]
    exact (h.held c hc).append (hkeep c hc).1 (hkeep c hc).2

theorem reads (h : Owned s) (h' : Reads s s') : Owned s' := by
  obtain ⟨l, h', hl⟩ := h'
  refine ⟨?_, by rw [h'.backend]; exact h.pid_child, fun c hc => ?_⟩
  · rw [h'.log, h'.moved.length]
    exact h.ledger.reads hl
  · rw [h'.backend] at hc
    rw [h'.log]
    exact (h.held c hc).reads hl

theorem silent (h : Owned s) (h' : Called s s' []) : Owned s' :=
  h.reads ⟨[], h', by simp⟩

/-- A signal to the tracked pid. -/
theorem kill {pid : UInt32} {signal : Signal} {answer : Killed} (h : Owned s)
    (hpid : s.backend.pid = some pid) (h' : Called s s' [.kill pid signal answer]) : Owned s' := by
  obtain ⟨c, hc, rfl⟩ := Option.map_eq_some_iff.mp (h.pid_child.symm.trans hpid)
  exact h.called h' ⟨c, rfl, h.held c hc⟩ fun _ _ => ⟨by simp, by simp⟩

/-- Whatever a poll of the child says, it is in the ledger; unless it says that the child has
    exited, the child is still held. -/
theorem tryWait {answer : Poll} (h : Owned s) (hc : s.backend.child = some c)
    (h' : Called s s' [.tryWait c.proc answer]) :
    Ledger s'.world.log s'.world.procs.length ∧ (answer ≠ .exited → Owned s') := by
  refine ⟨?_, fun hne => h.called h' (h.proc_lt hc) fun c' hc' => ⟨?_, by simp⟩⟩
  · rw [h'.log, h'.moved.length]
    exact h.ledger.append (h.proc_lt hc)
  · rintro heq
    injection heq with _ heq
    exact hne heq

theorem wait {answer : Except String Unit} (h : Owned s) (hc : s.backend.child = some c)
    (h' : Called s s' [.wait c.proc answer]) :
    Ledger s'.world.log s'.world.procs.length ∧ (answer ≠ .ok () → Owned s') := by
  refine ⟨?_, fun hne => h.called h' (h.proc_lt hc) fun c' hc' => ⟨by simp, ?_⟩⟩
  · rw [h'.log, h'.moved.length]
    exact h.ledger.append (h.proc_lt hc)
  · rintro heq
    injection heq with _ heq
    exact hne heq

/-- The backend tracks the child it has just spawned. -/
theorem spawned {w : World} {profile : String} (h : Owned s) (hm : Moved s.world w)
    (hlog : w.log = s.world.log) (hw : Spawned w s'.world profile c) :
    Owned { s' with backend := { s'.backend with pid := some c.id, child := some c } } := by
  obtain ⟨pid, proc⟩ := c
  obtain rfl : proc = s.world.procs.length := hw.proc.trans hm.length
  obtain ⟨hledger, hheld⟩ := h.ledger.spawn pid
  have hlog' : s'.world.log = s.world.log ++ [.spawn s.world.procs.length pid] := hlog ▸ hw.log
  have hlength : s'.world.procs.length = s.world.procs.length + 1 := by
    rw [hw.procs, List.length_append, hm.length]
    rfl
  refine ⟨?_, rfl, fun c hc => ?_⟩
  · rw [hlog', hlength]
    exact hledger
  · obtain rfl := Option.some.inj hc
    rw [hlog']
    exact hheld

/-- A backend with other settings. -/
theorem withSettings {b : ScxBackend} (h : Owned s) (hpid : b.pid = s.backend.pid)
    (hc : b.child = s.backend.child) : Owned { s with backend := b } :=
  ⟨h.ledger, by rw [hpid, hc]; exact h.pid_child, fun c hb => h.held c (hc ▸ hb)⟩

/-- A backend that tracks nothing. -/
theorem forget (h : Ledger s.world.log s.world.procs.length) :
    Owned { s with backend := s.backend.forget } := ⟨h, rfl, by rintro _ ⟨⟩⟩

end Owned

/-- What `stop` keeps while it waits for the child to exit. -/
structure Stopping (child : Child) (pid : UInt32) (s : Sys ScxBackend) : Prop where
  owned : Owned s
  child : s.backend.child = some child
  pid : s.backend.pid = some pid

namespace Stopping
variable {child : Child} {pid : UInt32} {s s' s'' : Sys ScxBackend} {l : List Event}

theorem called (h : Stopping child pid s) (h' : Called s s' l) (ho : Owned s') :
    Stopping child pid s' :=
  ⟨ho, h'.backend ▸ h.child, h'.backend ▸ h.pid⟩

theorem silent (h : Stopping child pid s) (h' : Called s s' []) : Stopping child pid s' :=
  h.called h' (h.owned.silent h')

theorem kill {signal : Signal} {answer : Killed} (h : Stopping child pid s)
    (h' : Called s s' [.kill pid signal answer]) : Stopping child pid s' :=
  h.called h' (h.owned.kill h.pid h')

/-- The child is found running, and the time is read. -/
theorem running (h : Stopping child pid s) (h₁ : Called s s' [.tryWait child.proc .running])
    (h₂ : Called s' s'' []) : Stopping child pid s'' :=
  (h.called h₁ ((h.owned.tryWait h.child h₁).2 (by simp))).silent h₂

end Stopping

section Operations

theorem reapChild_owned : ⦃fun s => ⌜Owned s⌝⦄ reapChild
    ⦃post⟨fun _ s => ⌜Owned s⌝, fun _ s => ⌜Owned s⌝⟩⦄ := by
  mvcgen [-reapChild_spec, reapChild, update]
  case vc1.h_1 s h hc _ =>
    refine ⟨h.ledger, ?_, fun c hc' => ?_⟩
    · exact (congrArg (Option.map Child.id) hc).symm
    · cases hc.symm.trans hc'
  case vc2.h_2.post.success.h_1 s h c hc _ _ s' _ h' => exact .forget (h.tryWait hc h'.1).1
  case vc3.h_2.post.success.h_2 s h c hc _ _ s' h' => exact (h.tryWait hc h'.1).2 (by simp)
  case vc4.h_2.post.success.h_3 s h c hc _ _ _ s' h' => exact (h.tryWait hc h'.1).2 (by simp)

theorem pollExit_owned (child : Child) (pid : UInt32) (deadline : ℕ) :
    ⦃fun s => ⌜Stopping child pid s⌝⦄ pollExit child pid deadline
    ⦃post⟨fun r s => ⌜(∀ a, r = some a → Ledger s.world.log s.world.procs.length) ∧
        (r = none → Stopping child pid s)⌝, fun _ s => ⌜Owned s⌝⟩⦄ := by
  mvcgen [-pollExit_spec, pollExit]
  case vc1.post.success.h_1 s h _ _ s' h' =>
    exact ⟨fun _ => (h.owned.tryWait h.child h'.1).1, by rintro ⟨⟩⟩
  case vc2.post.success.h_2 s h _ _ _ s' h' => exact (h.owned.tryWait h.child h'.1).2 (by simp)
  case vc3.post.success.h_3.post.success.isTrue.post.success.h_1 s h _ _ s₁ h₁ _ _ s₂ h₂ _ _ _ _ s₃
      h₃ =>
    exact ((h.running h₁.1 h₂.1).kill h₃.1).owned
  case vc4.post.success.h_3.post.success.isTrue.post.success.h_2.post.success.h_1 s h _ _ s₁ h₁ _ _
      s₂ h₂ _ _ _ _ _ s₃ h₃ _ _ s₄ h₄ =>
    have h := (h.running h₁.1 h₂.1).kill h₃.1
    exact ⟨fun _ => (h.owned.wait h.child h₄.1).1, by rintro ⟨⟩⟩
  case vc5.post.success.h_3.post.success.isTrue.post.success.h_2.post.success.h_2 s h _ _ s₁ h₁ _ _
      s₂ h₂ _ _ _ _ _ s₃ h₃ _ _ _ s₄ h₄ =>
    have h := (h.running h₁.1 h₂.1).kill h₃.1
    exact (h.owned.wait h.child h₄.1).2 (by simp)
  case vc6.post.success.h_3.post.success.isFalse.post.success s h _ _ s₁ h₁ _ _ s₂ h₂ _ s₃ h₃ =>
    exact ⟨by rintro _ ⟨⟩, (h.running h₁.1 h₂.1).silent h₃.1⟩

theorem stop_owned : ⦃fun s => ⌜Owned s⌝⦄ stop
    ⦃post⟨fun _ s => ⌜Owned s⌝, fun _ s => ⌜Owned s⌝⟩⦄ := by
  have hloop (child : Child) (pid : UInt32) (deadline : ℕ) :=
    @Prog.retry_spec _ _ _ _ _ _ (fun _ => Stopping child pid)
      fun _ => pollExit_owned child pid deadline
  have hreap := reapChild_owned
  mvcgen [-stop_spec, -reapChild_spec, stop, update, hreap, hloop]
  case vc2.post.success.h_1.h_1.post.success.h_1 _ _ _ s h c _ pid hpid _ _ s' _ h' =>
    exact .forget (h.kill hpid h'.1).ledger
  case vc3.post.success.h_1.h_1.post.success.h_2 _ _ _ s h c _ pid hpid _ _ _ s' h' =>
    exact h.kill hpid h'.1
  case vc4.post.success.h_1.h_1.post.success.h_3.post.success.pre _ _ _ s h c hc pid hpid _ _ s₁ h₁
      _ _ s₂ h₂ =>
    have h : Stopping c pid s := ⟨h, hc, hpid⟩
    exact (h.kill h₁.1).silent h₂.1
  case vc5.post.success.h_1.h_1.post.success.h_3.post.success.post.success _ _ _ _ _ _ _ _ _ _ _ _ _
      _ _ _ _ r s h _ =>
    cases r with
    | some => exact .forget (h.1 () rfl)
    | none => exact .forget (h.2 rfl).owned.ledger

variable [Codec]

theorem heartbeatIsFresh_reads {B : Type} (s₀ : Sys B) (pid : UInt32) :
    ⦃fun s => ⌜s = s₀⌝⦄ heartbeatIsFresh pid
    ⦃post⟨fun _ s => ⌜Reads s₀ s⌝, fun _ _ => ⌜False⌝⟩⦄ := by
  mvcgen [-heartbeatIsFresh_spec, heartbeatIsFresh] with grind [→ Reads.one, Event.IsRead]

theorem schedulerIsHealthy_owned : ⦃fun s => ⌜Owned s⌝⦄ schedulerIsHealthy
    ⦃post⟨fun _ s => ⌜Owned s⌝, fun _ _ => ⌜False⌝⟩⦄ := by
  have hfresh := heartbeatIsFresh_reads (B := ScxBackend)
  mvcgen [-schedulerIsHealthy_spec, -heartbeatIsFresh_spec, schedulerIsHealthy, hfresh]
  case vc1.h_1.post.success.isTrue s h pid hpid _ _ s' h' => exact h.kill hpid h'.1
  case vc2.h_1.post.success.isFalse.post.success.post.success s h pid hpid _ _ s₁ h₁ _ s₂ h₂ _ s₃
      h₃ =>
    obtain ⟨contents, h₂, -⟩ := h₂
    exact ((h.kill hpid h₁.1).reads (.one h₂ trivial)).reads h₃

theorem waitUntilHealthy_owned (timeout : ℕ) : ⦃fun s => ⌜Owned s⌝⦄ waitUntilHealthy timeout
    ⦃post⟨fun _ s => ⌜Owned s⌝, fun _ s => ⌜Owned s⌝⟩⦄ := by
  have hround (deadline n : ℕ) : ⦃fun s => ⌜Owned s⌝⦄ pollHealth deadline
      ⦃post⟨fun r s => ⌜(∀ a, r = some a → Owned s) ∧ (r = none → Owned s)⌝,
        fun _ s => ⌜Owned s⌝⟩⦄ := by
    have hreap := reapChild_owned
    have hhealthy := schedulerIsHealthy_owned
    mvcgen [-pollHealth_spec, -reapChild_spec, -schedulerIsHealthy_spec, pollHealth, hreap,
      hhealthy] with grind [→ Owned.silent]
  have hloop (deadline : ℕ) := @Prog.retry_spec _ _ _ _ _ _ (fun _ => Owned) (hround deadline)
  mvcgen [-waitUntilHealthy_spec, waitUntilHealthy, hloop]
  case vc1.post.success.pre s h _ _ s' h' => exact h.silent h'.1
  case vc2.post.success.post.success.h_1 s h => exact h.1 true rfl
  case vc3.post.success.post.success.h_2 r _ _ _ s h =>
    cases r with
    | some => exact h.1 _ rfl
    | none => exact h.2 rfl

omit [Codec] in
theorem launch_owned : ⦃fun s => ⌜Owned s⌝⦄ launch
    ⦃post⟨fun _ s => ⌜Owned s⌝, fun _ s => ⌜Owned s⌝⟩⦄ := by
  have hreap := reapChild_owned
  mvcgen [-launch_spec, -reapChild_spec, launch, update, hreap]
  case vc3.post.success.isFalse.post.success.isTrue _ _ _ s h _ _ _ _ _ _ _ s' h' =>
    exact h.reads (.one h' trivial)
  case vc4.post.success.isFalse.post.success.isFalse.post.success.h_1 _ _ _ s h _ _ _ _ _ _ s₁ h₁ _
      _ _ s₂ h₂ =>
    exact (h.reads (.one h₁ trivial)).reads (.one h₂.2 trivial)
  case vc5.post.success.isFalse.post.success.isFalse.post.success.h_2 _ _ _ s h _ _ _ _ _ _ s₁ h₁ _
      c _ s₂ h₂ _ =>
    obtain ⟨-, w, hm, hlog, hw⟩ := h₂
    exact (h.reads (.one h₁ trivial)).spawned hm hlog hw

theorem start_owned : ⦃fun s => ⌜Owned s⌝⦄ start
    ⦃post⟨fun _ s => ⌜Owned s⌝, fun _ s => ⌜Owned s⌝⟩⦄ := by
  have hlaunch := launch_owned
  have hwait := waitUntilHealthy_owned
  have hstop := stop_owned
  mvcgen [-launch_spec, -ensureHealthyStartup_spec, -waitUntilHealthy_spec, -stop_spec, start,
    ensureHealthyStartup, hlaunch, hwait, hstop]
  exact id

theorem restart_owned : ⦃fun s => ⌜Owned s⌝⦄ restart
    ⦃post⟨fun _ s => ⌜Owned s⌝, fun _ s => ⌜Owned s⌝⟩⦄ := by
  have hreap := reapChild_owned
  have hstop := stop_owned
  have hstart := start_owned
  mvcgen [-reapChild_spec, -stop_spec, restart, hreap, hstop, hstart]

theorem status_owned : ⦃fun s => ⌜Owned s⌝⦄ status
    ⦃post⟨fun _ s => ⌜Owned s⌝, fun _ s => ⌜Owned s⌝⟩⦄ := by
  have hreap := reapChild_owned
  have hfresh := heartbeatIsFresh_reads (B := ScxBackend)
  mvcgen [-status_spec, -reapChild_spec, -heartbeatIsFresh_spec, status, hreap, hfresh]
  case vc2.post.success.post.success.h_1.post.success _ _ _ s h _ _ _ _ _ s₁ h₁ _ s₂ h₂ =>
    obtain ⟨contents, h₁, -⟩ := h₁
    exact (h.reads (.one h₁ trivial)).reads h₂
  case vc3.post.success.post.success.h_2 _ _ _ s h _ _ _ _ s' h' =>
    obtain ⟨contents, h', -⟩ := h'
    exact h.reads (.one h' trivial)

theorem setProfile_owned (profile : Profile) : ⦃fun s => ⌜Owned s⌝⦄ setProfile profile
    ⦃post⟨fun _ s => ⌜Owned s⌝, fun _ s => ⌜Owned s⌝⟩⦄ := by
  have hreap := reapChild_owned
  have hstop := stop_owned
  have hstart := start_owned
  mvcgen [-reapChild_spec, -stop_spec, setProfile, update, hreap, hstop, hstart]
  case vc3.post.success.isTrue.post.success s h _ => exact h.withSettings rfl rfl
  case vc4.post.success.isFalse s h _ _ => exact h.withSettings rfl rfl

theorem handleRequest_owned {s : Sys ScxBackend} (h : Owned s) (request : Request) :
    Owned (handleRequest request s).2 := by
  have keeps {α : Type} {x : Op ScxBackend α} (response : α → Response)
      (hx : ⦃fun s => ⌜Owned s⌝⦄ x ⦃post⟨fun _ s => ⌜Owned s⌝, fun _ s => ⌜Owned s⌝⟩⦄) :
      Owned (answer response (x.exec s)).2 := by
    rw [answer_snd]
    exact Prog.keeps_exec hx h
  cases request with
  | status => exact keeps _ status_owned
  | getProfile => exact h
  | setProfile profile => exact keeps _ (setProfile_owned profile)
  | pauseAdaptation => exact h.withSettings rfl rfl
  | resumeAdaptation => exact h.withSettings rfl rfl
  | start => exact keeps _ start_owned
  | stop => exact keeps _ stop_owned
  | restart => exact keeps _ restart_owned

theorem owned_run (moves : ℕ → Move) (schedulerBinary : String) (profile : Profile)
    (adaptationEnabled : Bool) (requests : List Request) :
    Owned (requests.foldl (fun s request => (handleRequest request s).2)
      (boot moves schedulerBinary profile adaptationEnabled)) := by
  have hboot : Owned (boot moves schedulerBinary profile adaptationEnabled) :=
    ⟨⟨by simp [SignalsHeld, boot], by simp [boot], by simp [boot], by simp [boot]⟩, rfl,
      by rintro _ ⟨⟩⟩
  generalize boot moves schedulerBinary profile adaptationEnabled = s at hboot
  induction requests generalizing s with
  | nil => exact hboot
  | cons request requests ih => exact ih _ (handleRequest_owned hboot request)

omit [Codec] in
/-- When `stop` succeeds, no process that the backend has spawned is alive. -/
theorem Tracked.exited_of_stop {s s' : Sys ScxBackend} (h : Tracked s)
    (hs : stop.exec s = (.ok (), s')) : ∀ p ∈ s'.world.procs, p.exited = true := by
  obtain ⟨hstopped, hforget⟩ := (Prog.triple_iff.mp (stop_spec s) s rfl).ok hs
  have h' := h.reconciled hstopped.reconciled
  intro p hp
  by_contra hx
  obtain ⟨i, hi⟩ := List.getElem?_of_mem hp
  obtain ⟨c, hc, -⟩ := h'.alive_child i p hi (Bool.eq_false_iff.mpr hx)
  rw [hforget] at hc
  cases hc

/-- Whatever the environment does, every signal in a run goes to a pid that the backend has spawned
    and not reaped, and once `stop` succeeds the tracked child and every other process is gone. -/
theorem signals_own (moves : ℕ → Move) (schedulerBinary : String) (profile : Profile)
    (adaptationEnabled : Bool) (requests : List Request) :
    let s := requests.foldl (fun s request => (handleRequest request s).2)
      (boot moves schedulerBinary profile adaptationEnabled)
    (∀ pre pid signal answer post, s.world.log = pre ++ .kill pid signal answer :: post →
      ∃ proc, .spawn proc pid ∈ pre ∧ .tryWait proc .exited ∉ pre ∧
        .wait proc (.ok ()) ∉ pre) ∧
    ∀ s', stop.exec s = (.ok (), s') →
      (∀ c, s.backend.child = some c → s'.world.exitedAt c.proc = true) ∧
      ∀ p ∈ s'.world.procs, p.exited = true := by
  intro s
  have howned : Owned s := owned_run moves schedulerBinary profile adaptationEnabled requests
  have htracked : Tracked s := tracked_run moves schedulerBinary profile adaptationEnabled requests
  refine ⟨fun pre pid signal answer post heq => ?_, fun s' hs => ?_⟩
  · obtain ⟨c, rfl, h⟩ := howned.ledger.signals pre pid signal answer post heq
    exact ⟨c.proc, h.spawned, h.unpolled, h.unwaited⟩
  · have hexited := htracked.exited_of_stop hs
    refine ⟨fun c hc => ?_, hexited⟩
    obtain ⟨p, hp, -⟩ := htracked.child_proc c hc
    have hstopped := ((Prog.triple_iff.mp (stop_spec s) s rfl).ok hs).1
    obtain ⟨p', hp', -⟩ := hstopped.reconciled.moved.procs _ p hp
    rw [World.exitedAt, hp']
    exact hexited p' (List.mem_of_getElem? hp')

end Operations

end ScxBackend

end CerynthOS.Daemon
