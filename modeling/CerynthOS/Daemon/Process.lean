import CerynthOS.Daemon.Health

/-! What the operations on the scheduler process leave.

    Every operation but spawning reconciles the backend with the world: it keeps what is tracked,
    or forgets a process that has exited. Each has one specification here, which says all of it
    that later proofs need. -/

open Std.Do

set_option mvcgen.warning false

namespace CerynthOS.Daemon
open Ipc Json

variable {w w' w'' : World}

/-- The process of this handle has exited, if this is its pid. -/
def World.Ended (w : World) (pid : Option UInt32) (c : Child) : Prop :=
  ∀ p, w.procs[c.proc]? = some p → pid = some p.pid → p.exited = true

theorem Proc.Ages.alive {p p' : Proc} (h : p.Ages p') (hx : p'.exited = false) :
    p.exited = false :=
  Bool.eq_false_iff.mpr fun hp => Bool.eq_false_iff.mp hx (h.exited hp)

theorem Moved.back (h : Moved w w') {i : ℕ} {p' : Proc} (hp : w'.procs[i]? = some p') :
    ∃ p, w.procs[i]? = some p ∧ p.Ages p' := by
  have hi : i < w.procs.length := h.length ▸ (List.getElem?_eq_some_iff.mp hp).1
  obtain ⟨q, hq, ha⟩ := h.procs i _ (List.getElem?_eq_getElem hi)
  have : q = p' := Option.some.inj (hq.symm.trans hp)
  exact ⟨_, List.getElem?_eq_getElem hi, this ▸ ha⟩

theorem Moved.ended (h : Moved w w') {pid : Option UInt32} {c : Child} (hw : w.Ended pid c) :
    w'.Ended pid c := by
  intro p' hp' hpid
  obtain ⟨p, hp, ha⟩ := h.back hp'
  exact ha.exited (hw p hp (ha.pid ▸ hpid))

theorem Moved.gone (h : Moved w w') {i : ℕ} (hw : w.GoneAt i) : w'.GoneAt i := by
  intro p' hp'
  obtain ⟨p, hp, ha⟩ := h.back hp'
  exact ⟨ha.exited (hw p hp).1, ha.reaped (hw p hp).2⟩

theorem World.GoneAt.ended {c : Child} (h : w.GoneAt c.proc) (pid : Option UInt32) :
    w.Ended pid c :=
  fun p hp _ => (h p hp).1

theorem World.ended_of_aliveAt {pid : UInt32} (h : w.aliveAt pid = false) (c : Child) :
    w.Ended (some pid) c := by
  intro p hp hpid
  have hall := List.any_eq_false.mp h p (List.mem_of_getElem? hp)
  simpa [Option.some.inj hpid] using hall

/-- A system call failed in between. -/
def Failed (w w' : World) : Prop := ∃ l, w'.log = w.log ++ l ∧ ∃ e ∈ l, e.failed

theorem Called.failed {B : Type} {s s' : Sys B} {e : Event} (h : Called s s' [e])
    (he : e.failed) : Failed s.world s'.world :=
  ⟨_, h.log, e, List.mem_singleton.mpr rfl, he⟩

theorem Failed.after (h' : Failed w' w'') (h : Moved w w') : Failed w w'' := by
  obtain ⟨l, hl, -⟩ := h.log
  obtain ⟨l', hl', e, he, hf⟩ := h'
  exact ⟨l ++ l', by rw [hl', hl, List.append_assoc], e, List.mem_append_right _ he, hf⟩

/-! ### Polling -/

section
variable {B α : Type} {s₀ s s' : Sys B} {deadline timeout n t : ℕ} {l : List Event}

/-- Between two rounds of a polling loop the rounds left reach the deadline. -/
structure Polling (s₀ : Sys B) (deadline n : ℕ) (s : Sys B) : Prop where
  called : ∃ l, Called s₀ s l
  pos : 0 < n
  deadline_le : deadline ≤ s.world.clock + (n - 1) * pollInterval

/-- A round that finds the deadline ahead and sleeps. -/
theorem Polling.next (h : Polling s₀ deadline (n + 1) s) (hc : Called s s' l)
    (hle : s.world.clock ≤ t) (hlt : t < deadline) (hs : t + pollInterval ≤ s'.world.clock) :
    Polling s₀ deadline n s' := by
  obtain ⟨⟨l₀, h₀⟩, -, hd⟩ := h
  cases n with
  | zero => omega
  | succ k =>
    refine ⟨⟨_, h₀.trans hc⟩, Nat.succ_pos k, ?_⟩
    rw [Nat.add_sub_cancel, Nat.succ_mul] at hd
    rw [Nat.add_sub_cancel]
    omega

/-- A loop that polls to a deadline answers within its rounds, or it fails. -/
theorem pollingLoop_spec {body : Op B (Option α)} {Q : α → Sys B → Prop}
    {E : String → Sys B → Prop} (hd : deadline = s₀.world.clock + timeout)
    (h : ∀ n, ⦃fun s => ⌜Polling s₀ deadline (n + 1) s⌝⦄ body
      ⦃post⟨fun r s => ⌜(∀ a, r = some a → Q a s) ∧ (r = none → Polling s₀ deadline n s)⌝,
        fun e s => ⌜E e s⌝⟩⦄) :
    ⦃fun s => ⌜s = s₀⌝⦄ Prog.retry body (rounds timeout)
    ⦃post⟨fun r s => ⌜∃ a, r = some a ∧ Q a s⌝, fun e s => ⌜E e s⌝⟩⦄ := by
  have hloop := Prog.retry_spec h (rounds timeout)
  have hstart : Polling s₀ deadline (rounds timeout) s₀ := by
    refine ⟨⟨[], Called.refl s₀⟩, Nat.succ_pos _, ?_⟩
    have := Nat.div_add_mod' timeout pollInterval
    have := Nat.mod_lt timeout (show 0 < pollInterval by decide)
    rw [rounds, Nat.add_sub_assoc (by decide), Nat.add_mul]
    omega
  mvcgen [hloop]
  case vc1.pre s hs => exact hs ▸ hstart
  case vc2.post.success r s =>
    intro hsome hnone
    cases r with
    | some a => exact ⟨a, rfl, hsome a rfl⟩
    | none => exact absurd (hnone rfl).pos (Nat.lt_irrefl 0)

end

namespace ScxBackend

/-- The backend still tracks what it tracked, or it has forgotten a process that has exited. -/
structure Reconciled (s s' : Sys ScxBackend) : Prop where
  moved : Moved s.world s'.world
  backend : s'.backend = s.backend ∨ s'.backend = s.backend.forget ∧
    ∀ c, s.backend.child = some c → s'.world.Ended s.backend.pid c

namespace Reconciled
variable {s s' s'' : Sys ScxBackend} {l : List Event}

@[grind →]
theorem trans (h : Reconciled s s') (h' : Reconciled s' s'') : Reconciled s s'' := by
  refine ⟨h.moved.trans h'.moved, ?_⟩
  rcases h.backend with hb | ⟨hb, he⟩
  · rcases h'.backend with hb' | ⟨hb', he'⟩
    · exact .inl (hb'.trans hb)
    · exact .inr ⟨hb' ▸ congrArg forget hb, hb ▸ he'⟩
  · have hb' : s''.backend = s.backend.forget := by
      rcases h'.backend with hb' | ⟨hb', -⟩
      · rw [hb', hb]
      · rw [hb', hb]; rfl
    exact .inr ⟨hb', fun c hc => h'.moved.ended (he c hc)⟩

@[grind →]
theorem ofCalled (h : Called s s' l) : Reconciled s s' := ⟨h.moved, .inl h.backend⟩

theorem refl (s : Sys ScxBackend) : Reconciled s s := ⟨Moved.refl _, .inl rfl⟩

/-- The settings stay. -/
theorem settings (h : Reconciled s s') : s'.backend.forget = s.backend.forget := by
  rcases h.backend with hb | ⟨hb, -⟩
  · rw [hb]
  · rw [hb]
    rfl

theorem profile (h : Reconciled s s') : s'.backend.profile = s.backend.profile :=
  show s'.backend.forget.profile = s.backend.forget.profile by rw [h.settings]

theorem adaptationEnabled (h : Reconciled s s') :
    s'.backend.adaptationEnabled = s.backend.adaptationEnabled :=
  show s'.backend.forget.adaptationEnabled = s.backend.forget.adaptationEnabled by rw [h.settings]

/-- Forgetting the child after calls that show that it has ended. -/
theorem forget (h : Called s s' l)
    (he : ∀ c, s.backend.child = some c → s'.world.Ended s.backend.pid c) :
    Reconciled s { s' with backend := s'.backend.forget } :=
  ⟨h.moved, .inr ⟨congrArg ScxBackend.forget h.backend, he⟩⟩

end Reconciled

/-- The backend has forgotten its child, which has exited and been waited for. -/
structure Forgot (s s' : Sys ScxBackend) : Prop where
  moved : Moved s.world s'.world
  backend : s'.backend = s.backend.forget
  gone : ∀ c, s.backend.child = some c → s'.world.GoneAt c.proc

@[grind →]
theorem Forgot.reconciled {s s' : Sys ScxBackend} (h : Forgot s s') : Reconciled s s' :=
  ⟨h.moved, .inr ⟨h.backend, fun c hc => (h.gone c hc).ended _⟩⟩

theorem Forgot.after {s s' s'' : Sys ScxBackend} {l : List Event} (h : Forgot s' s'')
    (h' : Called s s' l) : Forgot s s'' :=
  ⟨h'.moved.trans h.moved, h'.backend ▸ h.backend, h'.backend ▸ h.gone⟩

/-- What `reap_child` leaves: the child running, or forgotten. -/
def Reaped (s s' : Sys ScxBackend) : Prop :=
  (∃ c, s.backend.child = some c ∧ Called s s' [.tryWait c.proc .running]) ∨ Forgot s s'

section
variable {s s' : Sys ScxBackend} {c : Child}

@[grind →]
theorem Reaped.reconciled (h : Reaped s s') : Reconciled s s' := by
  rcases h with ⟨c, -, h⟩ | h
  · exact .ofCalled h
  · exact h.reconciled

@[grind →]
theorem Reaped.called (h : Reaped s s') (hc : s'.backend.child = some c) :
    Called s s' [.tryWait c.proc .running] := by
  rcases h with ⟨c', hc', h⟩ | h
  · obtain rfl := Option.some.inj (hc'.symm.trans (h.backend ▸ hc))
    exact h
  · rw [h.backend] at hc
    cases hc

theorem Reaped.running (h : Reaped s s') (hpid : s'.backend.pid ≠ none) :
    ∃ c, s.backend.child = some c ∧ Called s s' [.tryWait c.proc .running] := by
  rcases h with h | h
  · exact h
  · rw [h.backend] at hpid
    exact absurd rfl hpid

theorem Reaped.forgot (h : Reaped s s') (hc : s'.backend.child = none) : Forgot s s' := by
  rcases h with ⟨c', hc', h⟩ | h
  · rw [h.backend, hc'] at hc
    cases hc
  · exact h

theorem Forgot.ofCalled {l : List Event} (h : Called s s' l) (hc : s'.backend.child = some c)
    (hg : s'.world.GoneAt c.proc) : Forgot s { s' with backend := s'.backend.forget } := by
  refine ⟨h.moved, congrArg forget h.backend, fun c' hc' => ?_⟩
  obtain rfl := Option.some.inj (hc.symm.trans (h.backend ▸ hc'))
  exact hg

end

section Specs
variable (s₀ : Sys ScxBackend)

@[spec] theorem reapChild_spec : ⦃fun s => ⌜s = s₀⌝⦄ reapChild
    ⦃post⟨fun _ s => ⌜Reaped s₀ s⌝, fun _ s =>
        ⌜∃ c e, s₀.backend.child = some c ∧ Called s₀ s [.tryWait c.proc (.error e)]⌝⟩⦄ := by
  mvcgen [reapChild, update]
  case vc1.h_1 s hs hchild _ =>
    subst hs
    refine .inr ⟨Moved.refl _, ?_, fun c hc => by rw [hchild] at hc; cases hc⟩
    exact congrArg (fun c => { s.backend with pid := none, child := c }) hchild
  case vc2.h_2.post.success.h_1 s hs child hchild _ _ s' _ h =>
    subst hs
    exact .inr (.ofCalled h.1 (h.1.backend ▸ hchild) h.2)
  all_goals grind [Reaped]

variable [Codec]

/-- What is in the log when this child has passed the startup gate: it was not exited, and then the
    check of this pid passed. -/
def Gate (c : Child) (pid : UInt32) (events : List Event) : Prop :=
  ∃ checks, events = .tryWait c.proc .running :: checks ∧ Checked pid checks

/-- The calls end with a passed gate of what the backend tracks. -/
def Passed (s s' : Sys ScxBackend) : Prop :=
  ∃ c pid l gate, s.backend.child = some c ∧ s.backend.pid = some pid ∧ Gate c pid gate ∧
    Called s s' (l ++ gate)

theorem Passed.after {s s' s'' : Sys ScxBackend} {l : List Event} (h : Passed s' s'')
    (h' : Called s s' l) : Passed s s'' := by
  obtain ⟨c, pid, l', gate, hc, hpid, hgate, hcalls⟩ := h
  refine ⟨c, pid, l ++ l', gate, h'.backend ▸ hc, h'.backend ▸ hpid, hgate, ?_⟩
  rw [List.append_assoc]
  exact h'.trans hcalls

theorem Passed.reconciled {s s' : Sys ScxBackend} (h : Passed s s') : Reconciled s s' := by
  obtain ⟨_, _, _, _, -, -, -, h⟩ := h
  exact .ofCalled h

theorem pollHealth_spec (deadline n : ℕ) :
    ⦃fun s => ⌜Polling s₀ deadline (n + 1) s⌝⦄ pollHealth deadline
    ⦃post⟨fun r s => ⌜(∀ a, r = some a → (∃ l, Called s₀ s l) ∧ (a = true → Passed s₀ s)) ∧
        (r = none → Polling s₀ deadline n s)⌝,
      fun _ s => ⌜(∃ l, Called s₀ s l) ∨ Forgot s₀ s⌝⟩⦄ := by
  mvcgen [pollHealth]
  case vc1.post.success.isTrue.post.success.isTrue s hp _ _ s₁ h₁ _ s₂ h₂ _ _ =>
    obtain ⟨l, h₀⟩ := hp.called
    rcases h₂ with ⟨c, _, h₂⟩ | h₂
    · exact .inl ⟨_, (h₀.trans h₁.1).trans h₂⟩
    · exact .inr (h₂.after (h₀.trans h₁.1))
  case vc2.post.success.isTrue.post.success.isFalse.post.success.isTrue s hp _ _ s₁ h₁ _ s₂ h₂ _
      hpid healthy hhealthy s₃ h₃ =>
    obtain ⟨l₀, h₀⟩ := hp.called
    obtain ⟨c, hc, h₂⟩ := h₂.running (by simpa using hpid)
    obtain ⟨checks, h₃, hchecked⟩ := h₃
    obtain ⟨pid, hpid, hchecked⟩ := hchecked hhealthy
    have hb := (h₀.trans h₁.1).backend
    have hcalls := ((h₀.trans h₁.1).trans h₂).trans h₃
    have hpassed : Passed s₀ s₃ := by
      refine ⟨c, pid, l₀, .tryWait c.proc .running :: checks, hb ▸ hc, ?_, ⟨checks, rfl, hchecked⟩,
        by simpa using hcalls⟩
      rw [← hb, ← h₂.backend, hpid]
    exact ⟨fun _ _ => ⟨⟨_, hcalls⟩, fun _ => hpassed⟩, by rintro ⟨⟩⟩
  case vc3.post.success.isTrue.post.success.isFalse.post.success.isFalse.post.success s hp now hnow
      s₁ h₁ _ s₂ h₂ _ hpid _ _ s₃ h₃ _ s₄ h₄ =>
    obtain ⟨c, hc, h₂⟩ := h₂.running (by simpa using hpid)
    obtain ⟨checks, h₃, -⟩ := h₃
    have hcalled := ((h₁.1.trans h₂).trans h₃).trans h₄.1
    refine ⟨by rintro _ ⟨⟩, hp.next hcalled (h₁.2 ▸ h₁.1.moved.clock) hnow ?_⟩
    have := (h₂.trans h₃).moved.clock
    have := h₄.2
    omega
  case vc4.post.success.isTrue.post.except.handle s hp _ _ s₁ h₁ _ s₂ =>
    rintro ⟨c, e, -, h₂⟩
    obtain ⟨l, h₀⟩ := hp.called
    exact .inl ⟨_, (h₀.trans h₁.1).trans h₂⟩
  case vc5.post.success.isFalse s hp _ _ s₁ h₁ =>
    obtain ⟨l, h₀⟩ := hp.called
    refine ⟨fun a ha => ⟨⟨_, h₀.trans h₁.1⟩, fun ht => ?_⟩, by rintro ⟨⟩⟩
    rw [ht] at ha
    cases ha

/-- Waiting succeeds through the gate only, and it fails with the same child, or without one. -/
@[spec] theorem waitUntilHealthy_spec (timeout : ℕ) :
    ⦃fun s => ⌜s = s₀⌝⦄ waitUntilHealthy timeout
    ⦃post⟨fun _ s => ⌜Passed s₀ s⌝, fun _ s => ⌜(∃ l, Called s₀ s l) ∨ Forgot s₀ s⌝⟩⦄ := by
  have hloop (s₀ : Sys ScxBackend) {deadline : ℕ} (hd : deadline = s₀.world.clock + timeout) :=
    pollingLoop_spec hd (pollHealth_spec s₀ deadline)
  mvcgen [waitUntilHealthy, hloop]
  case vc1.hd s h => exact congrArg (· + timeout) h.2
  case vc2.post.success.post.success.h_1 s hs _ _ s₁ h₁ _ _ s₂ h₂ =>
    subst hs
    obtain ⟨_, ha, -, h₂⟩ := h₂
    exact (h₂ (Option.some.inj ha).symm).after h₁.1
  case vc3.post.success.post.success.h_2 s hs _ _ s₁ h₁ _ _ _ _ _ s₂ h₂ =>
    subst hs
    obtain ⟨_, -, ⟨l, h₂⟩, -⟩ := h₂
    exact .inl ⟨_, h₁.1.trans h₂⟩
  case vc4.post.success.post.except.handle s hs _ _ s₁ h₁ _ s₂ =>
    subst hs
    rintro (⟨l, h₂⟩ | h₂)
    · exact .inl ⟨_, h₁.1.trans h₂⟩
    · exact .inr (h₂.after h₁.1)

omit [Codec] in
theorem pollExit_spec (child : Child) (pid : UInt32) (deadline n : ℕ) :
    ⦃fun s => ⌜Polling s₀ deadline (n + 1) s⌝⦄ pollExit child pid deadline
    ⦃post⟨fun r s => ⌜(∀ a, r = some a → (∃ l, Called s₀ s l) ∧ s.world.GoneAt child.proc) ∧
        (r = none → Polling s₀ deadline n s)⌝,
      fun _ s => ⌜(∃ l, Called s₀ s l) ∧ Failed s₀.world s.world⌝⟩⦄ := by
  mvcgen [pollExit]
  case vc6.post.success.h_3.post.success.isFalse.post.success s hp _ _ s₁ h₁ now hnow s₂ h₂ _ s₃
      h₃ =>
    have hle := h₁.1.moved.clock.trans h₂.1.moved.clock
    refine ⟨by rintro _ ⟨⟩, hp.next ((h₁.1.trans h₂.1).trans h₃.1) (h₂.2 ▸ hle) ?_ (h₂.2 ▸ h₃.2)⟩
    exact Nat.lt_of_not_ge hnow
  all_goals grind [→ Polling.called, Event.failed, → Called.failed, → Failed.after, → Called.moved]

/-- What `stop` leaves: the child forgotten, or what was tracked; in that case a call has failed
    or there was nothing to stop. -/
structure Stopped (s s' : Sys ScxBackend) : Prop where
  reconciled : Reconciled s s'
  fate : Forgot s s' ∨ Failed s.world s'.world ∨ s.backend.pid = none

omit [Codec] in
@[spec] theorem stop_spec : ⦃fun s => ⌜s = s₀⌝⦄ stop
    ⦃post⟨fun _ s => ⌜Stopped s₀ s ∧ s.backend = s₀.backend.forget⌝,
      fun _ s => ⌜Stopped s₀ s⌝⟩⦄ := by
  have hloop (s₀ : Sys ScxBackend) (child) (pid) {deadline timeout : ℕ}
      (hd : deadline = s₀.world.clock + timeout) :=
    pollingLoop_spec hd (pollExit_spec s₀ child pid deadline)
  mvcgen [stop, update, hloop]
  case vc1.post.success.h_1.h_1.post.success.h_1 s hs _ s₁ h₁ c hc pid hpid _ _ s₂ _ h₂ =>
    subst hs
    have hcalled := (h₁.called hc).trans h₂.1
    have hb := (h₁.called hc).backend
    refine ⟨⟨.forget hcalled fun c' _ => ?_, .inr (.inl ?_)⟩, congrArg forget hcalled.backend⟩
    · rw [← hb, hpid]
      exact World.ended_of_aliveAt h₂.2 c'
    · exact (h₂.1.failed fun h => Killed.noConfusion h).after (h₁.called hc).moved
  case vc2.post.success.h_1.h_1.post.success.h_2 s hs _ s₁ h₁ c hc _ _ _ _ _ s₂ h₂ =>
    subst hs
    exact ⟨.ofCalled ((h₁.called hc).trans h₂.1),
      .inr (.inl ((h₂.1.failed fun h => Killed.noConfusion h).after (h₁.called hc).moved))⟩
  case vc3.hd s₁ h₁ => exact congrArg (· + fromSecs 5) h₁.2
  case vc4.post.success.h_1.h_1.post.success.h_3.post.success.post.success s hs _ s₁ h₁ c hc _ _ _ _
      s₂ h₂ _ _ s₃ h₃ _ s₄ h₄ _ =>
    subst hs
    obtain ⟨_, -, ⟨l, h₄⟩, hg⟩ := h₄
    have hafter := (h₂.1.trans h₃.1).trans h₄
    have hf := Forgot.ofCalled ((h₁.called hc).trans hafter) (hafter.backend ▸ hc) hg
    exact ⟨⟨hf.reconciled, .inl hf⟩, hf.backend⟩
  case vc5.post.success.h_1.h_1.post.success.h_3.post.success.post.except.handle s hs _ s₁ h₁ c hc _
      _ _ _ s₂ h₂ _ _ s₃ h₃ _ s₄ =>
    rintro ⟨l, h₄⟩ hf
    subst hs
    have hbefore := ((h₁.called hc).trans h₂.1).trans h₃.1
    exact ⟨.ofCalled (hbefore.trans h₄), .inr (.inl (hf.after hbefore.moved))⟩
  case vc6.post.success.h_1.h_2 s hs _ s₁ h₁ c hc pid hnone hpid =>
    subst hs
    cases pid with
    | some pid => exact absurd rfl (hnone pid)
    | none => exact ⟨h₁.reconciled, .inr (.inr ((h₁.called hc).backend ▸ hpid))⟩
  case vc7.post.success.h_2 s hs _ s₁ h₁ c hnone hc =>
    subst hs
    cases c with
    | some c => exact absurd rfl (hnone c)
    | none => exact ⟨h₁.reconciled, .inl (h₁.forgot hc)⟩
  case vc8.post.except.handle s hs _ s₁ =>
    rintro ⟨c, e, hc, h⟩
    subst hs
    exact ⟨.ofCalled h, .inr (.inl (h.failed trivial))⟩

@[spec] theorem ensureHealthyStartup_spec (timeout : ℕ) :
    ⦃fun s => ⌜s = s₀⌝⦄ ensureHealthyStartup timeout
    ⦃post⟨fun _ s => ⌜Passed s₀ s⌝, fun _ s => ⌜Reconciled s₀ s⌝⟩⦄ := by
  mvcgen [ensureHealthyStartup] with grind [→ Stopped.reconciled]

@[spec] theorem status_spec : ⦃fun s => ⌜s = s₀⌝⦄ status
    ⦃post⟨fun a s => ⌜Reconciled s₀ s ∧ a.profile = s₀.backend.profile ∧
        a.adaptationEnabled = s₀.backend.adaptationEnabled ∧ a.backend = .scx⌝,
      fun _ s => ⌜Reconciled s₀ s⌝⟩⦄ := by
  mvcgen [status] with grind [→ Reconciled.profile, → Reconciled.adaptationEnabled]

/-- What `launch` leaves: a process spawned for the profile, which the backend tracks; the one
    tracked before is gone, if there was any. -/
structure Launched (s s' : Sys ScxBackend) (c : Child) : Prop where
  spawned : ∃ w, Moved s.world w ∧ Spawned w s'.world (toString s.backend.profile) c ∧
    (s.backend.pid = none ∨ ∀ c', s.backend.child = some c' → w.GoneAt c'.proc)
  backend : s'.backend = { s.backend with pid := some c.id, child := some c }

omit [Codec] in
@[spec] theorem launch_spec : ⦃fun s => ⌜s = s₀⌝⦄ launch
    ⦃post⟨fun _ s => ⌜∃ c, Launched s₀ s c⌝, fun _ s => ⌜Reconciled s₀ s⌝⟩⦄ := by
  mvcgen [launch, update]
  case vc4.post.success.isFalse.post.success.isFalse.post.success.h_2 s hs _ s₁ h₁ b _ hpid _ _ _ s₂
      h₂ _ c _ s₃ h₃ _ =>
    subst hs
    obtain ⟨hb₃, w, hm, -, hw⟩ := h₃
    have hm' : Moved s₁.world w := h₂.moved.trans hm
    refine ⟨c, ?_, ?_⟩
    · rcases h₁ with ⟨_, _, h₁⟩ | h₁
      · have hb : b = s.backend := h₁.backend
        have hnone : s.backend.pid = none := by simpa [hb] using hpid
        exact ⟨w, h₁.moved.trans hm', hb ▸ hw, .inl hnone⟩
      · refine ⟨w, h₁.moved.trans hm', ?_, .inr fun c' hc' => ?_⟩
        · exact (congrArg ScxBackend.profile h₁.backend : b.profile = _) ▸ hw
        · exact hm'.gone (h₁.gone c' hc')
    · have hb : s₁.backend.forget = s.backend.forget := h₁.reconciled.settings
      change { s₃.backend.forget with pid := some c.id, child := some c } = _
      rw [hb₃, h₂.backend, hb]
      rfl
  all_goals grind

end Specs

end ScxBackend

end CerynthOS.Daemon
