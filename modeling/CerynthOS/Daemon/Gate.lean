import CerynthOS.Daemon.Process

/-! The startup gate: what a successful start has seen, and what a failed one leaves.

    The log of a successful start ends with the calls of one round that found the spawned child
    running and its check passed. A start that fails after spawning has ended the child, unless a
    system call made while stopping it failed. -/

open Std.Do

set_option mvcgen.warning false

namespace CerynthOS.Daemon
open Ipc Json

namespace ScxBackend

section Start
variable [Codec] {s s' s'' : Sys ScxBackend} {c : Child}

/-- Within this call a child was spawned, and then passed the gate; it is the one tracked. -/
def Started (s s' : Sys ScxBackend) : Prop :=
  ∃ c l l' gate, s'.backend.child = some c ∧ s'.backend.pid = some c.id ∧
    s.world.procs.length ≤ c.proc ∧
    s'.world.log = s.world.log ++ l ++ .spawn c.proc c.id :: l' ++ gate ∧ Gate c c.id gate

theorem Started.after (h : Started s' s'') (hm : Moved s.world s'.world) : Started s s'' := by
  obtain ⟨c, l, l', gate, hc, hpid, hproc, hlog, hgate⟩ := h
  obtain ⟨l₀, hl₀, -⟩ := hm.log
  refine ⟨c, l₀ ++ l, l', gate, hc, hpid, hm.length ▸ hproc, ?_, hgate⟩
  rw [hlog, hl₀, List.append_assoc s.world.log]

/-- The child of `launch` passes the gate. -/
theorem Launched.started (h : Launched s s' c) (h' : Passed s' s'') : Started s s'' := by
  obtain ⟨w, hm, hw, -⟩ := h.spawned
  obtain ⟨l₀, hl₀, -⟩ := hm.log
  obtain ⟨c', pid, l', gate, hc, hpid, hgate, hcalls⟩ := h'
  rw [h.backend] at hc hpid
  obtain rfl := Option.some.inj hc
  obtain rfl := Option.some.inj hpid
  refine ⟨c, l₀, l', gate, ?_, ?_, (hw.proc.trans hm.length).ge, ?_, hgate⟩
  · rw [hcalls.backend, h.backend]
  · rw [hcalls.backend, h.backend]
  · rw [hcalls.log, hw.log, hl₀]
    simp

theorem start_started : ⦃fun t => ⌜Moved s.world t.world⌝⦄ start
    ⦃post⟨fun _ s' => ⌜Started s s'⌝, fun _ _ => ⌜True⌝⟩⦄ := by
  mvcgen [start] with grind [→ Launched.started, → Started.after]

theorem restart_started : ⦃fun t => ⌜Moved s.world t.world⌝⦄ restart
    ⦃post⟨fun _ s' => ⌜Started s s'⌝, fun _ _ => ⌜True⌝⟩⦄ := by
  mvcgen [restart, start_started] with
    grind [→ Moved.trans, → Reconciled.moved, → Stopped.reconciled]

theorem setProfile_started (profile : Profile) :
    ⦃fun t => ⌜Moved s.world t.world⌝⦄ setProfile profile
    ⦃post⟨fun _ s' => ⌜s'.backend.pid.isSome = true → Started s s'⌝, fun _ _ => ⌜True⌝⟩⦄ := by
  have hstart := start_started (s := s)
  mvcgen [setProfile, update, hstart] with
    grind [→ Moved.trans, → Reconciled.moved, → Stopped.reconciled]

/-! ### Cleaning up -/

/-- The child has been terminated and waited for, and nothing is tracked. -/
structure Ended (s : Sys ScxBackend) (c : Child) : Prop where
  proc : ∃ p, s.world.procs[c.proc]? = some p ∧ p.exited = true ∧ p.reaped = true
  child : s.backend.child = none
  pid : s.backend.pid = none

theorem ensureHealthyStartup_exec (timeout : ℕ) (s : Sys ScxBackend) :
    (ensureHealthyStartup timeout).exec s = match (waitUntilHealthy timeout).exec s with
      | (.ok a, s') => (.ok a, s')
      | (.error e, s') => (.error e, (stop.exec s').2) := by
  rw [ensureHealthyStartup, Prog.exec_tryCatch]
  rcases (waitUntilHealthy timeout).exec s with ⟨_ | _, s'⟩
  · simp only [Prog.exec_bind, Prog.exec_tryCatch]
    rcases stop.exec s' with ⟨_ | _, _⟩ <;> rfl
  · rfl

theorem start_exec_of_launch (h : launch.exec s = (.ok (), s')) :
    start.exec s = (ensureHealthyStartup (fromSecs startTimeoutSecs)).exec s' := by
  rw [start, Prog.exec_bind, h]

omit [Codec] in
/-- A child that is stopped when it does not become healthy. -/
theorem ended_of_stop (hc : s.backend.child = some c) (hpid : s.backend.pid = some c.id)
    (hproc : c.proc < s.world.procs.length)
    (h : (∃ l, Called s s' l) ∨ Forgot s s') (h' : Stopped s' s'') :
    Ended s'' c ∨ Failed s'.world s''.world := by
  have hgone (hx : s''.world.GoneAt c.proc) (hb : s''.backend = s.backend.forget) :
      Ended s'' c := by
    have hlt : c.proc < s''.world.procs.length := by
      have hm : Moved s.world s'.world := by
        rcases h with ⟨_, h⟩ | h
        · exact h.moved
        · exact h.moved
      rwa [h'.reconciled.moved.length, hm.length]
    exact ⟨⟨_, List.getElem?_eq_getElem hlt, hx _ (List.getElem?_eq_getElem hlt)⟩, hb ▸ rfl,
      hb ▸ rfl⟩
  rcases h with ⟨l, h⟩ | h
  · rcases h'.fate with hf | hf | hf
    · refine .inl (hgone (hf.gone c (h.backend ▸ hc)) ?_)
      rw [hf.backend, h.backend]
    · exact .inr hf
    · rw [h.backend, hpid] at hf
      cases hf
  · refine .inl (hgone (h'.reconciled.moved.gone (h.gone c hc)) ?_)
    rcases h'.reconciled.backend with hb | ⟨hb, -⟩
    · rw [hb, h.backend]
    · rw [hb, h.backend]
      rfl

/-- From every state and in every environment: when `start` succeeds, directly or within `restart`
    or `set_profile`, the child spawned in this call has passed the gate, which no record of
    another process passes; when it fails after spawning, the child has ended, or a system call
    made while stopping it has failed. -/
theorem startup_gate (s : Sys ScxBackend) :
    (∀ s', start.exec s = (.ok (), s') → Started s s') ∧
    (∀ s', restart.exec s = (.ok (), s') → Started s s') ∧
    (∀ profile s', (setProfile profile).exec s = (.ok (), s') → s'.backend.pid.isSome = true →
      Started s s') ∧
    (∀ contents json pid now, Codec.fromStr contents = some json →
      (json.get "pid").bind Value.asU64 ≠ some (UInt32.toUInt64 pid) → ¬ Fresh contents pid now) ∧
    ∀ s₁ e s', launch.exec s = (.ok (), s₁) → start.exec s = (.error e, s') →
      ∃ c, s₁.backend.child = some c ∧ c.proc = s.world.procs.length ∧ (Ended s' c ∨
        ∃ s₂, (waitUntilHealthy (fromSecs startTimeoutSecs)).exec s₁ = (.error e, s₂) ∧
          s' = (stop.exec s₂).2 ∧ Failed s₂.world s'.world) := by
  refine ⟨fun s' h => ?_, fun s' h => ?_, fun profile s' h => ?_, ?_, fun s₁ e s' h₁ h => ?_⟩
  · exact (Prog.triple_iff.mp start_started s (Moved.refl _)).ok h
  · exact (Prog.triple_iff.mp restart_started s (Moved.refl _)).ok h
  · exact (Prog.triple_iff.mp (setProfile_started profile) s (Moved.refl _)).ok h
  · rintro contents json pid now hj hne ⟨json', _, hj', hpid, -⟩
    obtain rfl := Option.some.inj (hj.symm.trans hj')
    exact hne hpid
  · obtain ⟨c, hl⟩ := (Prog.triple_iff.mp (launch_spec s) s rfl).ok h₁
    obtain ⟨w, hm, hw, -⟩ := hl.spawned
    have hc : s₁.backend.child = some c := hl.backend ▸ rfl
    have hpid : s₁.backend.pid = some c.id := hl.backend ▸ rfl
    refine ⟨c, hc, hw.proc.trans hm.length, ?_⟩
    rw [start_exec_of_launch h₁, ensureHealthyStartup_exec] at h
    have hwait := Prog.triple_iff.mp (waitUntilHealthy_spec s₁ (fromSecs startTimeoutSecs)) s₁ rfl
    rcases hr : (waitUntilHealthy (fromSecs startTimeoutSecs)).exec s₁ with ⟨e₂ | _, s₂⟩
    · rw [hr] at h
      obtain ⟨rfl, rfl⟩ : e₂ = e ∧ (stop.exec s₂).2 = s' := by simpa using h
      have hstopped : Stopped s₂ (stop.exec s₂).2 := by
        have hstop := Prog.triple_iff.mp (stop_spec s₂) s₂ rfl
        rcases hs : stop.exec s₂ with ⟨_ | _, s₃⟩
        · exact hstop.error hs
        · exact (hstop.ok hs).1
      have hproc : c.proc < s₁.world.procs.length := by
        rw [hw.proc, hw.procs, List.length_append]
        exact Nat.lt_succ_self _
      refine (ended_of_stop hc hpid hproc (hwait.error hr) hstopped).imp_right fun hf => ?_
      exact ⟨s₂, rfl, rfl, hf⟩
    · rw [hr] at h
      simp at h

end Start

section Example
local instance : Codec := textCodec

/-- The scheduler comes up at once and stays healthy. -/
def healthy (_ : ℕ) : Move where
  spawned := .ok 77
  unixTime := some 1010
  state := some "enabled\n"
  heartbeat := some
    "\x7b\"pid\":77,\"running\":true,\"healthy\":true,\"profile\":\"balanced\",\"heartbeat\":1003\x7d"

theorem startup_gate_healthy : ∃ s', start.exec (boot healthy "cerynth-scx" .balanced true) =
    (.ok (), s') ∧ Started (boot healthy "cerynth-scx" .balanced true) s' := by
  have h : (start.exec (boot healthy "cerynth-scx" .balanced true)).1 = .ok () := by decide +kernel
  rcases hr : start.exec (boot healthy "cerynth-scx" .balanced true) with ⟨r, s'⟩
  rw [hr] at h
  obtain rfl : r = .ok () := h
  exact ⟨s', rfl, (startup_gate _).1 s' hr⟩

end Example

end ScxBackend

end CerynthOS.Daemon
