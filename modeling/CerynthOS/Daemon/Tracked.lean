import CerynthOS.Daemon.Process

/-! The process the backend tracks is the only one alive, and it runs the backend's profile.

    Reconciling keeps this, and so does spawning, since nothing is alive by then. -/

open Std.Do

set_option mvcgen.warning false

namespace CerynthOS.Daemon
open Ipc Json

namespace ScxBackend

/-- The tracked child is the only process alive. `pid` and `child` denote it, and it was launched
    with the backend's profile. -/
structure Tracked (s : Sys ScxBackend) : Prop where
  pid_child : s.backend.pid = s.backend.child.map Child.id
  child_proc : ∀ c, s.backend.child = some c → ∃ p, s.world.procs[c.proc]? = some p ∧
    p.pid = c.id ∧ p.profile = toString s.backend.profile
  alive_child : ∀ (i : ℕ) p, s.world.procs[i]? = some p → p.exited = false →
    ∃ c, s.backend.child = some c ∧ c.proc = i
  peak_le : s.world.peak ≤ 1

namespace Tracked
variable {s s' : Sys ScxBackend}

theorem child_none (h : Tracked s) (hpid : s.backend.pid = none) : s.backend.child = none :=
  Option.map_eq_none_iff.mp (h.pid_child ▸ hpid)

theorem reconciled (h : Tracked s) (h' : Reconciled s s') : Tracked s' := by
  have hpeak : s'.world.peak ≤ 1 := h'.moved.peak ▸ h.peak_le
  rcases h'.backend with hb | ⟨hb, he⟩
  · refine ⟨hb ▸ h.pid_child, fun c hc => ?_, fun i p' hp' hx => ?_, hpeak⟩
    · obtain ⟨p, hp, hpid, hprofile⟩ := h.child_proc c (hb ▸ hc)
      obtain ⟨p', hp', ha⟩ := h'.moved.procs _ p hp
      exact ⟨p', hp', ha.pid.trans hpid, by rw [ha.profile, hprofile, hb]⟩
    · obtain ⟨p, hp, ha⟩ := h'.moved.back hp'
      exact hb ▸ h.alive_child i p hp (ha.alive hx)
  · have hnone : s'.backend.child = none := hb ▸ rfl
    refine ⟨hb ▸ rfl, by simp [hnone], fun i p' hp' hx => ?_, hpeak⟩
    obtain ⟨p, hp, ha⟩ := h'.moved.back hp'
    obtain ⟨c, hc, rfl⟩ := h.alive_child i p hp (ha.alive hx)
    -- the child has this pid, so forgetting it has shown that it has exited
    obtain ⟨q, hq, hpid, -⟩ := h.child_proc c hc
    obtain rfl := Option.some.inj (hp.symm.trans hq)
    have hp : s.backend.pid = some p'.pid := by rw [h.pid_child, hc, ha.pid, hpid]; rfl
    exact absurd (he c hc p' hp' hp) (Bool.eq_false_iff.mp hx)

/-- The backend changes its profile while it tracks nothing. -/
theorem withProfile (h : Tracked s) (hpid : s.backend.pid = none) (profile : Profile) :
    Tracked { s with backend := { s.backend with profile } } :=
  ⟨h.pid_child, by simp [h.child_none hpid], h.alive_child, h.peak_le⟩

theorem withAdaptation (h : Tracked s) (adaptationEnabled : Bool) :
    Tracked { s with backend := { s.backend with adaptationEnabled } } :=
  ⟨h.pid_child, h.child_proc, h.alive_child, h.peak_le⟩

theorem launched {c : Child} (h : Tracked s) (h' : Launched s s' c) : Tracked s' := by
  obtain ⟨w, hm, hw, hfree⟩ := h'.spawned
  -- nothing is alive when the process is spawned
  have hidle (i : ℕ) (p' : Proc) (hp' : w.procs[i]? = some p') : p'.exited = true := by
    by_contra hx
    obtain ⟨p, hp, ha⟩ := hm.back hp'
    obtain ⟨c', hc', rfl⟩ := h.alive_child i p hp (ha.alive (Bool.eq_false_iff.mpr hx))
    rcases hfree with hpid | hgone
    · rw [h.child_none hpid] at hc'
      cases hc'
    · exact hx (hgone c' hc' p' hp').1
  refine ⟨by rw [h'.backend]; rfl, fun c' hc' => ?_, fun i p hp hx => ?_, ?_⟩
  · rw [h'.backend] at hc'
    obtain rfl := Option.some.inj hc'
    refine ⟨{ pid := c.id, profile := toString s.backend.profile }, ?_, rfl, by rw [h'.backend]⟩
    rw [hw.procs, hw.proc, List.getElem?_concat_length]
  · rw [h'.backend]
    refine ⟨c, rfl, ?_⟩
    rw [hw.procs, List.getElem?_append] at hp
    split at hp
    · rw [hidle i p hp] at hx
      cases hx
    · rw [hw.proc]
      have := (List.getElem?_eq_some_iff.mp hp).1
      simp at this
      omega
  · have halive : s'.world.alive = 1 := by
      rw [World.alive, hw.procs, List.countP_append, List.countP_eq_zero.mpr]
      · rfl
      · intro p hp
        obtain ⟨i, hi⟩ := List.getElem?_of_mem hp
        simp [hidle i p hi]
    rw [hw.peak, halive, hm.peak]
    exact max_le h.peak_le le_rfl

end Tracked

section Operations
variable [Codec] {s : Sys ScxBackend}

theorem start_tracked : ⦃fun s => ⌜Tracked s⌝⦄ start
    ⦃post⟨fun _ s => ⌜Tracked s⌝, fun _ s => ⌜Tracked s⌝⟩⦄ := by
  mvcgen [start] with grind [→ Tracked.reconciled, → Tracked.launched, → Passed.reconciled]

omit [Codec] in
theorem stop_tracked : ⦃fun s => ⌜Tracked s⌝⦄ stop
    ⦃post⟨fun _ s => ⌜Tracked s⌝, fun _ s => ⌜Tracked s⌝⟩⦄ := by
  mvcgen with grind [→ Tracked.reconciled, → Stopped.reconciled]

theorem restart_tracked : ⦃fun s => ⌜Tracked s⌝⦄ restart
    ⦃post⟨fun _ s => ⌜Tracked s⌝, fun _ s => ⌜Tracked s⌝⟩⦄ := by
  mvcgen [restart, start_tracked] with grind [→ Tracked.reconciled, → Stopped.reconciled]

theorem status_tracked : ⦃fun s => ⌜Tracked s⌝⦄ status
    ⦃post⟨fun _ s => ⌜Tracked s⌝, fun _ s => ⌜Tracked s⌝⟩⦄ := by
  mvcgen with grind [→ Tracked.reconciled]

theorem setProfile_tracked (profile : Profile) : ⦃fun s => ⌜Tracked s⌝⦄ setProfile profile
    ⦃post⟨fun _ s => ⌜Tracked s⌝, fun _ s => ⌜Tracked s⌝⟩⦄ := by
  mvcgen [setProfile, update, start_tracked]
  case vc3.post.success.isFalse s h _ s₁ h₁ hpid _ =>
    exact (h.reconciled h₁.reconciled).withProfile (by simpa using hpid) profile
  all_goals grind [→ Tracked.reconciled, → Stopped.reconciled, Tracked.withProfile, forget]

/-- Every request keeps the tracked child the only process alive. -/
theorem handleRequest_tracked (h : Tracked s) (request : Request) :
    Tracked (handleRequest request s).2 := by
  have keeps {α : Type} {x : Op ScxBackend α} (response : α → Response)
      (hx : ⦃fun s => ⌜Tracked s⌝⦄ x ⦃post⟨fun _ s => ⌜Tracked s⌝, fun _ s => ⌜Tracked s⌝⟩⦄) :
      Tracked (answer response (x.exec s)).2 := by
    rw [answer_snd]
    exact Prog.keeps_exec hx h
  cases request with
  | status => exact keeps _ status_tracked
  | getProfile => exact h
  | setProfile profile => exact keeps _ (setProfile_tracked profile)
  | pauseAdaptation => exact h.withAdaptation false
  | resumeAdaptation => exact h.withAdaptation true
  | start => exact keeps _ start_tracked
  | stop => exact keeps _ stop_tracked
  | restart => exact keeps _ restart_tracked

/-- After every sequence of operations, whatever the environment does, the tracked child is the
    only process alive, and it runs the backend's profile. -/
theorem tracked_run (moves : ℕ → Move) (schedulerBinary : String) (profile : Profile)
    (adaptationEnabled : Bool) (requests : List Request) :
    Tracked (requests.foldl (fun s request => (handleRequest request s).2)
      (boot moves schedulerBinary profile adaptationEnabled)) := by
  have hboot : Tracked (boot moves schedulerBinary profile adaptationEnabled) :=
    ⟨rfl, by rintro _ ⟨⟩, by rintro _ _ ⟨⟩, Nat.zero_le 1⟩
  generalize boot moves schedulerBinary profile adaptationEnabled = s at hboot
  induction requests generalizing s with
  | nil => exact hboot
  | cons request requests ih => exact ih _ (handleRequest_tracked hboot request)

end Operations

end ScxBackend

end CerynthOS.Daemon
