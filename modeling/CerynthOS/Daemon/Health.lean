import CerynthOS.Daemon.Scx

/-! What the health checks of the scheduler say when they pass.

    A check reads the process table, the sched_ext state file, the heartbeat file and the system
    time one after another. It changes nothing, and when it passes the log holds what it saw. -/

open Std.Do

set_option mvcgen.warning false

namespace CerynthOS.Daemon
open Ipc Json

variable [Codec]

/-- This text of the heartbeat file is a healthy record of this process, not too old at a time in
    whole seconds and not from the future. -/
def Fresh (contents : String) (pid : UInt32) (now : ℕ) : Prop :=
  ∃ json timestamp, Codec.fromStr contents = some json ∧
    (json.get "pid").bind Value.asU64 = some pid.toUInt64 ∧
    (json.get "running").bind Value.asBool = some true ∧
    (json.get "healthy").bind Value.asBool = some true ∧
    (json.get "heartbeat").bind Value.asU64 = some timestamp ∧
    now ≤ timestamp.toNat + heartbeatTimeoutSecs ∧ timestamp.toNat ≤ now

/-- A record of another process is never fresh. -/
theorem Fresh.pid_unique {contents : String} {pid pid' : UInt32} {now now' : ℕ}
    (h : Fresh contents pid now) (h' : Fresh contents pid' now') : pid = pid' := by
  obtain ⟨json, _, hj, hp, -⟩ := h
  obtain ⟨json', _, hj', hp', -⟩ := h'
  obtain rfl := Option.some.inj (hj.symm.trans hj')
  have := congrArg UInt64.toNat (Option.some.inj (hp.symm.trans hp'))
  exact UInt32.toNat_inj.mp (by simpa using this)

/-- The record of a file passes every comparison. -/
theorem fresh_of_record {contents : String} {json : Value} {pid : UInt32} {timestamp : UInt64}
    {now : ℕ} (hj : Codec.fromStr contents = some json) (hm : recordMatches json pid = true)
    (ht : (json.get "heartbeat").bind Value.asU64 = some timestamp)
    (hn : timestamp.toNat ≤ now ∧ now - timestamp.toNat ≤ heartbeatTimeoutSecs) :
    Fresh contents pid now := by
  simp only [recordMatches, Bool.and_eq_true, beq_iff_eq] at hm
  obtain ⟨⟨hp, hr⟩, hh⟩ := hm
  exact ⟨json, timestamp, hj, hp, hr, hh, ht, Nat.sub_le_iff_le_add'.mp hn.2, hn.1⟩

/-- What a passed check of the process of this pid leaves in the log. -/
def Checked (pid : UInt32) (events : List Event) : Prop :=
  ∃ state contents now, events = [.kill pid .probe .ok, .readState (some state),
      .readHeartbeat (some contents), .readClock (some now)] ∧
    trim state = "enabled" ∧ Fresh contents pid now

section Specs
variable {B : Type} (s₀ : Sys B) (pid : UInt32)

omit [Codec] in
@[spec] theorem readScxState_spec : ⦃fun s => ⌜s = s₀⌝⦄ readScxState
    ⦃post⟨fun a s => ⌜∃ contents, Called s₀ s [.readState contents] ∧
      (a = some "enabled" → contents.map trim = some "enabled")⌝, fun _ _ => ⌜False⌝⟩⦄ := by
  mvcgen [readScxState] with grind

omit [Codec] in
@[spec] theorem schedExtIsEnabled_spec : ⦃fun s => ⌜s = s₀⌝⦄ schedExtIsEnabled
    ⦃post⟨fun a s => ⌜∃ contents, Called s₀ s [.readState contents] ∧
      (a = true → contents.map trim = some "enabled")⌝, fun _ _ => ⌜False⌝⟩⦄ := by
  mvcgen [schedExtIsEnabled] with grind

@[spec] theorem heartbeatIsFresh_spec : ⦃fun s => ⌜s = s₀⌝⦄ heartbeatIsFresh pid
    ⦃post⟨fun a s => ⌜∃ l, Called s₀ s l ∧ (a = true → ∃ contents now,
      l = [.readHeartbeat (some contents), .readClock (some now)] ∧ Fresh contents pid now)⌝,
      fun _ _ => ⌜False⌝⟩⦄ := by
  mvcgen [heartbeatIsFresh]
  case vc2.post.success.h_1.h_1.isFalse.h_1.post.success.h_1 s hs _ contents _ json hj hm
      timestamp ht s₁ h₁ _ now _ s₂ h₂ =>
    subst hs
    refine ⟨_, h₁.trans h₂, fun ha => ⟨contents, now, rfl, ?_⟩⟩
    exact fresh_of_record hj (by simpa using hm) ht (by simpa using ha)
  all_goals grind

@[spec] theorem schedulerIsHealthy_spec (s₀ : Sys ScxBackend) :
    ⦃fun s => ⌜s = s₀⌝⦄ ScxBackend.schedulerIsHealthy
    ⦃post⟨fun a s => ⌜∃ l, Called s₀ s l ∧ (a = true → ∃ pid, s₀.backend.pid = some pid ∧
      Checked pid l)⌝, fun _ _ => ⌜False⌝⟩⦄ := by
  mvcgen [ScxBackend.schedulerIsHealthy]
  case vc2.h_1.post.success.isFalse.post.success.post.success s hs pid hpid _ hok s₁ h₁ _ s₂ h₂ _
      s₃ h₃ =>
    subst hs
    obtain ⟨contents, h₂, henabled⟩ := h₂
    obtain ⟨l, h₃, hfresh⟩ := h₃
    obtain rfl := not_not.mp hok
    refine ⟨_, (h₁.1.trans h₂).trans h₃, fun ha => ⟨pid, hpid, ?_⟩⟩
    rw [Bool.and_eq_true] at ha
    obtain ⟨state, rfl, hstate⟩ := Option.map_eq_some_iff.mp (henabled ha.1)
    obtain ⟨record, now, rfl, hrecord⟩ := hfresh ha.2
    exact ⟨state, record, now, rfl, hstate, hrecord⟩
  case vc3.h_2 s hs _ _ _ => exact ⟨[], hs ▸ Called.refl s, by rintro ⟨⟩⟩
  all_goals grind

end Specs

end CerynthOS.Daemon
