import CerynthOS.Policy.Stability

/-! The evidence behind a change of profile.

    A change is meant to take a dwell of consecutive calls that all asked for it. A call with
    invalid telemetry is no such call, but it leaves the counters alone, so that the calls before
    and after it count as one streak. -/

namespace CerynthOS.Policy
open Ipc Machine

/-- Call `t` was a valid evaluation with the raw candidate `q`. -/
structure Supports (inputs : ℕ → PolicyInput) (q : Profile) (t : ℕ) : Prop where
  call : 1 ≤ t
  valid : (inputs t).isFinite = true
  candidate : rawProfile (inputs t) = q

/-- Call `t` changes the accepted profile to `q`. Until there is an accepted profile, the reported
    one stands in for it. -/
structure ChangesTo (p : RulesBasedPolicy) (inputs : ℕ → PolicyInput) (q : Profile) (t : ℕ) :
    Prop where
  call : 1 ≤ t
  now : (after p inputs t).acceptedProfile = some q
  before : (after p inputs (t - 1)).acceptedProfile.getD (inputs t).currentProfile ≠ q

variable (k : Constructor) (inputs : ℕ → PolicyInput)

/-- If call `t` changes the accepted profile, the last calls of a dwell all supported it. -/
def Consecutive (t : ℕ) : Prop :=
  ∀ q, ChangesTo k.policy inputs q t → ∀ i < k.dwell, Supports inputs q (t - i)

/-- The telemetry of call `t` is valid, or there is no candidate that waits for its dwell. -/
def Undisturbed (t : ℕ) : Prop :=
  (inputs t).isFinite = true ∨ (after k.policy inputs (t - 1)).pendingProfile = none

/-! ### One call -/

/-- The counters of a policy as a debouncer's, when `current` is the reported profile. -/
def counters (p : RulesBasedPolicy) (current : Profile) : Debounce.State Profile where
  accepted := p.acceptedProfile.getD current
  pending := p.pendingProfile
  count := p.pendingCount.toNat
  cooldown := p.cooldownRemaining.toNat

/-- What holds of the counters in every run: the settings stay, a count is short of the dwell, and
    what is counted is no accepted profile and no cooldown. -/
structure Sound (p : RulesBasedPolicy) : Prop where
  dwell : p.minDwellSamples.toNat = k.dwell
  cooldown : p.cooldownSamples.toNat = k.cooldown
  short : p.pendingCount.toNat < k.dwell
  counting : ∀ q, p.pendingProfile = some q →
    1 ≤ p.pendingCount.toNat ∧ p.cooldownRemaining = 0 ∧ ∃ a, p.acceptedProfile = some a ∧ a ≠ q

variable {k inputs} {p : RulesBasedPolicy} {input : PolicyInput}

/-- Invalid telemetry leaves the policy as it is. -/
theorem evaluate_invalid (h : input.isFinite = false) : (p.evaluate input).1 = p := by
  rw [RulesBasedPolicy.evaluate, h]
  rfl

/-- Valid telemetry is one candidate of the debouncer. -/
theorem evaluate_valid (hp : Sound k p) (h : input.isFinite = true) :
    let s := Debounce.step k.dwell k.cooldown (counters p input.currentProfile) (rawProfile input)
    (p.evaluate input).1.acceptedProfile = some s.accepted ∧
      (p.evaluate input).1.pendingProfile = s.pending ∧
      (p.evaluate input).1.pendingCount.toNat = s.count ∧
      (p.evaluate input).1.cooldownRemaining.toNat = s.cooldown ∧
      (p.evaluate input).1.minDwellSamples = p.minDwellSamples ∧
      (p.evaluate input).1.cooldownSamples = p.cooldownSamples := by
  have hcounts : Counts p input.currentProfile (counters p input.currentProfile) :=
    ⟨rfl, rfl, rfl, rfl, by rw [hp.dwell]; exact hp.short⟩
  obtain ⟨hc, -, hsome, hdwell, hcool⟩ :=
    stabilize_counts hcounts (fun _ => rfl) (p.rawDecision input)
  rw [rawDecision_profile, hp.dwell, hp.cooldown] at hc
  have heval : (p.evaluate input).1 =
      (p.stabilize (p.rawDecision input) input.currentProfile).1 := by
    simp only [RulesBasedPolicy.evaluate, h, Bool.not_true, Bool.false_eq_true, if_false]
  rw [heval]
  obtain ⟨a, ha⟩ := Option.ne_none_iff_exists'.mp hsome
  have hacc := hc.accepted
  rw [ha, Option.getD_some] at hacc
  exact ⟨by rw [ha, hacc], hc.pending, hc.count, hc.cooldown, hdwell, hcool⟩

theorem policy_pending (k : Constructor) : k.policy.pendingProfile = none := by
  cases k <;> rfl

theorem sound_policy : Sound k k.policy := by
  obtain ⟨hdwell, hcool⟩ := k.policy_settings
  have hpos := k.dwell_pos
  refine ⟨hdwell, hcool, ?_, fun q hq => ?_⟩
  · cases k <;> exact hpos
  · rw [policy_pending] at hq
    cases hq

theorem Sound.evaluate (hp : Sound k p) (input : PolicyInput) : Sound k (p.evaluate input).1 := by
  cases h : input.isFinite with
  | false => rwa [evaluate_invalid h]
  | true =>
    obtain ⟨hacc, hpend, hcount, hcool, hd, hc⟩ := evaluate_valid hp h
    have hpos := k.dwell_pos
    refine ⟨by rw [hd]; exact hp.dwell, by rw [hc]; exact hp.cooldown, ?_, fun q hq => ?_⟩
    · rw [hcount]
      rcases Debounce.step_cases k.dwell k.cooldown (counters p input.currentProfile)
        (rawProfile input) with ⟨-, hs⟩ | ⟨-, -, hlt, hs⟩ | ⟨-, -, -, hs⟩ <;> rw [hs]
      · exact hpos
      · exact hlt
      · exact hpos
    · rw [hpend] at hq
      rw [hcount, hacc, ← UInt32.toNat_inj, hcool]
      rcases Debounce.step_cases k.dwell k.cooldown (counters p input.currentProfile)
        (rawProfile input) with ⟨-, hs⟩ | ⟨hne, -, -, hs⟩ | ⟨-, -, -, hs⟩ <;> rw [hs] at hq ⊢
      · cases hq
      · obtain rfl := Option.some.inj hq
        refine ⟨?_, rfl, _, rfl, hne.symm⟩
        simp only [Debounce.State.counted]
        split_ifs <;> omega
      · cases hq

/-- The counters are sound after any calls. -/
theorem sound_after (inputs : ℕ → PolicyInput) (t : ℕ) : Sound k (after k.policy inputs t) := by
  induction t with
  | zero => exact sound_policy
  | succ t ih => exact ih.evaluate _

/-! ### Undisturbed runs -/

/-- The calls that are counted are the last ones, and all support the pending profile. -/
def Backed (inputs : ℕ → PolicyInput) (t : ℕ) (p : RulesBasedPolicy) : Prop :=
  ∀ q, p.pendingProfile = some q → ∀ i < p.pendingCount.toNat, Supports inputs q (t - i)

/-- One more supporting call behind those that were counted. -/
theorem Backed.counted {t : ℕ} (hb : Backed inputs t p) (h : (inputs (t + 1)).isFinite = true)
    (i : ℕ) (hi : i < (counters p (inputs (t + 1)).currentProfile).counted
      (rawProfile (inputs (t + 1)))) :
    Supports inputs (rawProfile (inputs (t + 1))) (t + 1 - i) := by
  cases i with
  | zero => exact ⟨by omega, h, rfl⟩
  | succ i =>
    rw [Nat.add_sub_add_right]
    rw [Debounce.State.counted] at hi
    split_ifs at hi with hq
    · exact hb _ hq i (by simpa [counters] using hi)
    · omega

theorem backed_step {t : ℕ} (hp : Sound k p) (hb : Backed inputs t p)
    (hu : (inputs (t + 1)).isFinite = true ∨ p.pendingProfile = none) :
    Backed inputs (t + 1) (p.evaluate (inputs (t + 1))).1 := by
  intro q hq
  cases h : (inputs (t + 1)).isFinite with
  | false =>
    -- nothing was pending, and nothing is
    rw [evaluate_invalid h, hu.resolve_left (by rw [h]; simp)] at hq
    cases hq
  | true =>
    obtain ⟨-, hpend, hcount, -⟩ := evaluate_valid hp h
    rw [hpend] at hq
    rw [hcount]
    rcases Debounce.step_cases k.dwell k.cooldown (counters p (inputs (t + 1)).currentProfile)
      (rawProfile (inputs (t + 1))) with ⟨-, hs⟩ | ⟨-, -, -, hs⟩ | ⟨-, -, -, hs⟩ <;> rw [hs] at hq ⊢
    · cases hq
    · obtain rfl := Option.some.inj hq
      exact hb.counted h
    · cases hq

theorem backed_after {t : ℕ} (hu : ∀ s, 1 ≤ s → s ≤ t → Undisturbed k inputs s) :
    Backed inputs t (after k.policy inputs t) := by
  induction t with
  | zero =>
    intro q hq
    rw [after, policy_pending] at hq
    cases hq
  | succ t ih =>
    have hb := ih fun s hs hst => hu s hs (by omega)
    exact backed_step (sound_after inputs t) hb (hu (t + 1) (by omega) le_rfl)

/-- A change at the end of counted calls is a change after a dwell of supporting calls. -/
theorem consecutive_of_backed {t : ℕ} (hb : Backed inputs t (after k.policy inputs t)) :
    Consecutive k inputs (t + 1) := by
  rintro q ⟨-, hnow, hbefore⟩ i hi
  rw [Nat.add_sub_cancel] at hbefore
  cases h : (inputs (t + 1)).isFinite with
  | false =>
    have hsame : (after k.policy inputs (t + 1)) = after k.policy inputs t := evaluate_invalid h
    rw [hsame] at hnow
    rw [hnow] at hbefore
    exact absurd rfl hbefore
  | true =>
    obtain ⟨hacc, -⟩ := evaluate_valid (sound_after inputs t) h
    have heq := Option.some.inj (hnow.symm.trans hacc)
    rcases Debounce.step_cases k.dwell k.cooldown
      (counters (after k.policy inputs t) (inputs (t + 1)).currentProfile)
      (rawProfile (inputs (t + 1))) with ⟨-, hs⟩ | ⟨-, -, -, hs⟩ | ⟨-, -, hle, hs⟩ <;> rw [hs] at heq
    · exact absurd heq.symm hbefore
    · exact absurd heq.symm hbefore
    · rw [heq]
      exact hb.counted h i (by omega)

/-! ### What a disturbance leads to -/

/-- A sample whose raw candidate is this profile. -/
def sampleFor : Profile → PolicyInput
  | .performance => ⟨97.5, 4.0, 6, 900.0, 0.0, .balanced⟩
  | .interactive => ⟨50.0, 2.0, 4, 800.0, 0.0, .balanced⟩
  | .background => ⟨2.0, 0.1, 0, 50.0, 0.0, .balanced⟩
  | .balanced => ⟨20.0, 0.8, 1, 100.0, 0.0, .balanced⟩

theorem sampleFor_isFinite (q : Profile) : (sampleFor q).isFinite = true := by
  cases q <;> decide +kernel

theorem rawProfile_sampleFor (q : Profile) : rawProfile (sampleFor q) = q := by
  cases q <;> decide +kernel

/-- The first `t` calls as they were, and then samples for `q` only. -/
def insisting (inputs : ℕ → PolicyInput) (t : ℕ) (q : Profile) (s : ℕ) : PolicyInput :=
  if s ≤ t then inputs s else sampleFor q

theorem insisting_of_le {t s : ℕ} (q : Profile) (h : s ≤ t) :
    insisting inputs t q s = inputs s := if_pos h

theorem insisting_of_lt {t s : ℕ} (q : Profile) (h : t < s) :
    insisting inputs t q s = sampleFor q := if_neg (by omega)

/-- The state depends on the calls so far only. -/
theorem after_congr {inputs' : ℕ → PolicyInput} {t : ℕ} (h : ∀ s ≤ t, inputs' s = inputs s) :
    after p inputs' t = after p inputs t := by
  induction t with
  | zero => rfl
  | succ t ih => rw [after, after, ih fun s hs => h s (by omega), h (t + 1) le_rfl]

/-- A sample for the pending profile is counted, up to the dwell. -/
theorem evaluate_pending (hp : Sound k p) {q : Profile} (hq : p.pendingProfile = some q)
    (h : input.isFinite = true) (hraw : rawProfile input = q) :
    if p.pendingCount.toNat + 1 < k.dwell then
      (p.evaluate input).1.pendingProfile = some q ∧
        (p.evaluate input).1.pendingCount.toNat = p.pendingCount.toNat + 1
    else (p.evaluate input).1.acceptedProfile = some q := by
  obtain ⟨hacc, hpend, hcount, -⟩ := evaluate_valid hp h
  obtain ⟨-, hcool, a, ha, hne⟩ := hp.counting q hq
  have hcounted : (counters p input.currentProfile).counted q = p.pendingCount.toNat + 1 :=
    if_pos hq
  rw [hacc, hpend, hcount, hraw]
  rcases Debounce.step_cases k.dwell k.cooldown (counters p input.currentProfile) q with
    ⟨hkept, -⟩ | ⟨-, -, hlt, hs⟩ | ⟨-, -, hle, hs⟩
  · rw [counters, ha, hcool] at hkept
    simp [hne.symm] at hkept
  · rw [hcounted] at hlt hs
    rw [if_pos hlt, hs]
    exact ⟨rfl, rfl⟩
  · rw [hcounted] at hle
    rw [if_neg (by omega), hs]

/-- Insisting on the pending profile keeps counting for as long as the dwell is not reached. -/
theorem pending_insisting {t : ℕ} {q : Profile}
    (hq : (after k.policy inputs t).pendingProfile = some q) (n : ℕ)
    (hn : (after k.policy inputs t).pendingCount.toNat + n < k.dwell) :
    (after k.policy (insisting inputs t q) (t + n)).pendingProfile = some q ∧
      (after k.policy (insisting inputs t q) (t + n)).pendingCount.toNat =
        (after k.policy inputs t).pendingCount.toNat + n := by
  induction n with
  | zero =>
    rw [Nat.add_zero, after_congr fun s hs => insisting_of_le q hs]
    exact ⟨hq, rfl⟩
  | succ n ih =>
    obtain ⟨hpend, hcount⟩ := ih (by omega)
    have hinput : insisting inputs t q (t + n + 1) = sampleFor q := insisting_of_lt q (by omega)
    have h := evaluate_pending (sound_after (insisting inputs t q) (t + n)) hpend
      (sampleFor_isFinite q) (rawProfile_sampleFor q)
    rw [hcount, if_pos (by omega)] at h
    rw [← Nat.add_assoc, after, hinput]
    exact h

/-- After invalid telemetry while a candidate is pending, insisting on the candidate brings it about
    with this call among the last ones. -/
theorem exists_not_consecutive {t : ℕ} (ht : 1 ≤ t) (h : ¬ Undisturbed k inputs t) :
    ∃ inputs' t', (∀ s ≤ t, inputs' s = inputs s) ∧ ¬ Consecutive k inputs' t' := by
  obtain ⟨hinvalid, hpending⟩ := not_or.mp h
  rw [Bool.not_eq_true] at hinvalid
  obtain ⟨t, rfl⟩ := Nat.exists_eq_add_of_le' ht
  have hsame : after k.policy inputs (t + 1) = after k.policy inputs t := evaluate_invalid hinvalid
  rw [Nat.add_sub_cancel, ← hsame] at hpending
  obtain ⟨q, hq⟩ := Option.ne_none_iff_exists'.mp hpending
  have hsound : Sound k (after k.policy inputs (t + 1)) := sound_after inputs (t + 1)
  obtain ⟨hpos, -, -⟩ := hsound.counting q hq
  have hshort := hsound.short
  set c := (after k.policy inputs (t + 1)).pendingCount.toNat with hc
  set inputs' := insisting inputs (t + 1) q with hinputs'
  -- the candidate has been counted once less than the dwell
  obtain ⟨n, hn⟩ : ∃ n, c + n + 1 = k.dwell := ⟨k.dwell - c - 1, by omega⟩
  obtain ⟨hpend, hcount⟩ := pending_insisting hq n (by omega)
  have hsound' : Sound k (after k.policy inputs' (t + 1 + n)) := sound_after inputs' (t + 1 + n)
  obtain ⟨-, -, a, ha, hne⟩ := hsound'.counting q hpend
  have hinput : inputs' (t + 1 + n + 1) = sampleFor q := insisting_of_lt q (by omega)
  have htaken := evaluate_pending hsound' hpend (sampleFor_isFinite q) (rawProfile_sampleFor q)
  rw [hcount, if_neg (by omega), ← hinput] at htaken
  refine ⟨inputs', t + 1 + n + 1, fun s hs => insisting_of_le q hs, fun hcons => ?_⟩
  have hchange : ChangesTo k.policy inputs' q (t + 1 + n + 1) := by
    refine ⟨by omega, htaken, ?_⟩
    rw [Nat.add_sub_cancel, ha]
    exact hne
  have hvalid := (hcons q hchange (n + 1) (by omega)).valid
  rw [show t + 1 + n + 1 - (n + 1) = t + 1 by omega, hinputs', insisting_of_le q le_rfl,
    hinvalid] at hvalid
  cases hvalid

/-- In a run in which invalid telemetry never comes while a candidate is pending, every change is
    backed by the last calls of a dwell. Once it comes there, the run can go on to a change that is
    not. -/
theorem dwell_consecutive (k : Constructor) :
    (∀ inputs t, (∀ s, 1 ≤ s → s ≤ t → Undisturbed k inputs s) → Consecutive k inputs t) ∧
    (∀ inputs t, 1 ≤ t → ¬ Undisturbed k inputs t →
      ∃ inputs' t', (∀ s ≤ t, inputs' s = inputs s) ∧ ¬ Consecutive k inputs' t') := by
  refine ⟨fun inputs t hu => ?_, fun inputs t ht h => exists_not_consecutive ht h⟩
  cases t with
  | zero => exact fun q hq => absurd hq.call (by omega)
  | succ t => exact consecutive_of_backed (backed_after fun s hs hst => hu s hs (by omega))

/-- A loaded machine whose sample `n` has no value for the processor. -/
def gapAt (n t : ℕ) : PolicyInput :=
  if t = n then { busyAfterFirst t with cpuUsagePercent := 0.0 / 0.0 } else busyAfterFirst t

/-- The gap comes while no candidate is pending. -/
theorem gapAt_undisturbed (s : ℕ) : Undisturbed .new (gapAt 2) s := by
  by_cases h : s = 2
  · subst h
    exact .inr (by decide +kernel)
  · refine .inl ?_
    rw [gapAt, if_neg h]
    exact busyAfterFirst_isFinite s

theorem gapAt_changes : ChangesTo (Constructor.policy .new) (gapAt 2) .performance 5 :=
  ⟨by decide, by decide +kernel, by decide +kernel⟩

/-- The three samples after an invalid one bring the change about. -/
theorem gapAt_supports : Supports (gapAt 2) .performance 5 ∧ Supports (gapAt 2) .performance 4 ∧
    Supports (gapAt 2) .performance 3 := by
  have h := (dwell_consecutive .new).1 (gapAt 2) 5 (fun s _ _ => gapAt_undisturbed s)
    .performance gapAt_changes
  exact ⟨h 0 (by decide), h 1 (by decide), h 2 (by decide)⟩

/-- The fifth call changes the profile although the telemetry of the third was invalid. -/
theorem gap_counted : ¬ ∀ (k : Constructor) (inputs : ℕ → PolicyInput) (t : ℕ),
    Consecutive k inputs t := by
  intro h
  have hchange : ChangesTo (Constructor.policy .new) (gapAt 3) .performance 5 :=
    ⟨by decide, by decide +kernel, by decide +kernel⟩
  have hvalid := (h .new (gapAt 3) 5 .performance hchange 2 (by decide)).valid
  exact absurd hvalid (by decide +kernel)

end CerynthOS.Policy
