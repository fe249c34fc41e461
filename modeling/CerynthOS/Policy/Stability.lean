import CerynthOS.Policy.Rules
import CerynthOS.Schemes.Debounce

/-! The stabilisation law of the policy.

    `stabilize` is the debouncer of `Schemes.Debounce` on the raw candidate profiles: the dwell is
    `min_dwell_samples`, the cooldown `cooldown_samples`, and the machine's counters are the
    policy's 32-bit ones, which never saturate because a count that reaches the dwell is reset. -/

namespace CerynthOS.Policy
open Ipc Machine

/-- The public ways to make a policy. -/
inductive Constructor where
  | new
  | withMinConfidence (minConfidence : Float)
  | withStabilityControls (minConfidence : Float) (minDwellSamples cooldownSamples : UInt32)

namespace Constructor

def policy : Constructor → RulesBasedPolicy
  | new => .new
  | withMinConfidence m => .withMinConfidence m
  | withStabilityControls m d c => .withStabilityControls m d c

/-- The number of equal candidates a change takes. -/
def dwell : Constructor → ℕ
  | withStabilityControls _ d _ => max d.toNat 1
  | _ => 3

/-- The number of evaluations after a change in which nothing is counted. -/
def cooldown : Constructor → ℕ
  | withStabilityControls _ _ c => c.toNat
  | _ => 5

theorem dwell_pos (k : Constructor) : 1 ≤ k.dwell := by
  cases k with
  | withStabilityControls _ d _ => exact Nat.le_max_right d.toNat 1
  | _ => simp [dwell]

theorem policy_settings (k : Constructor) :
    k.policy.minDwellSamples.toNat = k.dwell ∧ k.policy.cooldownSamples.toNat = k.cooldown := by
  cases k with
  | new => exact ⟨rfl, rfl⟩
  | withMinConfidence m => exact ⟨rfl, rfl⟩
  | withStabilityControls m d c =>
    refine ⟨?_, rfl⟩
    change (if d ≤ 1 then 1 else d).toNat = max d.toNat 1
    split
    · next h => exact (Nat.max_eq_right (UInt32.le_iff_toNat_le.mp h)).symm
    · next h =>
      have h' : 1 < d.toNat := by simpa [UInt32.le_iff_toNat_le] using h
      exact (Nat.max_eq_left h'.le).symm

end Constructor

/-! ### Runs of the policy -/

/-- The policy after the first `t` calls of `evaluate`; calls are numbered from 1. -/
def after (p : RulesBasedPolicy) (inputs : ℕ → PolicyInput) : ℕ → RulesBasedPolicy
  | 0 => p
  | t + 1 => ((after p inputs t).evaluate (inputs (t + 1))).1

/-- The decision returned by call `t`. -/
def decisionAt (p : RulesBasedPolicy) (inputs : ℕ → PolicyInput) (t : ℕ) : PolicyDecision :=
  ((after p inputs (t - 1)).evaluate (inputs t)).2

/-- The raw candidate for one sample. No setting of the policy enters it. -/
def rawProfile (input : PolicyInput) : Profile :=
  (RulesBasedPolicy.new.rawDecision input).recommendedProfile

/-- The accepted profile after call `t`; before the first call, the profile its input reports. -/
def acceptedAt (p : RulesBasedPolicy) (inputs : ℕ → PolicyInput) (t : ℕ) : Profile :=
  (after p inputs t).acceptedProfile.getD (inputs 1).currentProfile

theorem rawDecision_profile (p : RulesBasedPolicy) (input : PolicyInput) :
    (p.rawDecision input).recommendedProfile = rawProfile input := by
  simp only [rawProfile, RulesBasedPolicy.rawDecision]
  split_ifs <;> rfl

/-! ### The policy's counters are a debouncer's -/

/-- The policy `p` is in the debouncer state `s`; `a₀` stands in for the accepted profile until
    there is one. -/
structure Counts (p : RulesBasedPolicy) (a₀ : Profile) (s : Debounce.State Profile) : Prop where
  accepted : p.acceptedProfile.getD a₀ = s.accepted
  pending : p.pendingProfile = s.pending
  count : p.pendingCount.toNat = s.count
  cooldown : p.cooldownRemaining.toNat = s.cooldown
  short : s.count < p.minDwellSamples.toNat

theorem counts_policy (k : Constructor) (a₀ : Profile) :
    Counts k.policy a₀ (Debounce.init a₀) := by
  have hpos := k.dwell_pos
  rw [← k.policy_settings.1] at hpos
  cases k <;> exact ⟨rfl, rfl, rfl, rfl, hpos⟩

/-- After the first line of `stabilize` the policy holds the debouncer's accepted profile. -/
theorem adopt_eq {p : RulesBasedPolicy} {a₀ current : Profile} {s : Debounce.State Profile}
    (h : Counts p a₀ s) (hfirst : p.acceptedProfile = none → current = a₀) :
    p.adopt current = { p with acceptedProfile := some s.accepted } := by
  have hacc := h.accepted
  obtain ⟨_, _, _, acc, _, _, _⟩ := p
  cases acc with
  | none => obtain rfl := hfirst rfl; rw [← show current = s.accepted from hacc]; rfl
  | some a => obtain rfl : a = s.accepted := hacc; rfl

theorem pred_toNat {x : UInt32} (h : x > 0) : (x - 1).toNat = x.toNat - 1 :=
  UInt32.toNat_sub_of_le _ _ (UInt32.le_iff_toNat_le.mpr (UInt32.lt_iff_toNat_lt.mp h))

theorem track_eq (p : RulesBasedPolicy) (candidate : Profile) : p.track candidate = { p with
    pendingProfile := some candidate
    pendingCount := (p.track candidate).pendingCount } := by
  rw [RulesBasedPolicy.track]
  split_ifs with hp
  · rw [← hp]
  · rfl

/-- The count of the pending candidate is below the dwell, so one more does not saturate it. -/
theorem Counts.track_toNat {p : RulesBasedPolicy} {a₀ : Profile} {s : Debounce.State Profile}
    (h : Counts p a₀ s) (candidate : Profile) : (p.track candidate).pendingCount.toNat =
      if s.pending = some candidate then s.count + 1 else 1 := by
  have hshort := h.short
  have hdwell := p.minDwellSamples.toNat_lt
  rw [RulesBasedPolicy.track, h.pending]
  split_ifs
  · rw [satAdd32_toNat (by rw [h.count, UInt32.toNat_one]; omega), h.count]
    rfl
  · rfl

/-- One stabilised recommendation is one candidate of the debouncer, and what is recommended is
    what the debouncer then accepts. -/
theorem stabilize_counts {p : RulesBasedPolicy} {a₀ current : Profile} {s : Debounce.State Profile}
    (h : Counts p a₀ s) (hfirst : p.acceptedProfile = none → current = a₀)
    (candidate : PolicyDecision) :
    Counts (p.stabilize candidate current).1 a₀ (Debounce.step p.minDwellSamples.toNat
      p.cooldownSamples.toNat s candidate.recommendedProfile) ∧
    (p.stabilize candidate current).2.recommendedProfile = (Debounce.step p.minDwellSamples.toNat
      p.cooldownSamples.toNat s candidate.recommendedProfile).accepted ∧
    (p.stabilize candidate current).1.acceptedProfile ≠ none ∧
    (p.stabilize candidate current).1.minDwellSamples = p.minDwellSamples ∧
    (p.stabilize candidate current).1.cooldownSamples = p.cooldownSamples := by
  have hpos : 0 < p.minDwellSamples.toNat := Nat.lt_of_le_of_lt (Nat.zero_le _) h.short
  have hcool : p.cooldownRemaining > 0 ↔ 0 < s.cooldown := by
    rw [← h.cooldown, gt_iff_lt, UInt32.lt_iff_toNat_lt]; rfl
  unfold RulesBasedPolicy.stabilize Debounce.step
  rw [adopt_eq h hfirst]
  simp only [Option.getD_some]
  by_cases hq : candidate.recommendedProfile = s.accepted
  · -- agreement with the accepted profile
    rw [if_pos hq, if_pos (Or.inl hq)]
    by_cases hc : p.cooldownRemaining > 0
    · rw [if_pos hc]
      exact ⟨⟨rfl, rfl, rfl, by rw [← h.cooldown]; exact pred_toNat hc, hpos⟩, hq, by simp, rfl,
        rfl⟩
    · rw [if_neg hc]
      have hz : s.cooldown - 1 = s.cooldown := by rw [hcool] at hc; omega
      exact ⟨⟨rfl, rfl, rfl, by rw [hz, ← h.cooldown], hpos⟩, hq, by simp, rfl, rfl⟩
  · rw [if_neg hq]
    by_cases hc : p.cooldownRemaining > 0
    · -- the cooldown holds the accepted profile
      rw [if_pos hc, if_pos (Or.inr (hcool.mp hc))]
      exact ⟨⟨rfl, rfl, rfl, by rw [← h.cooldown]; exact pred_toNat hc, hpos⟩, rfl, by simp, rfl,
        rfl⟩
    · -- the dwell counter
      rw [if_neg hc, if_neg (not_or.mpr ⟨hq, mt hcool.mpr hc⟩), RulesBasedPolicy.settle]
      have hz : p.cooldownRemaining.toNat = 0 := by
        rw [hcool] at hc; rw [h.cooldown]; omega
      have hadopted : Counts { p with acceptedProfile := some s.accepted } a₀ s :=
        ⟨rfl, h.pending, h.count, h.cooldown, h.short⟩
      rw [track_eq, ← hadopted.track_toNat]
      generalize RulesBasedPolicy.pendingCount _ = n
      by_cases hlt : n < p.minDwellSamples
      · have hlt' := UInt32.lt_iff_toNat_lt.mp hlt
        rw [if_pos hlt, if_pos hlt']
        exact ⟨⟨rfl, rfl, rfl, hz, hlt'⟩, rfl, by simp, rfl, rfl⟩
      · rw [if_neg hlt, if_neg (mt UInt32.lt_iff_toNat_lt.mpr hlt)]
        exact ⟨⟨rfl, rfl, rfl, rfl, hpos⟩, rfl, by simp, rfl, rfl⟩

/-! ### The law over runs -/

variable (k : Constructor) (inputs : ℕ → PolicyInput)

/-- The raw candidate of call `t`. -/
def candidateAt (t : ℕ) : Profile := rawProfile (inputs t)

/-- The debouncer state after `t` calls. -/
def debounced (t : ℕ) : Debounce.State Profile :=
  Debounce.run k.dwell k.cooldown (inputs 1).currentProfile (candidateAt inputs) t

/-- What call `t + 1` does to a policy whose counters are a debouncer's. -/
theorem evaluate_counts {p : RulesBasedPolicy} {t : ℕ} (hfin : (inputs (t + 1)).isFinite)
    (hset : p.minDwellSamples.toNat = k.dwell ∧ p.cooldownSamples.toNat = k.cooldown)
    (h : Counts p (inputs 1).currentProfile (debounced k inputs t))
    (hfirst : p.acceptedProfile = none →
      (inputs (t + 1)).currentProfile = (inputs 1).currentProfile) :
    Counts (p.evaluate (inputs (t + 1))).1 (inputs 1).currentProfile (debounced k inputs (t + 1)) ∧
    (p.evaluate (inputs (t + 1))).2.recommendedProfile = (debounced k inputs (t + 1)).accepted ∧
    (p.evaluate (inputs (t + 1))).1.acceptedProfile ≠ none ∧
    ((p.evaluate (inputs (t + 1))).1.minDwellSamples.toNat = k.dwell ∧
      (p.evaluate (inputs (t + 1))).1.cooldownSamples.toNat = k.cooldown) := by
  have hs := stabilize_counts h hfirst (p.rawDecision (inputs (t + 1)))
  rw [rawDecision_profile, hset.1, hset.2] at hs
  obtain ⟨hc, hr, hn, hd, hk⟩ := hs
  simp only [RulesBasedPolicy.evaluate, hfin, Bool.not_true, Bool.false_eq_true, if_false]
  exact ⟨hc, hr, hn, by rw [hd, hset.1], by rw [hk, hset.2]⟩

/-- The policy and the debouncer go through a run side by side. -/
theorem after_counts (hfin : ∀ t, 1 ≤ t → (inputs t).isFinite) (t : ℕ) :
    Counts (after k.policy inputs t) (inputs 1).currentProfile (debounced k inputs t) ∧
    ((after k.policy inputs t).acceptedProfile = none → t = 0) ∧
    ((after k.policy inputs t).minDwellSamples.toNat = k.dwell ∧
      (after k.policy inputs t).cooldownSamples.toNat = k.cooldown) := by
  induction t with
  | zero => exact ⟨counts_policy k _, fun _ => rfl, k.policy_settings⟩
  | succ t ih =>
    obtain ⟨hc, hn, hset⟩ := ih
    obtain ⟨hc', -, hn', hset'⟩ := evaluate_counts k inputs (hfin (t + 1) (by omega)) hset hc
      (fun h => by rw [hn h])
    exact ⟨hc', fun h => absurd h hn', hset'⟩

/-- The accepted profiles of the policy are the debounced candidates. -/
theorem acceptedAt_eq (hfin : ∀ t, 1 ≤ t → (inputs t).isFinite) :
    acceptedAt k.policy inputs = Debounce.accepted k.dwell k.cooldown (inputs 1).currentProfile
      (candidateAt inputs) :=
  funext fun t => (after_counts k inputs hfin t).1.accepted

/-- Every call recommends the profile that is accepted after it. -/
theorem decisionAt_profile (hfin : ∀ t, 1 ≤ t → (inputs t).isFinite) {t : ℕ} (ht : 1 ≤ t) :
    (decisionAt k.policy inputs t).recommendedProfile = acceptedAt k.policy inputs t := by
  obtain ⟨t, rfl⟩ := Nat.exists_eq_add_of_le' ht
  obtain ⟨hc, hn, hset⟩ := after_counts k inputs hfin t
  have h := (evaluate_counts k inputs (hfin (t + 1) ht) hset hc (fun h => by rw [hn h])).2.1
  rw [acceptedAt_eq k inputs hfin]
  exact h

/-- The stabilisation law: the recommended profile is the accepted one; it changes at call `t`
    exactly when the candidate differs, the last `D` candidates are equal and the previous change is
    at least `C + D` calls back, and then to the candidate. So two changes are never closer than
    `C + D` calls, and `D` equal candidates outside the cooldown are enough. -/
theorem stabilisation_law (hfin : ∀ t, 1 ≤ t → (inputs t).isFinite) :
    acceptedAt k.policy inputs 0 = (inputs 1).currentProfile ∧
    (∀ t, 1 ≤ t →
      (decisionAt k.policy inputs t).recommendedProfile = acceptedAt k.policy inputs t) ∧
    Debounce.Law k.dwell k.cooldown (candidateAt inputs) (acceptedAt k.policy inputs) ∧
    (∀ s t, Debounce.Changes (acceptedAt k.policy inputs) s →
      Debounce.Changes (acceptedAt k.policy inputs) t → s < t →
      s + k.cooldown + k.dwell ≤ t) ∧
    (∀ t, 1 ≤ t → Debounce.Steady k.dwell (candidateAt inputs) t →
      Debounce.Rested k.dwell k.cooldown (acceptedAt k.policy inputs) t →
      acceptedAt k.policy inputs t = candidateAt inputs t) := by
  have hlaw : Debounce.Law k.dwell k.cooldown (candidateAt inputs)
      (acceptedAt k.policy inputs) := by
    rw [acceptedAt_eq k inputs hfin]
    exact Debounce.law_run k.dwell_pos _ _
  refine ⟨?_, fun t ht => decisionAt_profile k inputs hfin ht, hlaw,
    fun s t hs ht hst => hlaw.spaced hs ht hst, fun t ht hq hr => hlaw.enough ht hq hr⟩
  rw [acceptedAt_eq k inputs hfin]
  rfl

/-- A machine under full load from the second sample on. -/
def busyAfterFirst (t : ℕ) : PolicyInput where
  cpuUsagePercent := if t = 1 then 20.0 else 97.5
  load1m := 4.0
  runnableTasks := if t = 1 then 1 else 6
  contextSwitchRate := 900.0
  shortLivedProcessRate := 0.0
  currentProfile := .balanced

theorem busyAfterFirst_isFinite (t : ℕ) : (busyAfterFirst t).isFinite := by
  unfold busyAfterFirst
  split_ifs <;> decide +kernel

theorem busyAfterFirst_steady :
    Debounce.Steady (Constructor.dwell .new) (candidateAt busyAfterFirst) 4 := by
  have hdwell : Constructor.dwell .new = 3 := rfl
  refine ⟨by rw [hdwell]; omega, fun i hi => ?_⟩
  have h : (busyAfterFirst (4 - i)) = busyAfterFirst 4 := by
    rw [hdwell] at hi
    rw [busyAfterFirst, busyAfterFirst, if_neg (by omega), if_neg (by omega)]
    rfl
  rw [candidateAt, candidateAt, h]

/-- The default policy turns to the performance profile three loaded samples after the idle one. -/
theorem busyAfterFirst_law :
    (decisionAt .new busyAfterFirst 4).recommendedProfile = .performance := by
  have h := stabilisation_law .new busyAfterFirst (fun t _ => busyAfterFirst_isFinite t)
  refine (h.2.1 4 (by omega)).trans ?_
  by_cases hc : ∃ s, Debounce.PrevChange (acceptedAt .new busyAfterFirst) s 4
  · -- a change before call 4 would need a dwell of its own, which the first sample breaks
    obtain ⟨s, hs, hlt, -⟩ := hc
    obtain ⟨-, ⟨h3, hq⟩, -⟩ := (h.2.2.1.changes_iff s hs.1).mp hs.2
    have hs3 : s = 3 := by
      have : Constructor.dwell .new = 3 := rfl
      omega
    subst hs3
    exact absurd (hq 2 (by decide)) (by decide +kernel)
  · exact (h.2.2.2.2 4 (by omega) busyAfterFirst_steady fun s hs => absurd ⟨s, hs⟩ hc).trans
      (by decide +kernel)

end CerynthOS.Policy
