import CerynthOS.Policy.Evidence
import CerynthOS.Policy.Load

/-! The reported profile and the policy.

    The policy takes the reported profile over once, at its first valid sample, and from then on
    holds a profile of its own. So two runs that differ only in what is reported later are the
    same. -/

namespace CerynthOS.Policy
open Ipc Machine

/-- The input with another reported profile. -/
def PolicyInput.reporting (input : PolicyInput) (profile : Profile) : PolicyInput :=
  { input with currentProfile := profile }

variable {p : RulesBasedPolicy} {inputs inputs' : ℕ → PolicyInput}

/-- Call `t` is the first with finite telemetry. -/
def FirstFinite (inputs : ℕ → PolicyInput) (t : ℕ) : Prop :=
  1 ≤ t ∧ (inputs t).isFinite = true ∧ ∀ s, 1 ≤ s → s < t → (inputs s).isFinite = false

/-- A policy that holds a profile does not look at the reported one. -/
theorem stabilize_reported (h : p.acceptedProfile ≠ none) (candidate : PolicyDecision)
    (profile profile' : Profile) :
    p.stabilize candidate profile = p.stabilize candidate profile' := by
  obtain ⟨accepted, hsome⟩ := Option.ne_none_iff_exists'.mp h
  have hadopt (current : Profile) : p.adopt current = p := by
    rw [RulesBasedPolicy.adopt, hsome]
    rfl
  simp only [RulesBasedPolicy.stabilize, hadopt, hsome, Option.getD_some]

/-- One call does not look at the reported profile when the policy holds one or the sample is
    invalid. -/
theorem evaluate_reporting {input : PolicyInput} {profile : Profile}
    (h : input.isFinite = true → p.acceptedProfile = none → profile = input.currentProfile) :
    p.evaluate (input.reporting profile) = p.evaluate input := by
  have hfin : (input.reporting profile).isFinite = input.isFinite := rfl
  have hraw : p.rawDecision (input.reporting profile) = p.rawDecision input := rfl
  rw [RulesBasedPolicy.evaluate, RulesBasedPolicy.evaluate, hfin, hraw]
  cases hvalid : input.isFinite with
  | false => rfl
  | true =>
    simp only [Bool.not_true, Bool.false_eq_true, if_false]
    by_cases hnone : p.acceptedProfile = none
    · obtain rfl := h hvalid hnone
      rfl
    · exact stabilize_reported hnone _ _ _

theorem adopt_accepted (p : RulesBasedPolicy) (profile : Profile) :
    (p.adopt profile).acceptedProfile ≠ none := by
  rw [RulesBasedPolicy.adopt]
  split_ifs with h
  · simp
  · simpa using h

/-- A valid sample leaves a profile that the policy holds. -/
theorem evaluate_accepted {input : PolicyInput} (h : input.isFinite = true) :
    (p.evaluate input).1.acceptedProfile ≠ none := by
  have hadopt := adopt_accepted p input.currentProfile
  rw [RulesBasedPolicy.evaluate, h, RulesBasedPolicy.stabilize]
  simp only [Bool.not_true, Bool.false_eq_true, if_false]
  split_ifs
  · exact hadopt
  · exact hadopt
  · exact hadopt
  · refine RulesBasedPolicy.settle_acceptedProfile ?_ _ _
    rwa [RulesBasedPolicy.track_acceptedProfile]

/-- While the policy holds no profile, it has seen no valid sample. -/
theorem after_none (t : ℕ) (h : (after p inputs t).acceptedProfile = none) :
    ∀ s, 1 ≤ s → s ≤ t → (inputs s).isFinite = false := by
  induction t with
  | zero => intro s hs hle; omega
  | succ t ih =>
    have hinvalid : (inputs (t + 1)).isFinite = false := by
      by_contra hvalid
      exact evaluate_accepted (Bool.eq_true_of_not_eq_false hvalid) h
    rw [after, evaluate_invalid hinvalid] at h
    intro s hs hle
    rcases Nat.le_succ_iff.mp hle with hle | rfl
    · exact ih h s hs hle
    · exact hinvalid

/-- The inputs of the two runs agree but for the reported profiles, and agree on that of the first
    valid sample. -/
structure AgreeButReported (inputs inputs' : ℕ → PolicyInput) : Prop where
  telemetry : ∀ t, 1 ≤ t → inputs' t = (inputs t).reporting (inputs' t).currentProfile
  first : ∀ t, FirstFinite inputs t → (inputs' t).currentProfile = (inputs t).currentProfile

theorem AgreeButReported.evaluate (h : AgreeButReported inputs inputs') (t : ℕ) :
    (after p inputs t).evaluate (inputs' (t + 1)) =
      (after p inputs t).evaluate (inputs (t + 1)) := by
  rw [h.telemetry (t + 1) (Nat.le_add_left 1 t)]
  refine evaluate_reporting fun hvalid hnone => h.first (t + 1) ⟨Nat.le_add_left 1 t, hvalid, ?_⟩
  exact fun s hs hlt => after_none t hnone s hs (Nat.le_of_lt_succ hlt)

/-- The two runs stay side by side. -/
theorem AgreeButReported.after (h : AgreeButReported inputs inputs') (t : ℕ) :
    after p inputs' t = after p inputs t := by
  induction t with
  | zero => rfl
  | succ t ih => rw [Policy.after, Policy.after, ih, h.evaluate]

/-- Once there was a valid sample the reported profile is of no effect: the two runs give the same
    decisions at every call. -/
theorem decisions_reported (k : Constructor) (inputs inputs' : ℕ → PolicyInput)
    (h : AgreeButReported inputs inputs') :
    ∀ t, 1 ≤ t → decisionAt k.policy inputs' t = decisionAt k.policy inputs t := by
  intro t ht
  obtain ⟨t, rfl⟩ := Nat.exists_eq_add_of_le' ht
  rw [decisionAt, decisionAt, Nat.add_sub_cancel, h.after, h.evaluate]

/-- Telemetry whose first sample is no number and whose others are a busy machine's. -/
def lateTelemetry (profile : ℕ → Profile) (t : ℕ) : PolicyInput :=
  (signals (if t = 1 then 0.0 / 0.0 else 97.5) 4.0 6).reporting (profile t)

/-- The profile reported with the invalid sample and those reported after the first valid one are of
    no effect. -/
theorem lateTelemetry_reported :
    decisionAt .new (lateTelemetry fun t => if t = 2 then .balanced else .background) 7 =
      decisionAt .new (lateTelemetry fun _ => .balanced) 7 := by
  refine decisions_reported .new (lateTelemetry fun _ => .balanced) _ ⟨fun t _ => rfl, ?_⟩ 7
    (by decide)
  rintro t ⟨ht, hvalid, hfirst⟩
  have hone : t ≠ 1 := by
    rintro rfl
    exact absurd hvalid (by decide +kernel)
  have htwo : t ≤ 2 := by
    by_contra hlate
    exact absurd (hfirst 2 (by omega) (by omega)) (by decide +kernel)
  obtain rfl : t = 2 := by omega
  rfl

end CerynthOS.Policy
