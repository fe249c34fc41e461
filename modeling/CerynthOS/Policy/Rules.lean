import CerynthOS.Ipc.Profile
import CerynthOS.Schemes.Machine

/-! The rules-based adaptive policy: a raw recommendation computed from one telemetry sample, and
    the dwell and cooldown counters that stabilise the sequence of recommendations. -/

namespace CerynthOS.Policy
open Ipc Machine

/-- Telemetry presented to the policy. -/
structure PolicyInput where
  cpuUsagePercent : Float
  load1m : Float
  runnableTasks : UInt64
  contextSwitchRate : Float
  shortLivedProcessRate : Float
  currentProfile : Profile

/-- Recommendation produced by the policy. -/
structure PolicyDecision where
  recommendedProfile : Profile
  confidence : Float
  reason : String

/-- The policy's settings and its stabilisation state. -/
structure RulesBasedPolicy where
  minConfidence : Float
  minDwellSamples : UInt32
  cooldownSamples : UInt32
  acceptedProfile : Option Profile
  pendingProfile : Option Profile
  pendingCount : UInt32
  cooldownRemaining : UInt32

namespace RulesBasedPolicy

/-- `Default for RulesBasedPolicy`. -/
def default : RulesBasedPolicy where
  minConfidence := 0.60
  minDwellSamples := 3
  cooldownSamples := 5
  acceptedProfile := none
  pendingProfile := none
  pendingCount := 0
  cooldownRemaining := 0

def new : RulesBasedPolicy := default

def withMinConfidence (minConfidence : Float) : RulesBasedPolicy :=
  { default with minConfidence := clampF64 minConfidence 0.0 1.0 }

def withStabilityControls (minConfidence : Float) (minDwellSamples cooldownSamples : UInt32) :
    RulesBasedPolicy :=
  { default with
    minConfidence := clampF64 minConfidence 0.0 1.0
    minDwellSamples := max minDwellSamples 1
    cooldownSamples := cooldownSamples }

/-- How strongly one sample supports a profile. -/
def workloadConfidence (profile : Profile) (cpu load : Float) (runnable : UInt64)
    (ctxtRate shortLived : Float) : Float :=
  match profile with
  | .performance =>
    let cpuScore := clampF64 ((cpu - 85.0) / 15.0) 0.0 1.0
    let loadScore := clampF64 ((load - 1.0) / 2.0) 0.0 1.0
    let runnableScore := clampF64 ((toF64 runnable.toNat - 2.0) / 4.0) 0.0 1.0
    clampF64 (0.65 * cpuScore + 0.20 * loadScore + 0.15 * runnableScore) 0.0 1.0
  | .interactive =>
    let runnableScore := clampF64 ((toF64 runnable.toNat - 1.0) / 3.0) 0.0 1.0
    let ctxtScore := clampF64 ((ctxtRate - 150.0) / 850.0) 0.0 1.0
    let processScore := clampF64 ((shortLived - 2.0) / 8.0) 0.0 1.0
    clampF64 (0.35 * runnableScore + 0.40 * ctxtScore + 0.25 * processScore) 0.0 1.0
  | .background =>
    let cpuScore := clampF64 (1.0 - cpu / 10.0) 0.0 1.0
    let loadScore := clampF64 (1.0 - load / 0.5) 0.0 1.0
    let runnableScore : Float := if runnable = 0 then 1.0 else 0.0
    let processScore := clampF64 (1.0 - shortLived) 0.0 1.0
    clampF64 (0.40 * cpuScore + 0.25 * loadScore + 0.20 * runnableScore + 0.15 * processScore)
      0.0 1.0
  | .balanced =>
    let cpuDistance := (cpu - 50.0).abs / 50.0
    let loadDistance := (load - 1.0).abs / 2.0
    clampF64 (1.0 - 0.6 * cpuDistance - 0.4 * loadDistance) 0.0 1.0

/-- A decision whose confidence is at least the policy's minimum. -/
def decision (self : RulesBasedPolicy) (profile : Profile) (confidence : Float) (reason : String) :
    PolicyDecision where
  recommendedProfile := profile
  confidence := maxF64 confidence self.minConfidence
  reason := reason

/-- The reported profile is the source of truth when the policy is first evaluated. -/
def adopt (self : RulesBasedPolicy) (currentProfile : Profile) : RulesBasedPolicy :=
  if self.acceptedProfile.isNone then { self with acceptedProfile := some currentProfile } else self

/-- Counts one more sample for a candidate. -/
def track (self : RulesBasedPolicy) (candidate : Profile) : RulesBasedPolicy :=
  if self.pendingProfile = some candidate then
    { self with pendingCount := satAdd32 self.pendingCount 1 }
  else { self with pendingProfile := some candidate, pendingCount := 1 }

/-- What `stabilize` does with a candidate that it has counted. -/
def settle (self : RulesBasedPolicy) (accepted : Profile) (candidate : PolicyDecision) :
    RulesBasedPolicy × PolicyDecision :=
  if self.pendingCount < self.minDwellSamples then
    (self, self.decision accepted candidate.confidence
      ("Holding " ++ toString accepted ++ " until " ++ toString candidate.recommendedProfile
        ++ " consecutive samples support " ++ toString candidate.recommendedProfile ++ "; "
        ++ toString self.pendingCount ++ "/" ++ toString self.minDwellSamples))
  else
    ({ self with
      acceptedProfile := some candidate.recommendedProfile
      pendingProfile := none
      pendingCount := 0
      cooldownRemaining := self.cooldownSamples }, candidate)

theorem track_acceptedProfile (self : RulesBasedPolicy) (candidate : Profile) :
    (self.track candidate).acceptedProfile = self.acceptedProfile := by
  rw [track]
  split_ifs <;> rfl

theorem settle_acceptedProfile {self : RulesBasedPolicy} (h : self.acceptedProfile ≠ none)
    (accepted : Profile) (candidate : PolicyDecision) :
    (self.settle accepted candidate).1.acceptedProfile ≠ none := by
  rw [settle]
  split_ifs
  · exact h
  · simp

/-- Dwell-time and cooldown protection of the raw recommendation. -/
def stabilize (self : RulesBasedPolicy) (candidate : PolicyDecision) (currentProfile : Profile) :
    RulesBasedPolicy × PolicyDecision :=
  let self := self.adopt currentProfile
  let accepted := self.acceptedProfile.getD currentProfile
  if candidate.recommendedProfile = accepted then
    let self := { self with pendingProfile := none, pendingCount := 0 }
    let self := if self.cooldownRemaining > 0 then
      { self with cooldownRemaining := self.cooldownRemaining - 1 } else self
    (self, candidate)
  else if self.cooldownRemaining > 0 then
    let self := { self with
      pendingProfile := none
      pendingCount := 0
      cooldownRemaining := self.cooldownRemaining - 1 }
    (self, self.decision accepted candidate.confidence
      ("Holding " ++ toString accepted ++ " during profile-change cooldown; candidate "
        ++ toString candidate.recommendedProfile))
  else (self.track candidate.recommendedProfile).settle accepted candidate

end RulesBasedPolicy

/-- All telemetry values the policy tests are finite. -/
def PolicyInput.isFinite (input : PolicyInput) : Bool :=
  input.cpuUsagePercent.isFinite && input.load1m.isFinite && input.contextSwitchRate.isFinite
    && input.shortLivedProcessRate.isFinite

namespace RulesBasedPolicy

/-- The raw workload recommendation for one sample: the first rule that matches. -/
def rawDecision (self : RulesBasedPolicy) (input : PolicyInput) : PolicyDecision :=
  let confidence := fun profile => workloadConfidence profile input.cpuUsagePercent input.load1m
    input.runnableTasks input.contextSwitchRate input.shortLivedProcessRate
  if input.cpuUsagePercent ≥ 90.0 ∧ input.load1m ≥ 1.0 ∧ input.runnableTasks ≥ 2 then
    self.decision .performance (confidence .performance)
      "Very high CPU utilisation with sustained runnable pressure"
  else if input.runnableTasks ≥ 2 ∧
      ((input.contextSwitchRate ≥ 500.0 ∧ input.runnableTasks ≥ 3) ∨
        input.shortLivedProcessRate ≥ 5.0) then
    self.decision .interactive (confidence .interactive)
      "High runnable load with frequent context switches or short-lived process activity"
  else if input.cpuUsagePercent < 10.0 ∧ input.load1m < 0.5 ∧ input.runnableTasks ≤ 1 ∧
      input.shortLivedProcessRate < 1.0 then
    self.decision .background (confidence .background)
      "Very low CPU utilisation and runnable pressure with minimal process activity"
  else if input.cpuUsagePercent < 30.0 ∧ input.runnableTasks ≤ 1 then
    self.decision .balanced 0.90 "Low CPU utilisation and low runnable load"
  else
    self.decision .balanced (confidence .balanced)
      "Workload does not strongly match another profile"

/-- `Policy::evaluate`. -/
def evaluate (self : RulesBasedPolicy) (input : PolicyInput) : RulesBasedPolicy × PolicyDecision :=
  -- Invalid telemetry fails safe to Balanced and leaves the counters alone.
  if !input.isFinite then
    (self, self.decision .balanced 1.0 "Invalid telemetry; defaulting to balanced")
  else self.stabilize (self.rawDecision input) input.currentProfile

end RulesBasedPolicy

end CerynthOS.Policy
