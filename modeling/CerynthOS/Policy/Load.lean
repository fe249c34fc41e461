import CerynthOS.Policy.Stability
import CerynthOS.Schemes.FloatOrder

/-! More load never asks for a lighter profile.

    The rules are tried in the order of the profiles they ask for, heaviest first. Each asks for
    signals that are large, except the one for Background, which asks for small ones and is the last
    but the default. So raising the signals can only move the sample up the list. -/

namespace CerynthOS.Policy
open Ipc Machine

/-- How much a profile gives to the workload. -/
def heaviness : Profile → ℕ
  | .background => 0
  | .balanced => 1
  | .interactive => 2
  | .performance => 3

/-- No signal of the first sample exceeds that of the second. -/
structure NoHeavier (light heavy : PolicyInput) : Prop where
  cpu : light.cpuUsagePercent ≤ heavy.cpuUsagePercent
  load : light.load1m ≤ heavy.load1m
  runnable : light.runnableTasks ≤ heavy.runnableTasks
  ctxt : light.contextSwitchRate ≤ heavy.contextSwitchRate
  shortLived : light.shortLivedProcessRate ≤ heavy.shortLivedProcessRate

/-- The rule for Performance matches. -/
def Saturated (input : PolicyInput) : Prop :=
  input.cpuUsagePercent ≥ 90.0 ∧ input.load1m ≥ 1.0 ∧ input.runnableTasks ≥ 2

/-- The rule for Interactive matches. -/
def Bustling (input : PolicyInput) : Prop :=
  input.runnableTasks ≥ 2 ∧
    ((input.contextSwitchRate ≥ 500.0 ∧ input.runnableTasks ≥ 3) ∨
      input.shortLivedProcessRate ≥ 5.0)

/-- The rule for Background matches. -/
def Quiet (input : PolicyInput) : Prop :=
  input.cpuUsagePercent < 10.0 ∧ input.load1m < 0.5 ∧ input.runnableTasks ≤ 1 ∧
    input.shortLivedProcessRate < 1.0

variable {light heavy : PolicyInput}

/-- Which profile the rules ask for. -/
theorem heaviness_rawProfile (input : PolicyInput) :
    (heaviness (rawProfile input) = 3 ∧ Saturated input) ∨
    (heaviness (rawProfile input) = 2 ∧ ¬ Saturated input ∧ Bustling input) ∨
    (heaviness (rawProfile input) = 0 ∧ ¬ Saturated input ∧ ¬ Bustling input ∧ Quiet input) ∨
    (heaviness (rawProfile input) = 1 ∧ ¬ Saturated input ∧ ¬ Bustling input ∧ ¬ Quiet input) := by
  rw [rawProfile, RulesBasedPolicy.rawDecision]
  split_ifs with hs hb hq hl
  · exact .inl ⟨rfl, hs⟩
  · exact .inr (.inl ⟨rfl, hs, hb⟩)
  · exact .inr (.inr (.inl ⟨rfl, hs, hb, hq⟩))
  · exact .inr (.inr (.inr ⟨rfl, hs, hb, hq⟩))
  · exact .inr (.inr (.inr ⟨rfl, hs, hb, hq⟩))

theorem NoHeavier.saturated (h : NoHeavier light heavy) : Saturated light → Saturated heavy := by
  rintro ⟨hcpu, hload, hrunnable⟩
  exact ⟨FloatOrder.le_trans hcpu h.cpu, FloatOrder.le_trans hload h.load,
    UInt64.le_trans hrunnable h.runnable⟩

theorem NoHeavier.bustling (h : NoHeavier light heavy) : Bustling light → Bustling heavy := by
  rintro ⟨hrunnable, hrule⟩
  refine ⟨UInt64.le_trans hrunnable h.runnable, ?_⟩
  rcases hrule with ⟨hctxt, hthree⟩ | hshort
  · exact .inl ⟨FloatOrder.le_trans hctxt h.ctxt, UInt64.le_trans hthree h.runnable⟩
  · exact .inr (FloatOrder.le_trans hshort h.shortLived)

theorem NoHeavier.quiet (h : NoHeavier light heavy) : Quiet heavy → Quiet light := by
  rintro ⟨hcpu, hload, hrunnable, hshort⟩
  exact ⟨FloatOrder.lt_of_le_of_lt h.cpu hcpu, FloatOrder.lt_of_le_of_lt h.load hload,
    UInt64.le_trans h.runnable hrunnable, FloatOrder.lt_of_le_of_lt h.shortLived hshort⟩

/-- Of two samples, the one whose signals are all as large as the other's gets no lighter a raw
    candidate, whatever the settings of the policy. -/
theorem rawDecision_monotone (p p' : RulesBasedPolicy) (light heavy : PolicyInput)
    (h : NoHeavier light heavy) :
    heaviness (p.rawDecision light).recommendedProfile ≤
      heaviness (p'.rawDecision heavy).recommendedProfile := by
  rw [rawDecision_profile, rawDecision_profile]
  rcases heaviness_rawProfile light with ⟨hl, hs⟩ | ⟨hl, -, hb⟩ | ⟨hl, -⟩ | ⟨hl, -, -, hq⟩
  · rcases heaviness_rawProfile heavy with ⟨hh, -⟩ | ⟨-, hs', -⟩ | ⟨-, hs', -⟩ | ⟨-, hs', -⟩
    · rw [hl, hh]
    all_goals exact absurd (h.saturated hs) hs'
  · rcases heaviness_rawProfile heavy with ⟨hh, -⟩ | ⟨hh, -⟩ | ⟨-, -, hb', -⟩ | ⟨-, -, hb', -⟩
    · omega
    · omega
    all_goals exact absurd (h.bustling hb) hb'
  · rw [hl]
    exact Nat.zero_le _
  · rcases heaviness_rawProfile heavy with ⟨hh, -⟩ | ⟨hh, -⟩ | ⟨-, -, -, hq'⟩ | ⟨hh, -⟩
    · omega
    · omega
    · exact absurd (h.quiet hq') hq
    · omega

/-- A sample with these signals, one task that runs and no new processes. -/
def signals (cpu load : Float) (runnable : UInt64) : PolicyInput where
  cpuUsagePercent := cpu
  load1m := load
  runnableTasks := runnable
  contextSwitchRate := 100.0
  shortLivedProcessRate := 0.0
  currentProfile := .balanced

/-- An idle machine and one at the threshold of Performance. -/
theorem signals_monotone :
    heaviness (RulesBasedPolicy.new.rawDecision (signals 9.5 0.25 1)).recommendedProfile ≤
      heaviness (RulesBasedPolicy.new.rawDecision (signals 90.0 1.0 2)).recommendedProfile :=
  rawDecision_monotone .new .new (signals 9.5 0.25 1) (signals 90.0 1.0 2)
    ⟨by decide +kernel, by decide +kernel, by decide +kernel, by decide +kernel, by decide +kernel⟩

end CerynthOS.Policy
