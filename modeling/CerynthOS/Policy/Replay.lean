import CerynthOS.Policy.Stability
import CerynthOS.Schemes.Binary64

/-! The live policy and the replay of recorded telemetry.

    Both evaluate the policy on a sequence of snapshots: the live program on those that it collects,
    the replay on those that it reads. The live program takes the rates that a snapshot records; the
    replay computes the rate of context switches from two snapshots, and has no rate of short-lived
    processes. So their raw candidates can differ, and the recommendations are the same exactly when
    the two streams of candidates debounce to the same. -/

namespace CerynthOS.Policy
open Ipc Machine

/-- What the two programs read of a point-in-time snapshot. -/
structure SystemSnapshot where
  timestampMs : BitVec 128
  cpuUsagePercent : Float
  load1m : Float
  runnableTasks : UInt64
  contextSwitches : UInt64
  contextSwitchRate : Float
  shortLivedProcessRate : Float
  schedulerProfile : Option String

namespace SystemSnapshot

/-- The profile a snapshot reports. -/
def profile (snapshot : SystemSnapshot) : Profile :=
  (snapshot.schedulerProfile.bind fun profile => (Profile.fromStr profile).toOption).getD .balanced

/-- The recorded values that the programs read are finite. -/
def isFinite (snapshot : SystemSnapshot) : Bool :=
  snapshot.cpuUsagePercent.isFinite && snapshot.load1m.isFinite &&
    snapshot.contextSwitchRate.isFinite && snapshot.shortLivedProcessRate.isFinite

end SystemSnapshot

/-! ### The live policy -/

namespace Live

/-- What the live policy writes. -/
structure PolicyOutput where
  recommendedProfile : Profile
  confidence : Float
  reason : String
  apply : Bool

/-- `From<PolicyDecision> for PolicyOutput`. -/
def PolicyOutput.ofDecision (decision : PolicyDecision) : PolicyOutput where
  recommendedProfile := decision.recommendedProfile
  confidence := decision.confidence
  reason := decision.reason
  apply := false

def currentProfile (snapshot : SystemSnapshot) : Profile := snapshot.profile

def input (snapshot : SystemSnapshot) : PolicyInput where
  cpuUsagePercent := snapshot.cpuUsagePercent
  load1m := snapshot.load1m
  runnableTasks := snapshot.runnableTasks
  contextSwitchRate := snapshot.contextSwitchRate
  shortLivedProcessRate := snapshot.shortLivedProcessRate
  currentProfile := currentProfile snapshot

/-- The loop, over what `collect` returns. -/
def run (policy : RulesBasedPolicy) : List (Except String SystemSnapshot) → List PolicyOutput
  | [] => []
  | .ok snapshot :: rest =>
    let (policy, decision) := policy.evaluate (input snapshot)
    .ofDecision decision :: run policy rest
  | .error error :: rest =>
    { recommendedProfile := .balanced
      confidence := 1.0
      reason := s!"Telemetry collection failed; defaulting to balanced: {error}"
      apply := false } :: run policy rest

end Live

/-! ### The replay -/

namespace Replay

/-- What the replay writes. -/
structure PolicyRecord where
  timestampMs : BitVec 128
  currentProfile : Profile
  recommendedProfile : Profile
  confidence : Float
  reason : String

def profileFromSnapshot (snapshot : SystemSnapshot) : Profile := snapshot.profile

def contextSwitchRate (previous : Option SystemSnapshot) (current : SystemSnapshot) : Float :=
  match previous with
  | none => 0.0
  | some previous =>
    let elapsedMs := satSub current.timestampMs previous.timestampMs
    if elapsedMs = 0 then 0.0
    else
      let switches := satSub64 current.contextSwitches previous.contextSwitches
      toF64 switches.toNat / (toF64 elapsedMs.toNat / 1000.0)

def input (previous : Option SystemSnapshot) (snapshot : SystemSnapshot) : PolicyInput where
  cpuUsagePercent := snapshot.cpuUsagePercent
  load1m := snapshot.load1m
  runnableTasks := snapshot.runnableTasks
  contextSwitchRate := contextSwitchRate previous snapshot
  shortLivedProcessRate := 0.0
  currentProfile := profileFromSnapshot snapshot

/-- The loop, over the recorded snapshots. -/
def run (previous : Option SystemSnapshot) (policy : RulesBasedPolicy) :
    List SystemSnapshot → List PolicyRecord
  | [] => []
  | snapshot :: rest =>
    let (policy, decision) := policy.evaluate (input previous snapshot)
    { timestampMs := snapshot.timestampMs
      currentProfile := profileFromSnapshot snapshot
      recommendedProfile := decision.recommendedProfile
      confidence := decision.confidence
      reason := decision.reason } :: run (some snapshot) policy rest

/-- The elapsed seconds are a normal double. -/
theorem ranged_seconds {elapsedMs : BitVec 128} (h : elapsedMs ≠ 0) :
    Binary64.Ranged (-62) 68 (toF64 elapsedMs.toNat / 1000.0) := by
  have hne : elapsedMs.toNat ≠ 0 := fun hz => h (BitVec.eq_of_toNat_eq hz)
  have hmillis := Binary64.ranged_toF64 hne elapsedMs.isLt (by omega)
  have hthousand : Binary64.Ranged (-43) (-43) (1000.0 : Float) :=
    ⟨rfl, by decide +kernel, by decide +kernel⟩
  exact (hmillis.div hthousand (by omega) (by omega)).mono (by omega) (by omega)

/-- The computed rate is finite, whatever the two snapshots are. -/
theorem isFinite_contextSwitchRate (previous : Option SystemSnapshot) (current : SystemSnapshot) :
    (contextSwitchRate previous current).isFinite = true := by
  have hzero : (0.0 : Float).isFinite = true := by decide +kernel
  cases previous with
  | none => exact hzero
  | some previous =>
    rw [contextSwitchRate]
    dsimp only
    split_ifs with helapsed
    · exact hzero
    · have hseconds := ranged_seconds helapsed
      generalize satSub64 current.contextSwitches previous.contextSwitches = switches
      by_cases hne : switches.toNat = 0
      · rw [hne]
        exact Binary64.isFinite_zero_div hseconds
      · have hswitches := Binary64.ranged_toF64 hne switches.toNat_lt (by omega)
        exact (hswitches.div hseconds (by omega) (by omega)).isFinite

end Replay

/-! ### One run of the policy -/

/-- The decisions on a list of inputs. -/
def evaluateAll (policy : RulesBasedPolicy) : List PolicyInput → List PolicyDecision
  | [] => []
  | input :: rest =>
    let (policy, decision) := policy.evaluate input
    decision :: evaluateAll policy rest

/-- The inputs of the replay. -/
def Replay.inputs (previous : Option SystemSnapshot) : List SystemSnapshot → List PolicyInput
  | [] => []
  | snapshot :: rest => input previous snapshot :: inputs (some snapshot) rest

theorem Replay.run_eq (previous : Option SystemSnapshot) (policy : RulesBasedPolicy)
    (snapshots : List SystemSnapshot) :
    (Replay.run previous policy snapshots).map (·.recommendedProfile) =
      (evaluateAll policy (Replay.inputs previous snapshots)).map (·.recommendedProfile) := by
  induction snapshots generalizing previous policy with
  | nil => rfl
  | cons snapshot rest ih => exact congrArg (List.cons _) (ih _ _)

theorem Live.run_eq (policy : RulesBasedPolicy) (snapshots : List SystemSnapshot) :
    (Live.run policy (snapshots.map .ok)).map (·.recommendedProfile) =
      (evaluateAll policy (snapshots.map Live.input)).map (·.recommendedProfile) := by
  induction snapshots generalizing policy with
  | nil => rfl
  | cons snapshot rest ih => exact congrArg (List.cons _) (ih _)

/-- The inputs as a stream, numbered from 1; what comes behind them does not matter. -/
def stream (inputs : List PolicyInput) (t : ℕ) : PolicyInput :=
  inputs.getD (t - 1) {
    cpuUsagePercent := 0.0
    load1m := 0.0
    runnableTasks := 0
    contextSwitchRate := 0.0
    shortLivedProcessRate := 0.0
    currentProfile := .balanced }

theorem after_stream (policy : RulesBasedPolicy) (input : PolicyInput) (rest : List PolicyInput)
    (t : ℕ) : after policy (stream (input :: rest)) (t + 1) =
      after (policy.evaluate input).1 (stream rest) t := by
  induction t with
  | zero => rfl
  | succ t ih =>
    rw [after, ih]
    rfl

theorem evaluateAll_eq (policy : RulesBasedPolicy) (inputs : List PolicyInput) :
    evaluateAll policy inputs =
      (List.range inputs.length).map fun i => decisionAt policy (stream inputs) (i + 1) := by
  induction inputs generalizing policy with
  | nil => rfl
  | cons input rest ih =>
    rw [evaluateAll, List.length_cons, List.range_succ_eq_map, List.map_cons, List.map_map]
    refine congrArg₂ List.cons rfl ((ih _).trans (List.map_congr_left fun i _ => ?_))
    change decisionAt (policy.evaluate input).1 (stream rest) (i + 1) =
      ((after policy (stream (input :: rest)) (i + 1)).evaluate (stream rest (i + 1))).2
    rw [after_stream]
    rfl

theorem isFinite_stream {inputs : List PolicyInput} (h : ∀ input ∈ inputs, input.isFinite = true)
    (t : ℕ) : (stream inputs t).isFinite = true := by
  rw [stream, List.getD_eq_getElem?_getD]
  cases hi : inputs[t - 1]? with
  | none => decide +kernel
  | some input => exact h input (List.mem_of_getElem? hi)

/-- With finite inputs the recommendations are the candidates debounced. -/
theorem evaluateAll_profiles {inputs : List PolicyInput}
    (h : ∀ input ∈ inputs, input.isFinite = true) :
    (evaluateAll .new inputs).map (·.recommendedProfile) = (List.range inputs.length).map fun i =>
      Debounce.accepted 3 5 (stream inputs 1).currentProfile (candidateAt (stream inputs))
        (i + 1) := by
  rw [evaluateAll_eq, List.map_map]
  refine List.map_congr_left fun i _ => ?_
  have hfin : ∀ t, 1 ≤ t → (stream inputs t).isFinite := fun t _ => isFinite_stream h t
  change (decisionAt Constructor.new.policy (stream inputs) (i + 1)).recommendedProfile = _
  rw [decisionAt_profile .new _ hfin (by omega), acceptedAt_eq .new _ hfin]
  rfl

/-! ### The two programs compared -/

variable {snapshots : List SystemSnapshot}

/-- The profile that the first snapshot reports. -/
def firstProfile : List SystemSnapshot → Profile
  | [] => .balanced
  | snapshot :: _ => snapshot.profile

/-- The raw candidates of the live policy. -/
def Live.candidates (snapshots : List SystemSnapshot) : ℕ → Profile :=
  candidateAt (stream (snapshots.map Live.input))

/-- The raw candidates of the replay. -/
def Replay.candidates (snapshots : List SystemSnapshot) : ℕ → Profile :=
  candidateAt (stream (Replay.inputs none snapshots))

theorem Live.isFinite_input {snapshot : SystemSnapshot} (h : snapshot.isFinite = true) :
    (Live.input snapshot).isFinite = true := h

theorem Replay.isFinite_input (previous : Option SystemSnapshot) {snapshot : SystemSnapshot}
    (h : snapshot.isFinite = true) : (Replay.input previous snapshot).isFinite = true := by
  have hzero : (0.0 : Float).isFinite = true := by decide +kernel
  simp only [SystemSnapshot.isFinite, Bool.and_eq_true] at h
  obtain ⟨⟨⟨hcpu, hload⟩, -⟩, -⟩ := h
  simp only [PolicyInput.isFinite, Replay.input, hcpu, hload, hzero,
    isFinite_contextSwitchRate, Bool.and_true]

theorem Replay.isFinite_inputs (previous : Option SystemSnapshot)
    (h : ∀ snapshot ∈ snapshots, snapshot.isFinite = true) :
    ∀ input ∈ Replay.inputs previous snapshots, input.isFinite = true := by
  induction snapshots generalizing previous with
  | nil => exact fun input hi => absurd hi List.not_mem_nil
  | cons snapshot rest ih =>
    intro input hi
    rcases List.mem_cons.mp hi with rfl | hi
    · exact Replay.isFinite_input previous (h snapshot List.mem_cons_self)
    · exact ih (some snapshot) (fun s hs => h s (List.mem_cons_of_mem _ hs)) input hi

theorem Replay.length_inputs (previous : Option SystemSnapshot) (snapshots : List SystemSnapshot) :
    (Replay.inputs previous snapshots).length = snapshots.length := by
  induction snapshots generalizing previous with
  | nil => rfl
  | cons snapshot rest ih => exact congrArg (· + 1) (ih (some snapshot))

/-- The recommendations of the live policy. -/
theorem Live.profiles (h : ∀ snapshot ∈ snapshots, snapshot.isFinite = true) :
    (Live.run .new (snapshots.map .ok)).map (·.recommendedProfile) =
      (List.range snapshots.length).map fun i =>
        Debounce.accepted 3 5 (firstProfile snapshots) (Live.candidates snapshots) (i + 1) := by
  have hfin : ∀ input ∈ snapshots.map Live.input, input.isFinite = true := by
    intro input hi
    obtain ⟨snapshot, hs, rfl⟩ := List.mem_map.mp hi
    exact Live.isFinite_input (h snapshot hs)
  have hfirst : (stream (snapshots.map Live.input) 1).currentProfile = firstProfile snapshots := by
    cases snapshots <;> rfl
  rw [Live.run_eq, evaluateAll_profiles hfin, hfirst, List.length_map]
  rfl

/-- The recommendations of the replay. -/
theorem Replay.profiles (h : ∀ snapshot ∈ snapshots, snapshot.isFinite = true) :
    (Replay.run none .new snapshots).map (·.recommendedProfile) =
      (List.range snapshots.length).map fun i =>
        Debounce.accepted 3 5 (firstProfile snapshots) (Replay.candidates snapshots) (i + 1) := by
  have hfirst :
      (stream (Replay.inputs none snapshots) 1).currentProfile = firstProfile snapshots := by
    cases snapshots <;> rfl
  rw [Replay.run_eq, evaluateAll_profiles (Replay.isFinite_inputs none h), hfirst,
    Replay.length_inputs]
  rfl

theorem Replay.length_run (previous : Option SystemSnapshot) (policy : RulesBasedPolicy)
    (snapshots : List SystemSnapshot) :
    (Replay.run previous policy snapshots).length = snapshots.length := by
  induction snapshots generalizing previous policy with
  | nil => rfl
  | cons snapshot rest ih => exact congrArg (· + 1) (ih _ _)

theorem Live.length_run (policy : RulesBasedPolicy) (snapshots : List SystemSnapshot) :
    (Live.run policy (snapshots.map .ok)).length = snapshots.length := by
  induction snapshots generalizing policy with
  | nil => rfl
  | cons snapshot rest ih => exact congrArg (· + 1) (ih _)

/-- The replay recommends what the live policy recommends exactly when the raw candidates of the
    two agree: from the start, and behind the cooldown of each change, the first three candidates
    in a row for another profile come at the same snapshot and are for the same profile. -/
theorem profiles_eq_iff {read : List SystemSnapshot}
    (h : ∀ snapshot ∈ snapshots, snapshot.isFinite = true)
    (hread : ∀ snapshot ∈ read, snapshot.isFinite = true) (hlength : read.length = snapshots.length)
    (hfirst : firstProfile read = firstProfile snapshots) :
    (Replay.run none .new read).map (·.recommendedProfile) =
        (Live.run .new (snapshots.map .ok)).map (·.recommendedProfile) ↔
      Debounce.Agree 3 5 (firstProfile snapshots) (Live.candidates snapshots)
        (Replay.candidates read) snapshots.length := by
  rw [Replay.profiles hread, Live.profiles h, Debounce.agree_iff (by decide), hlength, hfirst,
    List.map_inj_left]
  constructor
  · intro heq t ht
    cases t with
    | zero => rw [Debounce.accepted_zero, Debounce.accepted_zero]
    | succ t => exact (heq t (List.mem_range.mpr ht)).symm
  · intro heq i hi
    exact (heq (i + 1) (List.mem_range.mp hi)).symm

end CerynthOS.Policy
