import CerynthOS.Policy.Stability
import CerynthOS.Schemes.FloatOrder
import CerynthOS.Schemes.JsonText

/-! How a decision of the policy shows where it comes from.

    `evaluate` returns from one of five places. The texts of the two holds are recognised by a
    phrase of each, which no other text contains, and every confidence is finite. -/

namespace CerynthOS.Policy
open Ipc Machine

/-- `str::contains`. -/
def contains (s pattern : String) : Bool := decide (pattern.toList <:+: s.toList)

/-- Where `evaluate` returns from. -/
inductive Branch where
  | invalid
  | agreed
  | cooldownHold
  | dwellHold
  | switched
  deriving DecidableEq

namespace RulesBasedPolicy

/-- The branch that `stabilize` takes, by the tests that it makes. -/
def stabilizeBranch (self : RulesBasedPolicy) (candidate currentProfile : Profile) : Branch :=
  let self := self.adopt currentProfile
  if candidate = self.acceptedProfile.getD currentProfile then .agreed
  else if self.cooldownRemaining > 0 then .cooldownHold
  else if (self.track candidate).pendingCount < (self.track candidate).minDwellSamples then
    .dwellHold
  else .switched

/-- The branch that `evaluate` takes. -/
def branch (self : RulesBasedPolicy) (input : PolicyInput) : Branch :=
  if !input.isFinite then .invalid
  else self.stabilizeBranch (self.rawDecision input).recommendedProfile input.currentProfile

end RulesBasedPolicy

/-! ### Confidences -/

/-- No double above 1, or a NaN. -/
def Capped (x : Float) : Prop := ¬ 1.0 < x

theorem capped_clampF64 (x : Float) : Capped (clampF64 x 0.0 1.0) := by
  rw [clampF64, Capped]
  split_ifs with h hlt hlt
  · decide +kernel
  · decide +kernel
  · decide +kernel
  · exact hlt

theorem capped_workloadConfidence (profile : Profile) (cpu load : Float) (runnable : UInt64)
    (ctxtRate shortLived : Float) :
    Capped (RulesBasedPolicy.workloadConfidence profile cpu load runnable ctxtRate shortLived) := by
  cases profile <;> exact capped_clampF64 _

/-- A number between two that are finite. -/
theorem isFinite_of_between {x : Float} (hnan : ¬ x.isNaN = true) (hlo : ¬ x < 0.60)
    (hhi : ¬ 1.0 < x) : x.isFinite = true := by
  change ¬ x.toModel.unpack.isNaN = true at hnan
  rw [FloatOrder.lt_def] at hlo hhi
  change x.toModel.unpack.isFinite = true
  generalize x.toModel.unpack = u at hnan hlo hhi ⊢
  rcases u with s | _ | _ | _
  · cases s with
    | negative => exact absurd (by decide +kernel) hlo
    | positive => exact absurd (by decide +kernel) hhi
  · exact absurd rfl hnan
  · rfl
  · rfl

theorem isFinite_maxF64 {x : Float} (h : Capped x) :
    (maxF64 x 0.60).isFinite = true ∧ Capped (maxF64 x 0.60) := by
  have hmin : (0.60 : Float).isFinite = true ∧ Capped 0.60 :=
    ⟨by decide +kernel, by rw [Capped]; decide +kernel⟩
  rw [maxF64]
  split_ifs with hnan hmin_nan hlt
  · exact hmin
  · exact absurd hmin_nan (by decide +kernel)
  · exact hmin
  · exact ⟨isFinite_of_between hnan hlt h, h⟩

/-! ### Texts -/

/-- The phrase by which a report recognises a dwell. -/
def dwellPhrase : String := "consecutive samples"

/-- The phrase by which a report recognises a cooldown. -/
def cooldownPhrase : String := "cooldown"

/-- What a decision shows of the branch it comes from. -/
structure Shows (decision : PolicyDecision) (branch : Branch) : Prop where
  finite : decision.confidence.isFinite = true
  dwell : contains decision.reason dwellPhrase = true ↔ branch = .dwellHold
  cooldown : contains decision.reason cooldownPhrase = true ↔ branch = .cooldownHold

theorem contains_left {s pattern : String} (h : contains s pattern = true) (t : String) :
    contains (s ++ t) pattern = true := by
  refine decide_eq_true ?_
  rw [String.toList_append]
  exact (of_decide_eq_true h).trans (List.prefix_append _ _).isInfix

theorem contains_right (s : String) {t pattern : String} (h : contains t pattern = true) :
    contains (s ++ t) pattern = true := by
  refine decide_eq_true ?_
  rw [String.toList_append]
  exact (of_decide_eq_true h).trans (List.suffix_append _ _).isInfix

/-- A text without one of the characters of a phrase does not contain the phrase. -/
theorem contains_eq_false {s pattern : String} {c : Char} (hp : c ∈ pattern.toList)
    (hs : c ∉ s.toList) : contains s pattern = false :=
  decide_eq_false fun h => hs (h.subset hp)

theorem not_mem_profile (p : Profile) :
    's' ∉ (toString p).toList ∧ 'w' ∉ (toString p).toList := by
  cases p <;> decide +kernel

theorem not_mem_number (n : UInt32) : 'w' ∉ (toString n).toList := by
  intro h
  have hdigit := Json.isDigit_toDigits n.toNat 'w' (by simpa [toString, Nat.repr] using h)
  exact absurd hdigit (by decide)

theorem cooldown_text (accepted candidate : Profile) :
    contains ("Holding " ++ toString accepted ++ " during profile-change cooldown; candidate "
      ++ toString candidate) dwellPhrase = false ∧
    contains ("Holding " ++ toString accepted ++ " during profile-change cooldown; candidate "
      ++ toString candidate) cooldownPhrase = true := by
  have hholding : 's' ∉ "Holding ".toList := by decide +kernel
  have hduring : 's' ∉ " during profile-change cooldown; candidate ".toList := by decide +kernel
  have haccepted := (not_mem_profile accepted).1
  have hcandidate := (not_mem_profile candidate).1
  constructor
  · refine contains_eq_false (c := 's') (by decide +kernel) ?_
    simp only [String.toList_append, List.mem_append, not_or]
    exact ⟨⟨⟨hholding, haccepted⟩, hduring⟩, hcandidate⟩
  · exact contains_left (contains_right _ (by decide +kernel)) _

theorem dwell_text (accepted candidate : Profile) (n dwell : UInt32) :
    contains ("Holding " ++ toString accepted ++ " until " ++ toString candidate
      ++ " consecutive samples support " ++ toString candidate ++ "; "
      ++ toString n ++ "/" ++ toString dwell) dwellPhrase = true ∧
    contains ("Holding " ++ toString accepted ++ " until " ++ toString candidate
      ++ " consecutive samples support " ++ toString candidate ++ "; "
      ++ toString n ++ "/" ++ toString dwell) cooldownPhrase = false := by
  have hholding : 'w' ∉ "Holding ".toList := by decide +kernel
  have huntil : 'w' ∉ " until ".toList := by decide +kernel
  have hsupport : 'w' ∉ " consecutive samples support ".toList := by decide +kernel
  have hmarks : 'w' ∉ "; ".toList ∧ 'w' ∉ "/".toList := by decide +kernel
  have haccepted := (not_mem_profile accepted).2
  have hcandidate := (not_mem_profile candidate).2
  have hn := not_mem_number n
  have hdwell := not_mem_number dwell
  constructor
  · have hphrase : contains " consecutive samples support " dwellPhrase = true := by
      decide +kernel
    iterate 5 apply contains_left
    exact contains_right _ hphrase
  · refine contains_eq_false (c := 'w') (by decide +kernel) ?_
    simp only [String.toList_append, List.mem_append, not_or]
    exact ⟨⟨⟨⟨⟨⟨⟨⟨⟨hholding, haccepted⟩, huntil⟩, hcandidate⟩, hsupport⟩, hcandidate⟩, hmarks.1⟩,
      hn⟩, hmarks.2⟩, hdwell⟩

theorem invalid_text : contains "Invalid telemetry; defaulting to balanced" dwellPhrase = false ∧
    contains "Invalid telemetry; defaulting to balanced" cooldownPhrase = false := by
  decide +kernel

/-- A raw recommendation says how confident it is, and its text has neither phrase. -/
theorem rawDecision_eq (p : RulesBasedPolicy) (input : PolicyInput) :
    ∃ profile confidence reason, p.rawDecision input = p.decision profile confidence reason ∧
      Capped confidence ∧ contains reason dwellPhrase = false ∧
      contains reason cooldownPhrase = false := by
  have hlow : Capped 0.90 := by rw [Capped]; decide +kernel
  rw [RulesBasedPolicy.rawDecision]
  dsimp only
  split
  · exact ⟨_, _, _, rfl, capped_workloadConfidence _ _ _ _ _ _, by decide +kernel⟩
  split
  · exact ⟨_, _, _, rfl, capped_workloadConfidence _ _ _ _ _ _, by decide +kernel⟩
  split
  · exact ⟨_, _, _, rfl, capped_workloadConfidence _ _ _ _ _ _, by decide +kernel⟩
  split
  · exact ⟨_, _, _, rfl, hlow, by decide +kernel⟩
  · exact ⟨_, _, _, rfl, capped_workloadConfidence _ _ _ _ _ _, by decide +kernel⟩

theorem raw_text (p : RulesBasedPolicy) (input : PolicyInput) :
    contains (p.rawDecision input).reason dwellPhrase = false ∧
      contains (p.rawDecision input).reason cooldownPhrase = false := by
  obtain ⟨_, _, _, heq, -, htext⟩ := rawDecision_eq p input
  rw [heq]
  exact htext

/-! ### Decisions -/

variable {p : RulesBasedPolicy}

theorem isFinite_decision (hmin : p.minConfidence = 0.60) (profile : Profile) {confidence : Float}
    (h : Capped confidence) (reason : String) :
    (p.decision profile confidence reason).confidence.isFinite = true ∧
      Capped (p.decision profile confidence reason).confidence := by
  rw [RulesBasedPolicy.decision, hmin]
  exact isFinite_maxF64 h

theorem isFinite_rawDecision (hmin : p.minConfidence = 0.60) (input : PolicyInput) :
    (p.rawDecision input).confidence.isFinite = true ∧
      Capped (p.rawDecision input).confidence := by
  obtain ⟨_, _, _, heq, hcapped, -⟩ := rawDecision_eq p input
  rw [heq]
  exact isFinite_decision hmin _ hcapped _

theorem adopt_minConfidence (current : Profile) :
    (p.adopt current).minConfidence = p.minConfidence := by
  rw [RulesBasedPolicy.adopt]
  split_ifs <;> rfl

theorem track_minConfidence (candidate : Profile) :
    (p.track candidate).minConfidence = p.minConfidence := by
  rw [RulesBasedPolicy.track]
  split_ifs <;> rfl

/-- A decision whose text has neither phrase. -/
theorem shows_plain {decision : PolicyDecision} {branch : Branch}
    (hfinite : decision.confidence.isFinite = true)
    (htext : contains decision.reason dwellPhrase = false ∧
      contains decision.reason cooldownPhrase = false)
    (hdwell : branch ≠ .dwellHold) (hcooldown : branch ≠ .cooldownHold) : Shows decision branch :=
  ⟨hfinite, iff_of_false (Bool.eq_false_iff.mp htext.1) hdwell,
    iff_of_false (Bool.eq_false_iff.mp htext.2) hcooldown⟩

theorem settle_shows (hmin : p.minConfidence = 0.60) {candidate : PolicyDecision}
    (hfinite : candidate.confidence.isFinite = true ∧ Capped candidate.confidence)
    (htext : contains candidate.reason dwellPhrase = false ∧
      contains candidate.reason cooldownPhrase = false) (accepted : Profile) :
    (p.settle accepted candidate).1.minConfidence = 0.60 ∧
      Shows (p.settle accepted candidate).2
        (if p.pendingCount < p.minDwellSamples then .dwellHold else .switched) := by
  rw [RulesBasedPolicy.settle]
  split_ifs
  · obtain ⟨hdwell, hcooldown⟩ := dwell_text accepted candidate.recommendedProfile p.pendingCount
      p.minDwellSamples
    refine ⟨hmin, (isFinite_decision hmin _ hfinite.2 _).1, iff_of_true hdwell rfl, ?_⟩
    exact iff_of_false (Bool.eq_false_iff.mp hcooldown) (by decide)
  · exact ⟨hmin, shows_plain hfinite.1 htext (by decide) (by decide)⟩

theorem stabilize_shows (hmin : p.minConfidence = 0.60) {candidate : PolicyDecision}
    (hfinite : candidate.confidence.isFinite = true ∧ Capped candidate.confidence)
    (htext : contains candidate.reason dwellPhrase = false ∧
      contains candidate.reason cooldownPhrase = false) (current : Profile) :
    (p.stabilize candidate current).1.minConfidence = 0.60 ∧
      Shows (p.stabilize candidate current).2
        (p.stabilizeBranch candidate.recommendedProfile current) := by
  have hself : (p.adopt current).minConfidence = 0.60 := (adopt_minConfidence current).trans hmin
  rw [RulesBasedPolicy.stabilize, RulesBasedPolicy.stabilizeBranch]
  generalize p.adopt current = self at hself
  dsimp only
  by_cases hq : candidate.recommendedProfile = self.acceptedProfile.getD current
  · rw [if_pos hq, if_pos hq]
    refine ⟨?_, shows_plain hfinite.1 htext (by decide) (by decide)⟩
    dsimp only
    split_ifs <;> exact hself
  rw [if_neg hq, if_neg hq]
  by_cases hc : self.cooldownRemaining > 0
  · rw [if_pos hc, if_pos hc]
    obtain ⟨hdwell, hcooldown⟩ := cooldown_text (self.acceptedProfile.getD current)
      candidate.recommendedProfile
    refine ⟨hself, (isFinite_decision hself _ hfinite.2 _).1, ?_, iff_of_true hcooldown rfl⟩
    exact iff_of_false (Bool.eq_false_iff.mp hdwell) (by decide)
  rw [if_neg hc, if_neg hc]
  exact settle_shows ((track_minConfidence candidate.recommendedProfile).trans hself) hfinite htext
    (self.acceptedProfile.getD current)

/-- Every call keeps the least confidence, and its decision shows the branch it took. -/
theorem evaluate_shows (hmin : p.minConfidence = 0.60) (input : PolicyInput) :
    (p.evaluate input).1.minConfidence = 0.60 ∧
      Shows (p.evaluate input).2 (p.branch input) := by
  rw [RulesBasedPolicy.evaluate, RulesBasedPolicy.branch]
  split_ifs
  · have h : Capped 1.0 := by rw [Capped]; decide +kernel
    exact ⟨hmin, shows_plain (isFinite_decision hmin _ h _).1 invalid_text (by decide) (by decide)⟩
  · exact stabilize_shows hmin (isFinite_rawDecision hmin input) (raw_text p input) _

end CerynthOS.Policy
