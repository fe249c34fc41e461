import CerynthOS.Policy.Holds
import CerynthOS.Policy.Recording
import CerynthOS.Schemes.JsonCoding
import CerynthOS.Schemes.Tally

/-! The report on a replay.

    The replay writes a record a line, and the report reads them back and counts. It recognises the
    two holds by a phrase in the reason, and a change of profile by the record before. -/

namespace CerynthOS.Policy
open Ipc Json Machine

structure Report where
  samples : ℕ := 0
  recommendationCounts : List (String × ℕ) := []
  transitions : List (String × ℕ) := []
  dwellHolds : ℕ := 0
  cooldownHolds : ℕ := 0
  first : Option Profile := none
  last : Option Profile := none

/-- What the report reads of a record. -/
structure Report.PolicyRecord where
  currentProfile : Option Profile
  recommendedProfile : Profile
  confidence : Float
  reason : String

/-- How records are written and read. -/
class Records where
  toString : Replay.PolicyRecord → String
  fromStr : String → Option Report.PolicyRecord

/-- What the programs rely on: a record whose confidence is finite is written as an object on one
    line, and read back with all but the last digits of its confidence. -/
class LawfulRecords [Records] : Prop where
  fromStr_toString : ∀ r : Replay.PolicyRecord, r.confidence.isFinite = true → ∃ confidence,
    Records.fromStr (Records.toString r) =
      some ⟨some r.currentProfile, r.recommendedProfile, confidence, r.reason⟩
  braces : ∀ r : Replay.PolicyRecord, (Records.toString r).toList.head? = some '{' ∧
    (Records.toString r).toList.getLast? = some '}'
  newline_not_mem : ∀ r : Replay.PolicyRecord, '\n' ∉ (Records.toString r).toList

/-! ### The two programs -/

section
variable [Records]

/-- The file that the replay writes. -/
def Replay.output (records : List PolicyRecord) : String :=
  .ofList (records.flatMap fun record => (Records.toString record).toList ++ ['\n'])

def profileName (profile : Profile) : String := toString profile

/-- How a transition is named in the report. -/
def transition (previous recommended : Profile) : String :=
  profileName previous ++ " -> " ++ profileName recommended

namespace Report

/-- One record. -/
def add (report : Report) (previous : Option Profile) (record : PolicyRecord) : Report :=
  let recommended := record.recommendedProfile
  { samples := report.samples + 1
    recommendationCounts := Tally.bump (profileName recommended) report.recommendationCounts
    first := if report.first.isNone then some recommended else report.first
    last := some recommended
    transitions :=
      match previous with
      | some previousProfile =>
        if previousProfile ≠ recommended then
          Tally.bump (transition previousProfile recommended) report.transitions
        else report.transitions
      | none => report.transitions
    dwellHolds :=
      if contains record.reason dwellPhrase then report.dwellHolds + 1 else report.dwellHolds
    cooldownHolds :=
      if contains record.reason cooldownPhrase then report.cooldownHolds + 1
      else report.cooldownHolds }

/-- The loop over the lines. -/
def addLines (path : String) (previous : Option Profile) (report : Report) :
    List String → Except String Report
  | [] => .ok report
  | line :: rest =>
    match Records.fromStr line with
    | none => .error s!"parsing policy decision in {path}"
    | some record =>
      addLines path (some record.recommendedProfile) (report.add previous record) rest

end Report

/-- The report on a file, if it can be read. -/
def analyze (path : String) (content : Option String) : Except String Report :=
  match content with
  | none => .error s!"reading {path}"
  | some content =>
    Report.addLines path none {} ((lines content).filter fun line => Daemon.trim line ≠ "")

end

/-! ### Reading the file back -/

section
variable [Records] [LawfulRecords]

theorem isObject_toString (record : Replay.PolicyRecord) : IsObject (Records.toString record) :=
  ⟨(LawfulRecords.braces record).1, (LawfulRecords.braces record).2,
    LawfulRecords.newline_not_mem record⟩

theorem lines_output (records : List Replay.PolicyRecord) :
    (lines (Replay.output records)).filter (fun line => Daemon.trim line ≠ "") =
      records.map Records.toString := by
  have hobject : ∀ text ∈ records.map Records.toString, IsObject text := by
    intro text ht
    obtain ⟨record, -, rfl⟩ := List.mem_map.mp ht
    exact isObject_toString record
  have hfile : Replay.output records = file (records.map Records.toString) := by
    rw [Replay.output, file, List.flatMap_map]
  rw [hfile, lines_file hobject, List.filter_eq_self]
  exact fun text ht => decide_eq_true (hobject text ht).trim_ne_empty

end

/-! ### What is counted -/

namespace Report

/-- The report counts these records. -/
structure Counts (records : List PolicyRecord) (report : Report) : Prop where
  samples : report.samples = records.length
  recommendationCounts : report.recommendationCounts =
    Tally.ofList (records.map fun record => profileName record.recommendedProfile)
  transitions : report.transitions =
    Tally.ofList ((Tally.changes (records.map PolicyRecord.recommendedProfile)).map
      fun step => transition step.1 step.2)
  dwellHolds : report.dwellHolds = records.countP fun record => contains record.reason dwellPhrase
  cooldownHolds : report.cooldownHolds =
    records.countP fun record => contains record.reason cooldownPhrase
  first : report.first = (records.map PolicyRecord.recommendedProfile).head?
  last : report.last = (records.map PolicyRecord.recommendedProfile).getLast?

theorem counts_empty : Counts [] {} := ⟨rfl, rfl, rfl, rfl, rfl, rfl, rfl⟩

theorem ite_add_one (c : Prop) [Decidable c] (n : ℕ) :
    (if c then n + 1 else n) = n + if c then 1 else 0 := by
  split_ifs <;> rfl

theorem Counts.add {records : List PolicyRecord} {report : Report} (h : Counts records report)
    (record : PolicyRecord) : Counts (records ++ [record])
      (report.add (records.map PolicyRecord.recommendedProfile).getLast? record) where
  samples := by rw [List.length_append, ← h.samples]; rfl
  recommendationCounts := by
    rw [List.map_append, List.map_singleton, Tally.ofList_concat, ← h.recommendationCounts]
    rfl
  transitions := by
    rw [List.map_append, List.map_singleton, Tally.changes_concat]
    simp only [Report.add, h.transitions]
    cases (records.map PolicyRecord.recommendedProfile).getLast? with
    | none => simp
    | some previous =>
      dsimp only
      by_cases heq : previous = record.recommendedProfile
      · rw [if_neg (not_not.mpr heq), if_pos heq, List.append_nil]
      · rw [if_pos heq, if_neg heq, List.map_append, List.map_singleton, Tally.ofList_concat]
  dwellHolds := by
    rw [List.countP_append, List.countP_singleton, ← h.dwellHolds]
    exact ite_add_one _ _
  cooldownHolds := by
    rw [List.countP_append, List.countP_singleton, ← h.cooldownHolds]
    exact ite_add_one _ _
  first := by
    simp only [Report.add, h.first, List.map_append, List.map_singleton]
    cases records <;> rfl
  last := by rw [List.map_append, List.map_singleton, List.getLast?_concat]; rfl

section
variable [Records]

/-- The loop over lines that are read as these records. -/
theorem addLines_counts (path : String) {lines : List String} {records seen : List PolicyRecord}
    (hread : lines.map Records.fromStr = records.map some) {report : Report}
    (h : Counts seen report) : ∃ report',
      addLines path (seen.map PolicyRecord.recommendedProfile).getLast? report lines =
        .ok report' ∧ Counts (seen ++ records) report' := by
  induction lines generalizing records seen report with
  | nil =>
    obtain rfl := List.map_eq_nil_iff.mp hread.symm
    exact ⟨report, rfl, by rwa [List.append_nil]⟩
  | cons line lines ih =>
    cases records with
    | nil => cases hread
    | cons record records =>
      rw [List.map_cons, List.map_cons, List.cons.injEq] at hread
      obtain ⟨report', hok, hcounts⟩ := ih hread.2 (h.add record)
      rw [List.map_append, List.map_singleton, List.getLast?_concat] at hok
      rw [addLines, hread.1, List.append_cons]
      exact ⟨report', hok, hcounts⟩

end

/-- The transitions to a profile. -/
def into (report : Report) (profile : Profile) : ℕ :=
  (Profile.all.map fun previous => Tally.count report.transitions (transition previous profile)).sum

/-- The transitions from a profile. -/
def outOf (report : Report) (profile : Profile) : ℕ :=
  (Profile.all.map fun next => Tally.count report.transitions (transition profile next)).sum

theorem profileName_inj {a b : Profile} (h : profileName a = profileName b) : a = b := by
  have hback := congrArg Profile.fromStr h
  rw [profileName, profileName, fromStr_toString, fromStr_toString] at hback
  exact Except.ok.inj hback

theorem takeWhile_transition (a b : Profile) :
    (transition a b).toList.takeWhile (· != ' ') = (profileName a).toList := by
  have hname : ∀ c ∈ (profileName a).toList, (c != ' ') = true := by
    rw [← List.all_eq_true]
    cases a <;> rfl
  rw [transition, String.toList_append, String.toList_append, List.append_assoc,
    List.takeWhile_append_of_pos hname]
  exact List.append_nil _

/-- The names of the transitions tell the profiles apart. -/
theorem transition_inj {a b a' b' : Profile} :
    transition a b = transition a' b' ↔ a = a' ∧ b = b' := by
  constructor
  · intro h
    have hfrom := congrArg (fun s : String => s.toList.takeWhile (· != ' ')) h
    simp only [takeWhile_transition] at hfrom
    obtain rfl := profileName_inj (String.toList_inj.mp hfrom)
    have hlist := congrArg String.toList h
    simp only [transition, String.toList_append] at hlist
    exact ⟨rfl, profileName_inj (String.toList_inj.mp (List.append_cancel_left hlist))⟩
  · rintro ⟨rfl, rfl⟩
    rfl

variable {report : Report} {records : List PolicyRecord}

/-- Counting by name, over all profiles, is counting the steps that one of the names stands for. -/
theorem sum_count (steps : List (Profile × Profile)) {f : Profile → Profile × Profile}
    {hit : Profile × Profile → Bool} (h : ∀ step,
      (Profile.all.map fun p => if step = f p then 1 else 0).sum =
        if hit step then 1 else 0) :
    (Profile.all.map fun p => (steps.map fun step => transition step.1 step.2).count
      (transition (f p).1 (f p).2)).sum = steps.countP hit := by
  induction steps with
  | nil => rfl
  | cons step steps ih =>
    simp only [List.map_cons, List.count_cons, List.sum_map_add, ih, List.countP_cons, beq_iff_eq,
      transition_inj, ← Prod.ext_iff, h]

theorem into_eq (h : Counts records report) (profile : Profile) : report.into profile =
    (Tally.changes (records.map PolicyRecord.recommendedProfile)).countP
      fun step => step.2 = profile := by
  simp only [into, h.transitions, Tally.count_ofList]
  refine sum_count _ (f := fun p => (p, profile)) fun step => ?_
  obtain ⟨a, b⟩ := step
  cases a <;> cases b <;> cases profile <;> rfl

theorem outOf_eq (h : Counts records report) (profile : Profile) : report.outOf profile =
    (Tally.changes (records.map PolicyRecord.recommendedProfile)).countP
      fun step => step.1 = profile := by
  simp only [outOf, h.transitions, Tally.count_ofList]
  refine sum_count _ (f := fun p => (profile, p)) fun step => ?_
  obtain ⟨a, b⟩ := step
  cases a <;> cases b <;> cases profile <;> rfl

/-- What goes into a profile and does not come out of it again is where the records end. -/
theorem into_sub_outOf (h : Counts records report) (profile : Profile) :
    (report.into profile : ℤ) - report.outOf profile =
      if report.last = some profile ∧ report.first ≠ some profile then 1
      else if report.first = some profile ∧ report.last ≠ some profile then -1
      else 0 := by
  have hwalk := Tally.arrivals_departures (records.map PolicyRecord.recommendedProfile) profile
  rw [← into_eq h, ← outOf_eq h, ← h.first, ← h.last] at hwalk
  by_cases hlast : report.last = some profile <;> by_cases hfirst : report.first = some profile <;>
  · simp only [hlast, hfirst, if_true, if_false] at hwalk
    simp [hlast, hfirst]
    omega

end Report

/-! ### Replays -/

/-- The branches that the calls of a replay take. -/
def Replay.branches (previous : Option SystemSnapshot) (policy : RulesBasedPolicy) :
    List SystemSnapshot → List Branch
  | [] => []
  | snapshot :: rest =>
    policy.branch (input previous snapshot) ::
      branches (some snapshot) (policy.evaluate (input previous snapshot)).1 rest

/-- Each record shows the branch that its call took. -/
theorem Replay.run_shows {policy : RulesBasedPolicy} (hmin : policy.minConfidence = 0.60)
    (previous : Option SystemSnapshot) (snapshots : List SystemSnapshot) :
    List.Forall₂ (fun record branch =>
        Shows ⟨record.recommendedProfile, record.confidence, record.reason⟩ branch)
      (Replay.run previous policy snapshots) (Replay.branches previous policy snapshots) := by
  induction snapshots generalizing previous policy with
  | nil => exact .nil
  | cons snapshot rest ih =>
    obtain ⟨hmin', hshows⟩ := evaluate_shows hmin (Replay.input previous snapshot)
    exact .cons hshows (ih hmin' (some snapshot))

/-- What the report reads of records that show their branches. -/
theorem read_shows [Records] [LawfulRecords] {records : List Replay.PolicyRecord}
    {branches : List Branch} (h : List.Forall₂ (fun record branch =>
      Shows ⟨record.recommendedProfile, record.confidence, record.reason⟩ branch) records branches) :
    ∃ read : List Report.PolicyRecord,
      (records.map Records.toString).map Records.fromStr = read.map some ∧
      read.map (·.recommendedProfile) = records.map (·.recommendedProfile) ∧
      (read.countP fun record => contains record.reason dwellPhrase) =
        branches.count .dwellHold ∧
      (read.countP fun record => contains record.reason cooldownPhrase) =
        branches.count .cooldownHold := by
  induction h with
  | nil => exact ⟨[], rfl, rfl, rfl, rfl⟩
  | @cons record branch records branches hshows _ ih =>
    obtain ⟨read, hread, hprofiles, hdwell, hcooldown⟩ := ih
    obtain ⟨confidence, hback⟩ := LawfulRecords.fromStr_toString record hshows.finite
    refine ⟨_ :: read, by rw [List.map_cons, List.map_cons, hback, hread]; rfl, ?_, ?_, ?_⟩
    · rw [List.map_cons, List.map_cons, hprofiles]
    · rw [List.countP_cons, List.count_cons, hdwell]
      congr 1
      simp only [beq_iff_eq]
      exact if_congr hshows.dwell rfl rfl
    · rw [List.countP_cons, List.count_cons, hcooldown]
      congr 1
      simp only [beq_iff_eq]
      exact if_congr hshows.cooldown rfl rfl

/-- The report on a replay counts what the policy did: the samples, the calls that held the profile
    for the dwell and for the cooldown, and the changes of the recommended profile; and into each
    profile it counts as many changes as out of it, but for the first and the last. -/
theorem report_agrees [Records] [LawfulRecords] (path : String) (snapshots : List SystemSnapshot) :
    let records := Replay.run none .new snapshots
    let branches := Replay.branches none .new snapshots
    let profiles := records.map (·.recommendedProfile)
    ∃ report, analyze path (some (Replay.output records)) = .ok report ∧
      report.samples = records.length ∧
      report.samples = Tally.total report.recommendationCounts ∧
      report.dwellHolds = branches.count .dwellHold ∧
      report.cooldownHolds = branches.count .cooldownHold ∧
      Tally.total report.transitions =
        ((profiles.zip profiles.tail).countP fun pair => pair.1 ≠ pair.2) ∧
      report.first = profiles.head? ∧ report.last = profiles.getLast? ∧
      ∀ profile, (report.into profile : ℤ) - report.outOf profile =
        if report.last = some profile ∧ report.first ≠ some profile then 1
        else if report.first = some profile ∧ report.last ≠ some profile then -1
        else 0 := by
  intro records branches profiles
  obtain ⟨read, hread, hprofiles, hdwell, hcooldown⟩ :=
    read_shows (@Replay.run_shows .new rfl none snapshots)
  obtain ⟨report, hok, h⟩ := Report.addLines_counts path hread Report.counts_empty
  rw [List.nil_append] at h
  have hlength : read.length = records.length := by
    rw [← List.length_map (f := (·.recommendedProfile)), hprofiles, List.length_map]
  refine ⟨report, ?_, h.samples.trans hlength, ?_, h.dwellHolds.trans hdwell,
    h.cooldownHolds.trans hcooldown, ?_, ?_, ?_, Report.into_sub_outOf h⟩
  · rw [analyze, lines_output]
    exact hok
  · rw [h.samples, h.recommendationCounts, Tally.total_ofList, List.length_map]
  · rw [h.transitions, Tally.total_ofList, List.length_map, Tally.changes,
      List.countP_eq_length_filter]
    exact congrArg (fun walk => (List.filter _ (walk.zip walk.tail)).length) hprofiles
  · exact h.first.trans (congrArg List.head? hprofiles)
  · exact h.last.trans (congrArg List.getLast? hprofiles)

section Example

def recordMembers (r : Replay.PolicyRecord) (confidence : Value) : List (String × Value) :=
  [("timestamp_ms", natValue r.timestampMs.toNat),
    ("current_profile", r.currentProfile.toValue),
    ("recommended_profile", r.recommendedProfile.toValue),
    ("confidence", confidence), ("reason", .str r.reason)]

def recordOfValue (v : Value) : Option Report.PolicyRecord := do
  let recommendedProfile ← (v.get "recommended_profile").bind Profile.ofValue
  let confidence ← (v.get "confidence").bind readF64
  let reason ← (v.get "reason").bind Coding.string.decode
  let currentProfile := (v.get "current_profile").bind Profile.ofValue
  return ⟨currentProfile, recommendedProfile, confidence, reason⟩

@[reducible] def textRecords : Records where
  toString r := .ofList (printWith decimalText (.obj (recordMembers r (.float r.confidence))))
  fromStr s := (read s.toList).bind recordOfValue

/-- A confidence that is not finite is printed as `null`. -/
theorem memberReads_record (r : Replay.PolicyRecord) : ∃ confidence,
    List.Forall₂ (MemberReads decimalText) (recordMembers r (.float r.confidence))
      (recordMembers r confidence) ∧
    (r.confidence.isFinite = true → confidence = .float (readBack r.confidence)) := by
  have htime : (natValue r.timestampMs.toNat).size = 1 := by
    rw [natValue]
    split_ifs <;> rfl
  obtain ⟨confidence, hreads, hfinite⟩ : ∃ confidence,
      Reads (printWith decimalText (.float r.confidence)) confidence ∧
        (r.confidence.isFinite = true → confidence = .float (readBack r.confidence)) := by
    by_cases h : r.confidence.isFinite = true
    · exact ⟨_, reads_float h, fun _ => rfl⟩
    · have hnull : printWith decimalText (.float r.confidence) = printWith decimalText .null := by
        simp only [printWith, h, if_false, Bool.false_eq_true]
      rw [hnull]
      exact ⟨.null, reads_whole _ rfl rfl, fun hr => absurd hr h⟩
  refine ⟨confidence, ?_, hfinite⟩
  rw [recordMembers, recordMembers]
  repeat' apply List.Forall₂.cons
  · exact memberReads_whole _ _ (natValue_whole _) htime
  · exact memberReads_whole _ _ rfl rfl
  · exact memberReads_whole _ _ rfl rfl
  · exact ⟨rfl, hreads⟩
  · exact memberReads_whole _ _ rfl rfl
  · exact .nil

theorem textRecords_lawful : @LawfulRecords textRecords := by
  have hline (r : Replay.PolicyRecord) : (textRecords.toString r).toList.head? = some '{' ∧
      (textRecords.toString r).toList.getLast? = some '}' ∧
      '\n' ∉ (textRecords.toString r).toList := by
    obtain ⟨confidence, hreads, -⟩ := memberReads_record r
    have hobject := object_line hreads (List.cons_ne_nil _ _)
    rw [← String.toList_ofList (l := printWith decimalText _)] at hobject
    exact hobject
  refine @LawfulRecords.mk textRecords (fun r hr => ?_) (fun r => ⟨(hline r).1, (hline r).2.1⟩)
    fun r => (hline r).2.2
  obtain ⟨confidence, hreads, hfinite⟩ := memberReads_record r
  have hback := read_object hreads (List.cons_ne_nil _ _)
  rw [hfinite hr] at hback
  refine ⟨readBack r.confidence, ?_⟩
  change (read (String.ofList _).toList).bind recordOfValue = _
  rw [String.toList_ofList, hback, Option.bind_some]
  simp [recordOfValue, recordMembers, Value.get, readF64, Coding.string]

/-- Two samples are held for the dwell, and the third changes to Performance. -/
theorem report_agrees_loaded : ∃ report, @analyze textRecords "policy-decisions.jsonl"
      (some (@Replay.output textRecords
        (Replay.run none .new [loaded 0, loaded 1000, loaded 2000]))) = .ok report ∧
    report.samples = 3 ∧ report.dwellHolds = 2 ∧ report.cooldownHolds = 0 ∧
    (report.into .performance : ℤ) - report.outOf .performance = 1 := by
  obtain ⟨report, hok, hsamples, -, hdwell, hcooldown, -, hfirst, hlast, hflow⟩ :=
    @report_agrees textRecords textRecords_lawful "policy-decisions.jsonl"
      [loaded 0, loaded 1000, loaded 2000]
  refine ⟨report, hok, hsamples, hdwell.trans (by decide +kernel),
    hcooldown.trans (by decide +kernel), (hflow .performance).trans ?_⟩
  rw [hfirst, hlast]
  decide +kernel

end Example

end CerynthOS.Policy
