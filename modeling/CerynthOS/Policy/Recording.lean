import CerynthOS.Daemon.Scx
import CerynthOS.Policy.Replay
import CerynthOS.Schemes.JsonDecimals
import CerynthOS.Schemes.JsonDocument
import CerynthOS.Schemes.Lines

/-! The replay of a recording.

    The recorder writes a snapshot a line, and the replay reads the lines back. A double need not be
    read as the one that was written, so what the replay recommends depends on the snapshots as they
    are read, and the live policy's recommendations on those that were collected. -/

namespace CerynthOS.Policy
open Ipc

/-! ### Lines -/

def stripSuffix (c : Char) (line : List Char) : Option (List Char) :=
  if line.getLast? = some c then some line.dropLast else none

/-- The line without its end, as `str::lines` has it. -/
def stripLine (line : List Char) : List Char :=
  match stripSuffix '\n' line with
  | none => line
  | some line => (stripSuffix '\r' line).getD line

/-- `str::lines`. -/
def lines (content : String) : List String :=
  (Lines.lines '\n' content.toList).map fun line => .ofList (stripLine line)

/-- A file with each of these texts on a line of its own. -/
def file (texts : List String) : String :=
  .ofList (texts.flatMap fun text => text.toList ++ ['\n'])

/-- An object that is printed on one line. -/
structure IsObject (text : String) : Prop where
  opens : text.toList.head? = some '{'
  closes : text.toList.getLast? = some '}'
  newline_not_mem : '\n' ∉ text.toList

theorem stripLine_line {body : List Char} (h : body.getLast? ≠ some '\r') :
    stripLine (body ++ ['\n']) = body := by
  have hnewline : stripSuffix '\n' (body ++ ['\n']) = some body := by
    rw [stripSuffix, if_pos List.getLast?_concat, List.dropLast_concat]
  rw [stripLine, hnewline]
  dsimp only
  rw [stripSuffix, if_neg h]
  rfl

theorem IsObject.trim_ne_empty {text : String} (h : IsObject text) : Daemon.trim text ≠ "" := by
  obtain ⟨s, hs⟩ : ∃ s, text.toList = '{' :: s := by
    have hopens := h.opens
    cases hl : text.toList with
    | nil => rw [hl] at hopens; cases hopens
    | cons d s =>
      rw [hl] at hopens
      exact ⟨s, by rw [Option.some.inj hopens]⟩
  intro htrim
  have hbrace : ¬ Daemon.isWhitespace '{' = true := by decide
  have hlist := congrArg String.toList htrim
  rw [Daemon.trim, hs, List.dropWhile_cons_of_neg hbrace, String.toList_ofList] at hlist
  have hall := List.reverse_eq_nil_iff.mp hlist
  rw [List.dropWhile_eq_nil_iff] at hall
  exact hbrace (hall '{' (by simp))

/-- The lines of a file of objects. -/
theorem lines_file {texts : List String} (h : ∀ text ∈ texts, IsObject text) :
    lines (file texts) = texts := by
  have hline : ∀ line ∈ texts.map fun text => text.toList ++ ['\n'], Lines.IsLine '\n' line := by
    intro line hm
    obtain ⟨text, htext, rfl⟩ := List.mem_map.mp hm
    exact ⟨_, rfl, (h text htext).newline_not_mem⟩
  rw [lines, file, String.toList_ofList, List.flatMap_def, Lines.lines_flatten hline, List.map_map]
  refine (List.map_congr_left fun text htext => ?_).trans (List.map_id texts)
  have hlast := (h text htext).closes
  rw [Function.comp_apply, stripLine_line (by rw [hlast]; decide), String.ofList_toList, id]

/-! ### Reading -/

/-- How a line of telemetry is read. -/
class Telemetry where
  fromStr : String → Option SystemSnapshot

section
variable [Telemetry]

namespace Replay

/-- The snapshots of the lines, up to one that cannot be read. Blank lines are passed over, and
    lines are numbered from 1. -/
def load (lineNumber : ℕ) : List String → List SystemSnapshot × Except String Unit
  | [] => ([], .ok ())
  | line :: rest =>
    if Daemon.trim line = "" then load (lineNumber + 1) rest
    else
      match Telemetry.fromStr line with
      | none => ([], .error s!"parsing telemetry JSON on line {lineNumber}")
      | some snapshot =>
        let (snapshots, result) := load (lineNumber + 1) rest
        (snapshot :: snapshots, result)

/-- The records that the replay of a file writes, and how it ends. The source reads and evaluates
    line by line; neither depends on the other. -/
def main (input : String) (content : Option String) : List PolicyRecord × Except String Unit :=
  match content with
  | none => ([], .error s!"opening input telemetry: {input}")
  | some content =>
    let (snapshots, result) := load 1 (lines content)
    (run none .new snapshots, result)

end Replay

/-- What the programs rely on of the line on which a snapshot is recorded: it is an object, and
    where it can be read, no double that is read is NaN or infinite, and the profile is as it was. -/
structure Recorded (snapshot : SystemSnapshot) (line : String) : Prop extends IsObject line where
  finite : ∀ read, Telemetry.fromStr line = some read → read.isFinite = true
  profile : ∀ read, Telemetry.fromStr line = some read →
    read.schedulerProfile = snapshot.schedulerProfile

variable {snapshots : List SystemSnapshot} {texts : List String}

/-- All lines are read, or the replay stops short. -/
theorem Replay.load_cases (h : ∀ text ∈ texts, IsObject text) (lineNumber : ℕ) :
    texts.map Telemetry.fromStr = (Replay.load lineNumber texts).1.map some ∨
      (none ∈ texts.map Telemetry.fromStr ∧
        (Replay.load lineNumber texts).1.length < texts.length) := by
  induction texts generalizing lineNumber with
  | nil => exact .inl rfl
  | cons text rest ih =>
    have hblank := (h text List.mem_cons_self).trim_ne_empty
    have hrest := ih (fun t ht => h t (List.mem_cons_of_mem _ ht)) (lineNumber + 1)
    rw [Replay.load, if_neg hblank, List.map_cons, List.length_cons]
    cases Telemetry.fromStr text with
    | none => exact .inr ⟨List.mem_cons_self, Nat.succ_pos _⟩
    | some snapshot =>
      rcases hrest with hread | ⟨hnone, hlt⟩
      · exact .inl (congrArg (some snapshot :: ·) hread)
      · exact .inr ⟨List.mem_cons_of_mem _ hnone, Nat.succ_lt_succ hlt⟩

/-- Lines that are read are read to their end. -/
theorem Replay.load_eq (h : ∀ text ∈ texts, IsObject text) (lineNumber : ℕ)
    (hread : texts.map Telemetry.fromStr = snapshots.map some) :
    (Replay.load lineNumber texts).1 = snapshots := by
  rcases Replay.load_cases h lineNumber with hload | ⟨hnone, -⟩
  · exact List.map_injective_iff.mpr (Option.some_injective _) (hload.symm.trans hread)
  · rw [hread] at hnone
    simp at hnone

theorem Recorded.objects (h : List.Forall₂ Recorded snapshots texts) :
    ∀ text ∈ texts, IsObject text := by
  induction h with
  | nil => exact fun _ ht => absurd ht List.not_mem_nil
  | cons hline _ ih =>
    intro text ht
    rcases List.mem_cons.mp ht with rfl | ht
    · exact hline.toIsObject
    · exact ih text ht

/-- What is read of recorded snapshots. -/
theorem Recorded.read (h : List.Forall₂ Recorded snapshots texts) {read : List SystemSnapshot}
    (hread : texts.map Telemetry.fromStr = read.map some) :
    (∀ back ∈ read, back.isFinite = true) ∧ read.length = snapshots.length ∧
      firstProfile read = firstProfile snapshots := by
  induction h generalizing read with
  | nil =>
    obtain rfl := List.map_eq_nil_iff.mp hread.symm
    exact ⟨fun _ hb => absurd hb List.not_mem_nil, rfl, rfl⟩
  | @cons snapshot text snapshots texts hline _ ih =>
    cases read with
    | nil => cases hread
    | cons back read =>
      rw [List.map_cons, List.map_cons, List.cons.injEq] at hread
      obtain ⟨hfinite, hlength, -⟩ := ih hread.2
      refine ⟨fun b hb => ?_, congrArg (· + 1) hlength, ?_⟩
      · rcases List.mem_cons.mp hb with rfl | hb
        · exact hline.finite b hread.1
        · exact hfinite b hb
      · rw [firstProfile, firstProfile, SystemSnapshot.profile, hline.profile back hread.1]
        rfl

theorem main_file (h : ∀ text ∈ texts, IsObject text) (input : String) :
    (Replay.main input (some (file texts))).1 = Replay.run none .new (Replay.load 1 texts).1 := by
  rw [Replay.main, lines_file h]

/-- The replay of a recording recommends what the live policy recommended exactly when every line
    is read and the raw candidates agree, those of the live policy on the snapshots as they were
    collected and those of the replay on the snapshots as they are read. -/
theorem replay_agrees_iff (input : String)
    (hfinite : ∀ snapshot ∈ snapshots, snapshot.isFinite = true)
    (hrecorded : List.Forall₂ Recorded snapshots texts) :
    (Replay.main input (some (file texts))).1.map (·.recommendedProfile) =
        (Live.run .new (snapshots.map .ok)).map (·.recommendedProfile) ↔
      ∃ read, texts.map Telemetry.fromStr = read.map some ∧
        Debounce.Agree 3 5 (firstProfile snapshots) (Live.candidates snapshots)
          (Replay.candidates read) snapshots.length := by
  have hobjects := Recorded.objects hrecorded
  have hiff {read : List SystemSnapshot} (hread : texts.map Telemetry.fromStr = read.map some) :
      (Replay.run none .new read).map (·.recommendedProfile) =
          (Live.run .new (snapshots.map .ok)).map (·.recommendedProfile) ↔
        Debounce.Agree 3 5 (firstProfile snapshots) (Live.candidates snapshots)
          (Replay.candidates read) snapshots.length := by
    obtain ⟨hback, hlength, hfirst⟩ := Recorded.read hrecorded hread
    exact profiles_eq_iff hfinite hback hlength hfirst
  rw [main_file hobjects]
  constructor
  · intro heq
    rcases Replay.load_cases hobjects 1 with hload | ⟨-, hlt⟩
    · exact ⟨_, hload, (hiff hload).mp heq⟩
    · -- a replay that stops short has fewer records
      have hlength := congrArg List.length heq
      rw [List.length_map, List.length_map, Replay.length_run, Live.length_run,
        hrecorded.length_eq] at hlength
      omega
  · rintro ⟨read, hread, hagree⟩
    rw [Replay.load_eq hobjects 1 hread]
    exact (hiff hread).mpr hagree

end

section Example
open Json

/-- A snapshot as it is recorded. What the replay does not read is zero or empty. -/
def recordedMembers (s : SystemSnapshot) : List (String × Value) :=
  [("timestamp_ms", natValue s.timestampMs.toNat),
    ("cpu_usage_percent", .float s.cpuUsagePercent), ("load_1m", .float s.load1m),
    ("load_5m", .float 0.0), ("load_15m", .float 0.0), ("runnable_tasks", .posInt s.runnableTasks),
    ("total_tasks", .posInt 0), ("context_switches", .posInt s.contextSwitches),
    ("context_switch_rate", .float s.contextSwitchRate),
    ("short_lived_process_rate", .float s.shortLivedProcessRate), ("interrupts", .posInt 0),
    ("memory_used_bytes", .posInt 0), ("memory_total_bytes", .posInt 0),
    ("swap_used_bytes", .posInt 0), ("swap_total_bytes", .posInt 0), ("top_processes", .arr []),
    ("scheduler_profile", s.schedulerProfile.elim .null .str),
    ("sched_ext_state", .str "disabled")]

def recordedText (s : SystemSnapshot) : String :=
  .ofList (printWith decimalText (.obj (recordedMembers s)))

def readF64 : Value → Option Float
  | .float x => some x
  | _ => none

def readProfile : Value → Option (Option String)
  | .null => some none
  | .str s => some (some s)
  | _ => none

def snapshotOfValue (v : Value) : Option SystemSnapshot := do
  let timestampMs ← (v.get "timestamp_ms").bind natOfValue
  let cpuUsagePercent ← (v.get "cpu_usage_percent").bind readF64
  let load1m ← (v.get "load_1m").bind readF64
  let runnableTasks ← (v.get "runnable_tasks").bind Value.asU64
  let contextSwitches ← (v.get "context_switches").bind Value.asU64
  let contextSwitchRate ← (v.get "context_switch_rate").bind readF64
  let shortLivedProcessRate ← (v.get "short_lived_process_rate").bind readF64
  let schedulerProfile ← (v.get "scheduler_profile").bind readProfile
  return ⟨.ofNat 128 timestampMs, cpuUsagePercent, load1m, runnableTasks, contextSwitches,
    contextSwitchRate, shortLivedProcessRate, schedulerProfile⟩

@[reducible] def textTelemetry : Telemetry where
  fromStr text := (read text.toList).bind snapshotOfValue

/-- The doubles of the snapshot are finite and read back as they are. -/
def legible (s : SystemSnapshot) : Bool :=
  s.isFinite && decide (readBack s.cpuUsagePercent = s.cpuUsagePercent) &&
    decide (readBack s.load1m = s.load1m) &&
    decide (readBack s.contextSwitchRate = s.contextSwitchRate) &&
    decide (readBack s.shortLivedProcessRate = s.shortLivedProcessRate)

theorem memberReads_recorded {s : SystemSnapshot} (h : legible s = true) :
    List.Forall₂ (MemberReads decimalText) (recordedMembers s) (recordedMembers s) := by
  simp only [legible, SystemSnapshot.isFinite, Bool.and_eq_true, decide_eq_true_eq] at h
  obtain ⟨⟨⟨⟨⟨⟨⟨hcpu, hload⟩, hrate⟩, hshort⟩, hcpu'⟩, hload'⟩, hrate'⟩, hshort'⟩ := h
  have hzero : (0.0 : Float).isFinite = true ∧ readBack 0.0 = 0.0 := by decide +kernel
  have htime : (natValue s.timestampMs.toNat).size = 1 := by
    rw [natValue]
    split_ifs <;> rfl
  have hprofile : (s.schedulerProfile.elim Value.null .str).whole = true ∧
      (s.schedulerProfile.elim Value.null .str).size = 1 := by
    cases s.schedulerProfile <;> exact ⟨rfl, rfl⟩
  rw [recordedMembers]
  repeat' apply List.Forall₂.cons
  · exact memberReads_whole _ _ (natValue_whole _) htime
  · exact memberReads_float _ hcpu hcpu'
  · exact memberReads_float _ hload hload'
  · exact memberReads_float _ hzero.1 hzero.2
  · exact memberReads_float _ hzero.1 hzero.2
  · exact memberReads_whole _ _ rfl rfl
  · exact memberReads_whole _ _ rfl rfl
  · exact memberReads_whole _ _ rfl rfl
  · exact memberReads_float _ hrate hrate'
  · exact memberReads_float _ hshort hshort'
  · exact memberReads_whole _ _ rfl rfl
  · exact memberReads_whole _ _ rfl rfl
  · exact memberReads_whole _ _ rfl rfl
  · exact memberReads_whole _ _ rfl rfl
  · exact memberReads_whole _ _ rfl rfl
  · exact memberReads_whole _ _ rfl rfl
  · exact memberReads_whole _ _ hprofile.1 hprofile.2
  · exact memberReads_whole _ _ rfl rfl
  · exact .nil

theorem fromStr_recordedText {s : SystemSnapshot} (h : legible s = true) :
    textTelemetry.fromStr (recordedText s) = some s := by
  have hread := read_object (memberReads_recorded h) (List.cons_ne_nil _ _)
  have hprofile : readProfile (s.schedulerProfile.elim Value.null .str) =
      some s.schedulerProfile := by
    cases s.schedulerProfile <;> rfl
  change (read (String.ofList _).toList).bind snapshotOfValue = some s
  rw [String.toList_ofList, hread, Option.bind_some]
  simp [snapshotOfValue, recordedMembers, Value.get, readF64, Value.asU64, hprofile,
    natOfValue_natValue]

theorem recorded_texts {snapshots : List SystemSnapshot} (h : ∀ s ∈ snapshots, legible s = true) :
    List.Forall₂ (@Recorded textTelemetry) snapshots (snapshots.map recordedText) := by
  rw [List.forall₂_map_right_iff, List.forall₂_same]
  intro s hs
  have hread := fromStr_recordedText (h s hs)
  have hline := object_line (memberReads_recorded (h s hs)) (List.cons_ne_nil _ _)
  refine @Recorded.mk textTelemetry _ _ ?_ ?_ ?_
  · rw [← String.toList_ofList (l := printWith decimalText _)] at hline
    exact ⟨hline.1, hline.2.1, hline.2.2⟩
  · intro read hr
    obtain rfl := Option.some.inj (hread.symm.trans hr)
    simp only [legible, Bool.and_eq_true] at h
    exact (h s hs).1.1.1.1
  · intro read hr
    obtain rfl := Option.some.inj (hread.symm.trans hr)
    rfl

theorem read_texts {snapshots : List SystemSnapshot} (h : ∀ s ∈ snapshots, legible s = true) :
    (snapshots.map recordedText).map textTelemetry.fromStr = snapshots.map some := by
  rw [List.map_map]
  exact List.map_congr_left fun s hs => fromStr_recordedText (h s hs)

/-- A busy system in which many processes come and go. -/
def churning (timestampMs : BitVec 128) : SystemSnapshot where
  timestampMs := timestampMs
  cpuUsagePercent := 50.0
  load1m := 1.5
  runnableTasks := 2
  contextSwitches := 0
  contextSwitchRate := 0.0
  shortLivedProcessRate := 6.0
  schedulerProfile := none

/-- A loaded machine, under the balanced profile. -/
def loaded (timestampMs : BitVec 128) : SystemSnapshot where
  timestampMs := timestampMs
  cpuUsagePercent := 100.0
  load1m := 4.0
  runnableTasks := 8
  contextSwitches := 0
  contextSwitchRate := 0.0
  shortLivedProcessRate := 0.0
  schedulerProfile := none

/-- The load sets in with the second snapshot. -/
def loadedRun : List SystemSnapshot :=
  [churning 0, loaded 1000, loaded 2000, loaded 3000, loaded 4000]

theorem loadedRun_legible : ∀ s ∈ loadedRun, legible s = true := by decide +kernel

/-- The first candidates differ, and both change to Performance with the fourth snapshot. -/
theorem loadedRun_agrees : Debounce.Agree 3 5 (firstProfile loadedRun) (Live.candidates loadedRun)
    (Replay.candidates loadedRun) loadedRun.length :=
  (Debounce.agree_iff (by decide)).mpr (by decide +kernel)

theorem replay_agrees_loaded :
    (@Replay.main textTelemetry "run.jsonl"
      (some (file (loadedRun.map recordedText)))).1.map (·.recommendedProfile) =
        (Live.run .new (loadedRun.map .ok)).map (·.recommendedProfile) ∧
      (Live.run .new (loadedRun.map .ok)).map (·.recommendedProfile) =
        [.balanced, .balanced, .balanced, .performance, .performance] := by
  have hfinite : ∀ s ∈ loadedRun, s.isFinite = true := by decide +kernel
  refine ⟨(@replay_agrees_iff textTelemetry _ _ "run.jsonl" hfinite
    (recorded_texts loadedRun_legible)).mpr ⟨loadedRun, ?_, loadedRun_agrees⟩, by decide +kernel⟩
  exact read_texts loadedRun_legible

/-- Three busy snapshots with many short-lived processes, read as they were written. -/
theorem replay_differs : ¬ ∀ (snapshots : List SystemSnapshot) (texts : List String),
    (∀ snapshot ∈ snapshots, snapshot.isFinite = true) →
    List.Forall₂ (@Recorded textTelemetry) snapshots texts →
    (@Replay.main textTelemetry "run.jsonl" (some (file texts))).1.map (·.recommendedProfile) =
      (Live.run .new (snapshots.map .ok)).map (·.recommendedProfile) := by
  intro h
  set snapshots := [churning 0, churning 1000, churning 2000] with hs
  have hlegible : ∀ s ∈ snapshots, legible s = true := by decide +kernel
  have heq := h snapshots _ (by decide +kernel) (recorded_texts hlegible)
  have hobjects := @Recorded.objects textTelemetry _ _ (recorded_texts hlegible)
  rw [@main_file textTelemetry _ hobjects "run.jsonl", @Replay.load_eq textTelemetry _ _ hobjects 1
    (read_texts hlegible)] at heq
  exact absurd heq (by decide +kernel)

end Example

end CerynthOS.Policy
