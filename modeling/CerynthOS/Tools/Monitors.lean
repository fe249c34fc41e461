import CerynthOS.Daemon.Scx
import CerynthOS.Schemes.JsonText
import CerynthOS.Schemes.Python

/-! Three health checks of the scheduler.

    The stability tool, the observer of the experiments and the daemon read the same files, each
    with its own limits and its own rules for types. What the stability tool accepts is accepted by
    the others, if the daemon can represent the heartbeat and trims the state as Python does. -/

namespace CerynthOS.Tools
open Ipc Python

/-- What there is to read. A file that cannot be read is missing. -/
structure Files where
  scheduler : Option String
  stats : Option String
  schedExtState : Option String
  stat : String → Option String

/-- The exceptions of the two Python programs. -/
inductive Raised where
  | os
  | value (message : String)
  | runtime (message : String)
  | index
  | attribute

section
variable [Library]

/-! ### The stability tool -/

/-- What is there, or else this exception. -/
def need {α : Type} (e : Raised) : Option α → Except Raised α
  | some a => .ok a
  | none => .error e

/-- Raises the exception if the condition holds. -/
def refuse (c : Prop) [Decidable c] (e : Raised) : Except Raised Unit :=
  if c then .error e else .ok ()

def readObject (path : String) (contents : Option String) : Except Raised Dict :=
  match contents with
  | none => .error .os
  | some contents =>
    match Library.loads contents with
    | some (.dict d) => .ok d
    | some _ => .error (.value s!"{path}: expected object")
    | none => .error (.value (Library.errorText (some contents)))

/-- The process entry, without the part that is up to the end of the name. -/
def processFields (stat : List Char) : List (List Char) :=
  split (slice stat (rfind ')' stat + 1) stat.length)

def processName (stat : List Char) : List Char :=
  slice stat (find '(' stat + 1) (rfind ')' stat)

variable {K : Type} [Field K] [LinearOrder K] [FloorRing K]

/-- `int` of a time. -/
def truncate (x : K) : ℤ := if 0 ≤ x then ⌊x⌋ else ⌈x⌉

/-- The timestamp is not from the future and not too old. -/
def recent (now heartbeat limit : K) : Bool := 0 ≤ now - heartbeat && now - heartbeat < limit

/-- Integer heartbeats are rounded down to seconds by the producer. -/
def checkHeartbeat (name : String) (record : Dict) (now : K) : Except Raised Unit :=
  let accepted := match record.get "heartbeat" with
    | some (.int heartbeat) => recent now heartbeat (3 + 1)
    | some (.float x) => (floatValue x).any fun heartbeat => recent now heartbeat 3
    | _ => false
  if accepted then .ok () else .error (.runtime s!"{name} heartbeat stale/future/missing")

/-- What `check_health` returns. -/
structure Health where
  timestampMs : ℤ
  scheduler : Dict
  stats : Dict
  schedExt : String
  processState : String
  processCpuTicks : ℤ

/-- No error has been counted. -/
def checkCounter (stats : Dict) (name : String) : Except Raised Unit :=
  let counter := (stats.get name).getD (.int 0)
  if counter.truthy then .error (.runtime s!"scheduler error counter {name}={counter.text}")
  else .ok ()

def checkHealth (profile : String) (files : Files) (now : K) : Except Raised Health := do
  let status ← readObject "/run/cerynth/scheduler.json" files.scheduler
  let pid ← need (.runtime "missing scheduler PID") (status.get "pid")
  let number ← need (.runtime "missing scheduler PID") pid.asInt
  refuse (number ≤ 0) (.runtime "missing scheduler PID")
  let stat ← need .os (files.stat pid.text)
  refuse (processName stat.toList ≠ "cerynth-scx".toList)
    (.runtime "scheduler PID belongs to a different process")
  let fields := processFields stat.toList
  let processState ← need .index fields[0]?
  refuse (processState ∈ [['Z'], ['X'], ['x']]) (.runtime "scheduler process exited/zombie")
  refuse (!(status.get "running").any Value.isTrue || !(status.get "healthy").any Value.isTrue)
    (.runtime "scheduler status reports stopped/unhealthy")
  refuse (toLowercase ((status.get "profile").getD (.str "")).text ≠ profile)
    (.runtime "scheduler profile mismatch")
  let stats ← readObject "/run/cerynth/scheduler-stats.json" files.stats
  refuse ((stats.get "pid").bind Value.number ≠ some (number : ℚ))
    (.runtime "stale scheduler stats from another process")
  checkCounter stats "dispatch_errors"
  checkCounter stats "dequeue_errors"
  let state ← need .os files.schedExtState
  let state := String.ofList (strip state.toList)
  refuse (state ≠ "enabled") (.runtime s!"sched_ext={state}")
  checkHeartbeat "status" status now
  checkHeartbeat "stats" stats now
  let utime ← need .index fields[11]?
  let stime ← need .index fields[12]?
  let utime ← need (.value "invalid literal for int()") (Library.int (.ofList utime))
  let stime ← need (.value "invalid literal for int()") (Library.int (.ofList stime))
  return {
    timestampMs := truncate (now * 1000)
    scheduler := status
    stats := stats
    schedExt := state
    processState := .ofList processState
    processCpuTicks := utime + stime }

/-! ### The observer -/

/-- What a sample says of the scheduler. A heartbeat that is no finite number has no age. -/
structure Observation (K : Type) where
  timestampMs : ℤ
  schedExtState : String
  schedulerHealthy : Bool
  heartbeatAgeSeconds : Option K
  actualProfile : Value

/-- `read_json`, which puts an error into the record. -/
def readJson (contents : Option String) : Dict :=
  match contents.map Library.loads with
  | some (some (.dict d)) => d
  | some (some _) => [("observation_error", .str "expected JSON object")]
  | _ => [("observation_error", .str (Library.errorText contents))]

/-- The part of `Observer.sample` that is about the scheduler. -/
def observe (files : Files) (now : K) : Observation K :=
  let scheduler := readJson files.scheduler
  let schedExt := match files.schedExtState with
    | some state => String.ofList (strip state.toList)
    | none => "unavailable"
  let heartbeat := (scheduler.get "heartbeat").bind Value.number
  let age := heartbeat.map fun heartbeat : ℚ => now - heartbeat
  let healthy := (scheduler.get "running").any Value.isTrue &&
    (scheduler.get "healthy").any Value.isTrue && schedExt == "enabled" &&
    age.any fun age => 0 ≤ age && age ≤ 5
  let profile := if healthy then (scheduler.get "profile").getD .null else .null
  { timestampMs := truncate (now * 1000)
    schedExtState := schedExt
    schedulerHealthy := healthy
    heartbeatAgeSeconds := age
    actualProfile := if schedExt = "disabled" then .str "linux-default" else profile }

def verify (sample : Observation K) (profile : String) : Except Raised Unit :=
  let mismatch : Except Raised Unit := .error (.runtime
    s!"requested {profile}, observed {sample.actualProfile.text}; sched_ext={sample.schedExtState}")
  if !sample.actualProfile.truthy then mismatch
  else
    match sample.actualProfile with
    | .str actual =>
      if toLowercase actual ≠ profile ∨ (profile ≠ "linux-default" ∧ !sample.schedulerHealthy) then
        mismatch
      else .ok ()
    | _ => .error .attribute

/-! ### What the stability tool has seen -/

/-- The facts that the other checks depend on. -/
structure Accepted (profile : String) (files : Files) (now : K) (record : Dict) : Prop where
  read : readObject "/run/cerynth/scheduler.json" files.scheduler = .ok record
  pid : ∃ pid number, record.get "pid" = some pid ∧ pid.asInt = some number ∧ 0 < number
  running : (record.get "running").any Value.isTrue = true
  healthy : (record.get "healthy").any Value.isTrue = true
  profile : toLowercase ((record.get "profile").getD (.str "")).text = profile
  state : ∃ state, files.schedExtState = some state ∧
    String.ofList (strip state.toList) = "enabled"
  heartbeat : checkHeartbeat "status" record now = .ok ()

omit [Library] in
theorem bind_ok {α β : Type} {x : Except Raised α} {f : α → Except Raised β} {b : β}
    (h : (x >>= f) = .ok b) : ∃ a, x = .ok a ∧ f a = .ok b := by
  cases x with
  | error e => cases h
  | ok a => exact ⟨a, rfl, h⟩

omit [Library] in
theorem need_ok {α : Type} {e : Raised} {o : Option α} {a : α} (h : need e o = .ok a) :
    o = some a := by
  cases o with
  | none => cases h
  | some b => exact congrArg some (Except.ok.inj h)

omit [Library] in
theorem refuse_ok {c : Prop} [Decidable c] {e : Raised} {u : Unit} (h : refuse c e = .ok u) :
    ¬ c := by
  rw [refuse] at h
  split_ifs at h with hc
  exact hc

/-- What the tool has read of the process entry. -/
structure Measured (files : Files) (health : Health) (pid contents : String) (utime stime : ℤ) :
    Prop where
  stat : files.stat pid = some contents
  name : processName contents.toList = "cerynth-scx".toList
  user : ((processFields contents.toList)[11]?).bind (fun f => Library.int (.ofList f)) = some utime
  system : ((processFields contents.toList)[12]?).bind (fun f => Library.int (.ofList f)) =
    some stime
  ticks : health.processCpuTicks = utime + stime

/-- All that `check_health` has found when it accepts. -/
theorem checkHealth_ok {profile : String} {files : Files} {now : K} {health : Health}
    (h : checkHealth profile files now = .ok health) :
    (∃ record, Accepted profile files now record) ∧
    ∃ pid contents utime stime, Measured files health pid contents utime stime := by
  obtain ⟨record, hread, h⟩ := bind_ok h
  obtain ⟨pid, hpid, h⟩ := bind_ok h
  obtain ⟨number, hnumber, h⟩ := bind_ok h
  obtain ⟨_, hpos, h⟩ := bind_ok h
  obtain ⟨stat, hstat, h⟩ := bind_ok h
  obtain ⟨_, hname, h⟩ := bind_ok h
  obtain ⟨processState, _, h⟩ := bind_ok h
  obtain ⟨_, _, h⟩ := bind_ok h
  obtain ⟨_, hflags, h⟩ := bind_ok h
  obtain ⟨_, hprofile, h⟩ := bind_ok h
  obtain ⟨stats, _, h⟩ := bind_ok h
  obtain ⟨_, _, h⟩ := bind_ok h
  obtain ⟨_, _, h⟩ := bind_ok h
  obtain ⟨_, _, h⟩ := bind_ok h
  obtain ⟨state, hstate, h⟩ := bind_ok h
  obtain ⟨_, henabled, h⟩ := bind_ok h
  obtain ⟨⟨⟩, hheartbeat, h⟩ := bind_ok h
  obtain ⟨_, _, h⟩ := bind_ok h
  obtain ⟨utimeText, hutimeText, h⟩ := bind_ok h
  obtain ⟨stimeText, hstimeText, h⟩ := bind_ok h
  obtain ⟨utime, hutime, h⟩ := bind_ok h
  obtain ⟨stime, hstime, h⟩ := bind_ok h
  cases h
  refine ⟨⟨record, ?_⟩, pid.text, stat, utime, stime, ?_⟩
  · have hflags := refuse_ok hflags
    rw [Bool.or_eq_true, Bool.not_eq_true', Bool.not_eq_true', not_or, Bool.not_eq_false,
      Bool.not_eq_false] at hflags
    exact ⟨hread, ⟨pid, number, need_ok hpid, need_ok hnumber, not_le.mp (refuse_ok hpos)⟩,
      hflags.1, hflags.2, not_not.mp (refuse_ok hprofile),
      ⟨state, need_ok hstate, not_not.mp (refuse_ok henabled)⟩, hheartbeat⟩
  · refine ⟨need_ok hstat, not_not.mp (refuse_ok hname), ?_, ?_, rfl⟩
    · rw [need_ok hutimeText]
      exact need_ok hutime
    · rw [need_ok hstimeText]
      exact need_ok hstime

/-! ### The observer accepts -/

omit [Library] in
theorem mem_toLowercase {s : String} (h : 'c' ∈ (toLowercase s).toList) :
    'c' ∈ s.toList ∨ 'C' ∈ s.toList := by
  rw [toLowercase, String.toList_ofList, List.mem_flatMap] at h
  obtain ⟨d, hd, hc⟩ := h
  rw [lowercaseChar] at hc
  split_ifs at hc with hupper hkelvin hdotted
  · have hascii : ∀ n < 128, (Char.ofNat n).toLower = 'c' →
        Char.ofNat n = 'c' ∨ Char.ofNat n = 'C' := by decide
    have hlt : d.toNat < 128 := by
      simp only [Char.isUpper, decide_eq_true_eq] at hupper
      exact (Nat.lt_succ_of_le (UInt32.le_iff_toNat_le.mp hupper.2)).trans (by decide)
    have hlow := hascii d.toNat hlt
    rw [Char.ofNat_toNat] at hlow
    rcases hlow (List.mem_singleton.mp hc).symm with rfl | rfl
    · exact .inl hd
    · exact .inr hd
  · exact absurd hc (by decide)
  · exact absurd hc (by decide)
  · exact .inl (List.mem_singleton.mp hc ▸ hd)

omit [Library] in
/-- A text that starts with a bracket or a brace is not the name of a profile. -/
theorem toLowercase_ne {s : String} {c : Char} {rest : List Char} (hs : s.toList = c :: rest)
    (hc : c = '[' ∨ c = '{') (profile : Profile) : toLowercase s ≠ toString profile := by
  intro h
  have hlow : lowercaseChar c = [c] := by
    rcases hc with rfl | rfl <;> decide
  have hhead := congrArg (fun s : String => s.toList.head?) h
  simp only [toLowercase, String.toList_ofList, hs, List.flatMap_cons, hlow, List.cons_append,
    List.head?_cons] at hhead
  rcases hc with rfl | rfl <;> cases profile <;> exact absurd hhead (by decide +kernel)

/-- Only a string is written like a profile. -/
theorem str_of_text {v : Value} {profile : Profile}
    (h : toLowercase v.text = toString profile) : ∃ s, v = .str s := by
  have hc : 'c' ∈ v.text.toList ∨ 'C' ∈ v.text.toList := by
    refine mem_toLowercase ?_
    rw [h]
    cases profile <;> decide +kernel
  cases v with
  | str s => exact ⟨s, rfl⟩
  | null =>
    rw [Value.text] at hc
    exact absurd hc (by decide +kernel)
  | bool b =>
    cases b <;> rw [Value.text] at hc <;> exact absurd hc (by decide +kernel)
  | int n =>
    rw [Value.text, Int.toString_eq_repr, Int.repr_eq_if] at hc
    have hdigit {m : ℕ} {c : Char} (hm : c ∈ m.repr.toList) : c.isDigit = true := by
      rw [Nat.toList_repr] at hm
      exact Json.isDigit_toDigits m c hm
    split_ifs at hc
    · rcases hc with hc | hc <;> exact absurd (hdigit hc) (by decide)
    · rw [String.toList_append, List.mem_append, List.mem_append] at hc
      rcases hc with (hc | hc) | hc | hc
      · exact absurd hc (by decide)
      · exact absurd (hdigit hc) (by decide)
      · exact absurd hc (by decide)
      · exact absurd (hdigit hc) (by decide)
  | float x =>
    rcases hc with hc | hc <;> exact absurd (Library.floatText_chars x _ hc) (by decide +kernel)
  | list items =>
    have htext : ∃ rest, (Value.text (.list items)).toList = '[' :: rest := by
      rw [Value.text, String.toList_append, String.toList_append]
      exact ⟨_, rfl⟩
    obtain ⟨rest, htext⟩ := htext
    exact absurd h (toLowercase_ne htext (.inl rfl) profile)
  | dict members =>
    have htext : ∃ rest, (Value.text (.dict members)).toList = '{' :: rest := by
      rw [Value.text, String.toList_append, String.toList_append]
      exact ⟨_, rfl⟩
    obtain ⟨rest, htext⟩ := htext
    exact absurd h (toLowercase_ne htext (.inr rfl) profile)

omit [FloorRing K] in
/-- The record names the profile, as a string. -/
theorem Accepted.named {profile : Profile} {files : Files} {now : K} {record : Dict}
    (h : Accepted (toString profile) files now record) :
    ∃ s, record.get "profile" = some (.str s) ∧ toLowercase s = toString profile := by
  have hprofile := h.profile
  cases hget : record.get "profile" with
  | none =>
    have hempty : toLowercase "" = toString profile := by rw [← hprofile, hget]; rfl
    cases profile <;> exact absurd hempty (by decide +kernel)
  | some v =>
    rw [hget, Option.getD_some] at hprofile
    obtain ⟨s, rfl⟩ := str_of_text hprofile
    exact ⟨s, rfl, hprofile⟩

theorem readJson_eq {path : String} {contents : Option String} {record : Dict}
    (h : readObject path contents = .ok record) : readJson contents = record := by
  cases contents with
  | none => cases h
  | some contents =>
    rw [readJson, Option.map_some]
    simp only [readObject] at h
    split at h
    · next d hd =>
      rw [hd]
      exact Except.ok.inj h
    · cases h
    · cases h

variable [IsStrictOrderedRing K]

omit [Library] [FloorRing K] in
theorem checkHeartbeat_int {name : String} {record : Dict} {now : K} {heartbeat : ℤ}
    (h : checkHeartbeat name record now = .ok ())
    (hget : record.get "heartbeat" = some (.int heartbeat)) :
    (heartbeat : K) ≤ now ∧ now < heartbeat + 4 := by
  rw [checkHeartbeat, hget] at h
  dsimp only at h
  split_ifs at h with hrecent
  rw [recent, Bool.and_eq_true, decide_eq_true_eq, decide_eq_true_eq] at hrecent
  constructor
  · exact sub_nonneg.mp hrecent.1
  · linarith [hrecent.2]

/-- The observer finds the scheduler healthy, under the name that the record gives. -/
theorem Accepted.observed {profile : Profile} {files : Files} {now : K} {record : Dict}
    {heartbeat : ℤ} (h : Accepted (toString profile) files now record)
    (hget : record.get "heartbeat" = some (.int heartbeat)) :
    (observe files now).schedulerHealthy = true ∧
      (observe files now).actualProfile = (record.get "profile").getD .null := by
  obtain ⟨state, hstate, henabled⟩ := h.state
  have hage := checkHeartbeat_int h.heartbeat hget
  have hhealthy : (observe files now).schedulerHealthy = true := by
    simp only [observe, readJson_eq h.read, h.running, h.healthy, hstate, henabled, hget,
      Option.bind_some, Value.number, Value.asInt, Option.map_some, Option.any_some,
      Bool.and_eq_true, decide_eq_true_eq, beq_self_eq_true, true_and, Rat.cast_intCast]
    constructor
    · linarith [hage.1]
    · linarith [hage.2]
  refine ⟨hhealthy, ?_⟩
  have hprofile : (observe files now).actualProfile =
      if (observe files now).schedExtState = "disabled" then .str "linux-default"
      else if (observe files now).schedulerHealthy then
        ((readJson files.scheduler).get "profile").getD .null else .null := rfl
  have hext : (observe files now).schedExtState = "enabled" := by
    simp only [observe, hstate, henabled]
  rw [hprofile, hext, hhealthy, readJson_eq h.read]
  rfl

/-- The experiments take such a sample for one of the profile. -/
theorem Accepted.verified {profile : Profile} {files : Files} {now : K} {record : Dict}
    {heartbeat : ℤ} (h : Accepted (toString profile) files now record)
    (hget : record.get "heartbeat" = some (.int heartbeat)) :
    verify (observe files now) (toString profile) = .ok () := by
  obtain ⟨hhealthy, hactual⟩ := h.observed hget
  obtain ⟨s, hs, hlow⟩ := h.named
  have hactual : (observe files now).actualProfile = .str s := by rw [hactual, hs]; rfl
  have hne : s ≠ "" := by
    rintro rfl
    cases profile <;> exact absurd hlow (by decide +kernel)
  simp [verify, hactual, hhealthy, hlow, Value.truthy, hne]

end

/-! ### The daemon accepts -/

section
open Daemon
open Json (Codec)

/-- The whole seconds since the epoch; there are none before it. -/
def unixSeconds {K : Type} [Field K] [LinearOrder K] [FloorRing K] (now : K) : Option ℕ :=
  if 0 ≤ now then some ⌊now⌋₊ else none

variable {B : Type} {s : Sys B}

/-- Rust trims to the same text, where there are no separators. -/
theorem trim_eq {state : String} (h : ∀ c ∈ state.toList, isSeparator c = false) :
    trim state = .ofList (strip state.toList) := by
  have hp (c : Char) : isSpace c = (isSeparator c || isWhitespace c) := by
    simp only [isSpace, isWhitespace, Bool.or_assoc]
  rw [trim, strip_eq hp h]

theorem schedExtIsEnabled_exec {state : String}
    (hs : (s.world.moves s.world.calls).state = some state) (h : trim state = "enabled") :
    (schedExtIsEnabled.exec s).1 = .ok true := by
  have hread : readState.exec s = (.ok (some state), (readState.exec s).2) :=
    Prod.ext (congrArg Except.ok hs) rfl
  have hscx : readScxState.exec s = (.ok (some "enabled"), (readState.exec s).2) := by
    rw [readScxState, Prog.exec_bind_ok hread]
    simp only [h]
    rfl
  rw [schedExtIsEnabled, Prog.exec_bind_ok hscx]
  rfl

variable [Codec]

theorem heartbeatIsFresh_exec {text : String} {json : Json.Value} {pid : UInt32}
    {heartbeat : UInt64} {now : ℕ}
    (hs : (s.world.moves s.world.calls).heartbeat = some text)
    (hnow : (s.world.moves (s.world.calls + 1)).unixTime = some now)
    (hread : Codec.fromStr text = some json) (hmatch : recordMatches json pid = true)
    (hget : json.get "heartbeat" = some (.posInt heartbeat))
    (hage : heartbeat.toNat ≤ now ∧ now - heartbeat.toNat ≤ heartbeatTimeoutSecs) :
    ((heartbeatIsFresh pid).exec s).1 = .ok true := by
  have hfile : readHeartbeat.exec s = (.ok (some text), (readHeartbeat.exec s).2) :=
    Prod.ext (congrArg Except.ok hs) rfl
  have hclock : unixNow.exec (readHeartbeat.exec s).2 =
      (.ok (some now), (unixNow.exec (readHeartbeat.exec s).2).2) :=
    Prod.ext (congrArg Except.ok hnow) rfl
  rw [heartbeatIsFresh, Prog.exec_bind_ok hfile]
  simp only [hread, hmatch, hget, Option.bind_some, Json.Value.asU64]
  rw [if_neg (by decide), Prog.exec_bind_ok hclock]
  change Except.ok (decide _ && decide _) = _
  rw [decide_eq_true hage.1, decide_eq_true hage.2]
  rfl

/-- The text of the status file is JSON to both languages: Python reads it as this record and the
    daemon as this value. -/
structure Standard [Library] (text : String) (record : Dict) (json : Json.Value) : Prop where
  loads : Library.loads text = some (.dict record)
  fromStr : Codec.fromStr text = some json
  same : Same (.dict record) json

section
variable [Library] {text : String} {record : Dict} {json : Json.Value}

/-- A flag that is true to Python is true to the daemon. -/
theorem Standard.asBool {key : String} (h : Standard text record json)
    (hv : (record.get key).any Value.isTrue = true) :
    (json.get key).bind Json.Value.asBool = some true := by
  obtain ⟨v, hget, htrue⟩ := (Option.any_eq_true _ _).mp hv
  obtain ⟨w, hw, hsame⟩ := h.same.get hget
  rw [hw]
  cases hsame with
  | bool b => exact congrArg some htrue
  | _ => cases htrue

/-- A positive number of 32 bits is the same number to the daemon. -/
theorem Standard.asU64 {key : String} {n : UInt32} (h : Standard text record json)
    (hv : record.get key = some (.int n.toNat)) (hn : 0 < n.toNat) :
    (json.get key).bind Json.Value.asU64 = some n.toUInt64 := by
  obtain ⟨w, hw, hsame⟩ := h.same.get hv
  have hlt : n.toNat < 2 ^ 32 := n.toNat_lt
  rw [hw]
  generalize hi : (n.toNat : ℤ) = i at hsame
  cases hsame with
  | posInt m =>
    have hm : m = n.toUInt64 :=
      UInt64.toNat_inj.mp ((Int.ofNat_inj.mp hi).symm.trans n.toNat_toUInt64.symm)
    exact congrArg some hm
  | negInt m hm => omega
  | outside _ x hout => omega

theorem Standard.int {key : String} {n : UInt64} (h : Standard text record json)
    (hw : json.get key = some (.posInt n)) : record.get key = some (.int n.toNat) := by
  obtain ⟨v, hget, hsame⟩ := h.same.of_get hw
  cases hsame with
  | posInt n => exact hget

variable {K : Type} [Field K] [LinearOrder K] [IsStrictOrderedRing K] [FloorRing K]

omit [Codec] [Library] in
/-- What is recent is recent in whole seconds. -/
theorem floor_recent {now : K} {heartbeat : ℕ} (h : (heartbeat : K) ≤ now ∧ now < heartbeat + 4) :
    heartbeat ≤ ⌊now⌋₊ ∧ ⌊now⌋₊ - heartbeat ≤ heartbeatTimeoutSecs := by
  have hnow : 0 ≤ now := heartbeat.cast_nonneg.trans h.1
  have hlt : ⌊now⌋₊ < heartbeat + 4 := by
    rw [Nat.floor_lt hnow]
    exact_mod_cast h.2
  refine ⟨Nat.le_floor h.1, ?_⟩
  rw [heartbeatTimeoutSecs]
  omega

/-- The daemon finds the heartbeat fresh in the second of the check. -/
theorem Accepted.fresh {profile : String} {files : Files} {now : K} {record : Dict} {pid : UInt32}
    {heartbeat : UInt64} (h : Accepted profile files now record)
    (hstandard : Standard text record json) (hpid : record.get "pid" = some (.int pid.toNat))
    (hheartbeat : json.get "heartbeat" = some (.posInt heartbeat))
    (hfile : (s.world.moves s.world.calls).heartbeat = some text)
    (hclock : (s.world.moves (s.world.calls + 1)).unixTime = unixSeconds now) :
    ((heartbeatIsFresh pid).exec s).1 = .ok true := by
  have hrecent := checkHeartbeat_int h.heartbeat (hstandard.int hheartbeat)
  have hrecent : (heartbeat.toNat : K) ≤ now ∧ now < heartbeat.toNat + 4 := by
    exact_mod_cast hrecent
  have hnow : unixSeconds now = some ⌊now⌋₊ := if_pos (Nat.cast_nonneg _ |>.trans hrecent.1)
  obtain ⟨_, number, hget, hnumber, hpos⟩ := h.pid
  have hpos : 0 < pid.toNat := by
    rw [hpid, Option.some.injEq] at hget
    subst hget
    cases hnumber
    exact_mod_cast hpos
  have hmatch : recordMatches json pid = true := by
    rw [recordMatches, hstandard.asU64 hpid hpos, hstandard.asBool h.running,
      hstandard.asBool h.healthy]
    simp
  exact heartbeatIsFresh_exec hfile (hclock.trans hnow) hstandard.fromStr hmatch hheartbeat
    (floor_recent hrecent)

end

end

/-! ### A status file -/

section
open Daemon
open Json (Codec)

def statusText (heartbeat : String) : String :=
  "\x7b\"pid\":7,\"running\":true,\"healthy\":true,\"profile\":\"balanced\",\"heartbeat\":" ++
    heartbeat ++ "\x7d"

def status (heartbeat : ℤ) : Dict :=
  [("pid", .int 7), ("running", .bool true), ("healthy", .bool true),
    ("profile", .str "balanced"), ("heartbeat", .int heartbeat)]

def statusJson (heartbeat : Json.Value) : Json.Value :=
  .obj [("pid", .posInt 7), ("running", .bool true), ("healthy", .bool true),
    ("profile", .str "balanced"), ("heartbeat", heartbeat)]

/-- A library that reads the status file with this heartbeat. -/
@[reducible] def statusLibrary (heartbeat : String) (n : ℤ) : Library where
  loads text := if text = statusText heartbeat then some (.dict (status n)) else none
  errorText _ := "unreadable"
  int s := (Json.parseNat s.toList).map fun p => p.1
  repr _ := ""
  floatText _ := ""
  floatText_chars _ _ h := absurd h List.not_mem_nil

@[reducible] def statusCodec (heartbeat : String) (value : Json.Value) : Codec :=
  { Json.textCodec with
    fromStr := fun text => if text = statusText heartbeat then some (statusJson value) else none }

theorem standard_status {heartbeat : String} {n : ℤ} {value : Json.Value}
    (h : Same (.int n) value) :
    @Standard (statusCodec heartbeat value) (statusLibrary heartbeat n) (statusText heartbeat)
      (status n) (statusJson value) := by
  have hmembers : Same (.dict (status n)) (statusJson value) :=
    .dict (.cons _ (.posInt 7) (.cons _ (.bool _) (.cons _ (.bool _) (.cons _ (.str _)
      (.cons _ h .nil)))))
  exact @Standard.mk (statusCodec heartbeat value) (statusLibrary heartbeat n) _ _ _
    (if_pos (Eq.refl (statusText heartbeat))) (if_pos (Eq.refl (statusText heartbeat))) hmembers

/-- The files of one scheduler, whose two records are the same. -/
def statusFiles (heartbeat state : String) : Files where
  scheduler := some (statusText heartbeat)
  stats := some (statusText heartbeat)
  schedExtState := some state
  stat pid :=
    if pid = "7" then some "7 (cerynth-scx) S 1 7 7 0 -1 4194304 100 0 0 0 12 34" else none

/-- A daemon that finds these files, at this time. -/
def statusSys (files : Files) (now : ℚ) : Sys Unit where
  backend := ()
  world := {
    moves := fun _ => {
      state := files.schedExtState
      heartbeat := files.scheduler
      unixTime := unixSeconds now } }

section
local instance : Library := statusLibrary "1000" 1000
local instance : Codec := statusCodec "1000" (.posInt 1000)

end

/-- The stability tool accepts a standard file, and at the same instant the daemon does not. -/
def AcceptedAlone (heartbeat : String) (n : ℤ) (value : Json.Value) (state : String) (now : ℚ) :
    Prop :=
  letI := statusLibrary heartbeat n
  letI := statusCodec heartbeat value
  let files := statusFiles heartbeat state
  Standard (statusText heartbeat) (status n) (statusJson value) ∧
    (checkHealth "balanced" files now).isOk = true ∧
    ¬ (((heartbeatIsFresh 7).exec (statusSys files now)).1 = .ok true ∧
      (schedExtIsEnabled.exec (statusSys files now)).1 = .ok true)

/-- The status file with one more member. -/
def notedText (note : String) : String :=
  "\x7b\"pid\":7,\"running\":true,\"healthy\":true,\"profile\":\"balanced\",\"heartbeat\":1000," ++
    "\"note\":" ++ note ++ "\x7d"

def notedFiles (note : String) : Files :=
  { statusFiles "1000" "enabled\n" with
    scheduler := some (notedText note)
    stats := some (notedText note) }

/-- A library that reads this file, whatever it takes the note for. -/
@[reducible] def notedLibrary (note : String) (v : Value) : Library :=
  { statusLibrary "1000" 1000 with
    loads := fun text =>
      if text = notedText note then some (.dict (status 1000 ++ [("note", v)])) else none }

/-- A codec that refuses the file, as `serde_json` does with each of the notes below. -/
@[reducible] def refusingCodec (note : String) : Codec :=
  { Json.textCodec with
    fromStr := fun text =>
      if text = notedText note then none else Json.textCodec.fromStr text }

/-- The stability tool accepts the file, and at the same instant the daemon cannot read it. -/
def RefusedAlone (note : String) (v : Value) : Prop :=
  letI := notedLibrary note v
  letI := refusingCodec note
  (checkHealth "balanced" (notedFiles note) (1000 : ℚ)).isOk = true ∧
    ¬ ((heartbeatIsFresh 7).exec (statusSys (notedFiles note) 1000)).1 = .ok true

/-- Arrays in each other. -/
def nestedText (n : ℕ) : String := .ofList (List.replicate n '[' ++ List.replicate n ']')

def nestedValue : ℕ → Value
  | 0 => .list []
  | n + 1 => .list [nestedValue n]

end

end CerynthOS.Tools
