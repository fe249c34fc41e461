import CerynthOS.Ipc.Profile
import CerynthOS.Schemes.JsonCodec

/-! The wire protocol between the daemon and its clients.

    Every type is written as a JSON value and read back from one the way its derived serialisation
    does it: a struct is an object with named fields or an array in field order, an enumeration is
    the name of a variant, and a tagged enumeration carries its variant's name as the member
    `type`. A frame is the text of such a value and a newline. -/

namespace CerynthOS.Ipc
open Json

/-! ### Derived serialisation -/

/-- The fields of a struct, by name from an object or by position from an array. -/
def structFields (denyUnknown : Bool) (names : List String) : Value → Option (List (Option Value))
  | .obj members =>
    if (denyUnknown && members.any fun m => !names.contains m.1) ||
      names.any (fun name => 1 < members.countP fun m => m.1 == name) then none
    else some (names.map fun name => (members.find? fun m => m.1 == name).map (·.2))
  | .arr items =>
    if items.length ≤ names.length then some ((List.range names.length).map fun i => items[i]?)
    else none
  | _ => none

def readU32 : Value → Option UInt32
  | .posInt n => if n.toNat < 2 ^ 32 then some (.ofNat n.toNat) else none
  | _ => none

def readString : Value → Option String
  | .str s => some s
  | _ => none

/-- An optional string field: absent and null are both none. -/
def readOptString : Option Value → Option (Option String)
  | none => some none
  | some .null => some none
  | some (.str s) => some (some s)
  | some _ => none

/-- A boolean field with a default. -/
def readBoolDefault : Option Value → Option Bool
  | none => some false
  | some v => v.asBool

/-- The variant's name of an enumeration without fields. -/
def variantName : Value → Option String
  | .str name => some name
  | .obj [(name, .null)] => some name
  | _ => none

/-- The tag of a tagged enumeration and what stands beside it. -/
def tagged : Value → Option (String × Value)
  | .obj members =>
    match members.filter fun m => m.1 == "type" with
    | [(_, .str tag)] => some (tag, .obj (members.filter fun m => m.1 != "type"))
    | _ => none
  | .arr (.str tag :: items) => some (tag, .arr items)
  | _ => none

/-- What may stand beside the tag of a variant without fields. -/
def noFields : Value → Bool
  | .obj _ => true
  | .arr [] => true
  | _ => false

/-- The one field of a variant. -/
def oneField (name : String) (content : Value) : Option Value :=
  match structFields false [name] content with
  | some [some v] => some v
  | _ => none

/-! ### Profiles and backends -/

def Profile.toValue (p : Profile) : Value := .str (toString p)

def Profile.ofName : String → Option Profile
  | "balanced" => some .balanced
  | "interactive" => some .interactive
  | "performance" => some .performance
  | "background" => some .background
  | _ => none

def Profile.ofValue (v : Value) : Option Profile := (variantName v).bind ofName

/-- The scheduler backend implementation in use. -/
inductive SchedulerBackend where
  | mock | scx
  deriving DecidableEq, Repr

instance : ToString SchedulerBackend where
  toString
    | .mock => "mock"
    | .scx => "scx"

def SchedulerBackend.toValue (b : SchedulerBackend) : Value := .str (toString b)

def SchedulerBackend.ofName : String → Option SchedulerBackend
  | "mock" => some .mock
  | "scx" => some .scx
  | _ => none

def SchedulerBackend.ofValue (v : Value) : Option SchedulerBackend := (variantName v).bind ofName

/-- Status information returned by the daemon. -/
structure SchedulerStatus where
  profile : Profile
  adaptationEnabled : Bool
  backend : SchedulerBackend
  running : Bool
  schedExtState : Option String
  heartbeatOk : Bool
  deriving DecidableEq

def optString : Option String → Value
  | none => .null
  | some s => .str s

namespace SchedulerStatus

def fieldNames : List String :=
  ["profile", "adaptation_enabled", "backend", "running", "sched_ext_state", "heartbeat_ok"]

def toValue (s : SchedulerStatus) : Value := .obj [
  ("profile", s.profile.toValue),
  ("adaptation_enabled", .bool s.adaptationEnabled),
  ("backend", s.backend.toValue),
  ("running", .bool s.running),
  ("sched_ext_state", optString s.schedExtState),
  ("heartbeat_ok", .bool s.heartbeatOk)]

def ofValue (v : Value) : Option SchedulerStatus :=
  match structFields false fieldNames v with
  | some [some p, some a, some b, r, x, h] => do
    return {
      profile := ← Profile.ofValue p
      adaptationEnabled := ← a.asBool
      backend := ← SchedulerBackend.ofValue b
      running := ← readBoolDefault r
      schedExtState := ← readOptString x
      heartbeatOk := ← readBoolDefault h }
  | _ => none

end SchedulerStatus

/-! ### Requests -/

/-- The operations the daemon can perform. -/
inductive Request where
  | status
  | getProfile
  | setProfile (profile : Profile)
  | pauseAdaptation
  | resumeAdaptation
  | start
  | stop
  | restart
  deriving DecidableEq

/-- Request messages sent over the socket. -/
inductive SocketRequest where
  | status
  | getProfile
  | setProfile (profile : Profile)
  | pauseAdaptation
  | resumeAdaptation
  | start
  | stop
  | restart
  | shutdown
  | ping
  deriving DecidableEq

namespace SocketRequest

/-- `From<SocketRequest> for Request`. -/
def toRequest : SocketRequest → Request
  | status => .status
  | getProfile => .getProfile
  | setProfile profile => .setProfile profile
  | pauseAdaptation => .pauseAdaptation
  | resumeAdaptation => .resumeAdaptation
  | start => .start
  | stop => .stop
  | restart => .restart
  | shutdown | ping => .status

def commandName : SocketRequest → String
  | status => "status"
  | getProfile => "get-profile"
  | setProfile _ => "set-profile"
  | pauseAdaptation => "pause-adaptation"
  | resumeAdaptation => "resume-adaptation"
  | start => "start"
  | stop => "stop"
  | restart => "restart"
  | shutdown => "shutdown"
  | ping => "ping"

def toValue (r : SocketRequest) : Value :=
  match r with
  | setProfile profile => .obj [("type", .str r.commandName), ("profile", profile.toValue)]
  | _ => .obj [("type", .str r.commandName)]

def ofValue (v : Value) : Option SocketRequest :=
  match tagged v with
  | none => none
  | some (tag, content) =>
    let unit (r : SocketRequest) := if noFields content then some r else none
    match tag with
    | "status" => unit status
    | "get-profile" => unit getProfile
    | "set-profile" => (oneField "profile" content).bind fun p => (Profile.ofValue p).map setProfile
    | "pause-adaptation" => unit pauseAdaptation
    | "resume-adaptation" => unit resumeAdaptation
    | "start" => unit start
    | "stop" => unit stop
    | "restart" => unit restart
    | "shutdown" => unit shutdown
    | "ping" => unit ping
    | _ => none

end SocketRequest

/-! ### Responses -/

/-- The logical results returned by the daemon. -/
inductive Response where
  | status (status : SchedulerStatus)
  | profile (profile : Profile)
  | success
  | error (message : String)
  deriving DecidableEq

/-- Response messages sent over the socket. -/
inductive SocketResponse where
  | status (status : SchedulerStatus)
  | profile (profile : Profile)
  | success
  | error (message : String)
  | pong
  deriving DecidableEq

/-- `From<Response> for SocketResponse`. -/
def SocketResponse.ofResponse : Response → SocketResponse
  | .status s => .status s
  | .profile p => .profile p
  | .success => .success
  | .error message => .error message

namespace SocketResponse

def toValue : SocketResponse → Value
  | status s => .obj [("type", .str "status"), ("status", s.toValue)]
  | profile p => .obj [("type", .str "profile"), ("profile", p.toValue)]
  | success => .obj [("type", .str "success")]
  | error message => .obj [("type", .str "error"), ("message", .str message)]
  | pong => .obj [("type", .str "pong")]

def ofValue (v : Value) : Option SocketResponse :=
  match tagged v with
  | none => none
  | some (tag, content) =>
    match tag with
    | "status" =>
      (oneField "status" content).bind fun s => (SchedulerStatus.ofValue s).map status
    | "profile" => (oneField "profile" content).bind fun p => (Profile.ofValue p).map profile
    | "success" => if noFields content then some success else none
    | "error" => (oneField "message" content).bind fun m => (readString m).map error
    | "pong" => if noFields content then some pong else none
    | _ => none

end SocketResponse

/-! ### Envelopes -/

def protocolVersion : UInt32 := 2

def minProtocolVersion : UInt32 := 1

def maxMessageSize : ℕ := 64 * 1024

structure RequestEnvelope where
  version : UInt32
  correlationId : Option String
  request : SocketRequest
  deriving DecidableEq

structure ResponseEnvelope where
  version : UInt32
  correlationId : Option String
  response : SocketResponse
  deriving DecidableEq

/-- An unsupported protocol version. -/
structure VersionError where
  requested : UInt32
  minSupported : UInt32
  maxSupported : UInt32
  deriving DecidableEq

/-- The correlation id, which is left out when there is none. -/
def correlation : Option String → List (String × Value)
  | none => []
  | some id => [("correlation_id", .str id)]

def writeU32 (n : UInt32) : Value := .posInt n.toUInt64

namespace RequestEnvelope

/-- `validate_version`. -/
def validateVersion (e : RequestEnvelope) : Except VersionError Unit :=
  if e.version < minProtocolVersion ∨ e.version > protocolVersion then
    .error {
      requested := e.version
      minSupported := minProtocolVersion
      maxSupported := protocolVersion }
  else .ok ()

def toValue (e : RequestEnvelope) : Value :=
  .obj (("version", writeU32 e.version) :: correlation e.correlationId ++
    [("request", e.request.toValue)])

def ofValue (v : Value) : Option RequestEnvelope :=
  match structFields true ["version", "correlation_id", "request"] v with
  | some [some n, id, some r] => do
    return {
      version := ← readU32 n
      correlationId := ← readOptString id
      request := ← SocketRequest.ofValue r }
  | _ => none

end RequestEnvelope

namespace ResponseEnvelope

/-- `for_request`. -/
def forRequest (request : RequestEnvelope) (response : SocketResponse) : ResponseEnvelope where
  version := protocolVersion
  correlationId := request.correlationId
  response := response

def toValue (e : ResponseEnvelope) : Value :=
  .obj (("version", writeU32 e.version) :: correlation e.correlationId ++
    [("response", e.response.toValue)])

def ofValue (v : Value) : Option ResponseEnvelope :=
  match structFields true ["version", "correlation_id", "response"] v with
  | some [some n, id, some r] => do
    return {
      version := ← readU32 n
      correlationId := ← readOptString id
      response := ← SocketResponse.ofValue r }
  | _ => none

end ResponseEnvelope

/-! ### Values read back -/

@[simp] theorem Profile.ofValue_toValue (p : Profile) : Profile.ofValue p.toValue = some p := by
  cases p <;> rfl

@[simp] theorem SchedulerBackend.ofValue_toValue (b : SchedulerBackend) :
    SchedulerBackend.ofValue b.toValue = some b := by
  cases b <;> rfl

@[simp] theorem readOptString_optString (s : Option String) :
    readOptString (some (optString s)) = some s := by
  cases s <;> rfl

@[simp] theorem readU32_writeU32 (n : UInt32) : readU32 (writeU32 n) = some n := by
  have h : n.toUInt64.toNat = n.toNat := n.toNat_toUInt64
  rw [writeU32, readU32, h, if_pos n.toNat_lt, UInt32.ofNat_toNat]

/-- Each name in its order finds the value at its place. -/
theorem find_zip {names : List String} (hn : names.Nodup) {values : List Value}
    (hl : values.length ≤ names.length) :
    names.map (fun name => ((names.zip values).find? fun m => m.1 == name).map (·.2)) =
      values.map some ++ List.replicate (names.length - values.length) none := by
  induction names generalizing values with
  | nil =>
    obtain rfl := List.length_eq_zero_iff.mp (Nat.le_zero.mp hl)
    rfl
  | cons name names ih =>
    obtain ⟨hhead, hn⟩ := List.nodup_cons.mp hn
    cases values with
    | nil => simp [List.replicate_succ]
    | cons value values =>
      have hrest := ih hn (Nat.le_of_succ_le_succ hl)
      have hskip : ∀ other ∈ names, ((((name, value) :: names.zip values).find?
          fun m => m.1 == other).map (·.2)) =
          ((names.zip values).find? fun m => m.1 == other).map (·.2) := by
        intro other ho
        have hne : name ≠ other := fun h => hhead (h ▸ ho)
        rw [List.find?_cons_of_neg (by simpa using hne)]
      rw [List.zip_cons_cons, List.map_cons, List.map_congr_left hskip, hrest]
      simp

/-- No name is there twice. -/
theorem countP_zip {names : List String} (hn : names.Nodup) (values : List Value) (name : String) :
    (names.zip values).countP (fun m => m.1 == name) ≤ 1 := by
  have hsub : ((names.zip values).map Prod.fst).Sublist names := by
    rw [List.zip_eq_zip_take_min, List.map_fst_zip (by simp)]
    exact List.take_sublist _ _
  have := List.nodup_iff_count_le_one.mp (hn.sublist hsub) name
  rwa [List.count, List.countP_map] at this

/-- An object that has the first of the names in their order has these fields. -/
theorem structFields_zip {names : List String} (hn : names.Nodup) {values : List Value}
    (hl : values.length ≤ names.length) :
    structFields false names (.obj (names.zip values)) =
      some (values.map some ++ List.replicate (names.length - values.length) none) := by
  have hone : ∀ name, ¬ 1 < (names.zip values).countP fun m => m.1 == name :=
    fun name => Nat.not_lt.mpr (countP_zip hn values name)
  simp [structFields, hone, find_zip hn hl]

theorem SchedulerStatus.ofValue_toValue (s : SchedulerStatus) :
    SchedulerStatus.ofValue s.toValue = some s := by
  simp [SchedulerStatus.toValue, SchedulerStatus.ofValue, structFields, fieldNames, Value.asBool,
    readBoolDefault]

@[simp] theorem SocketRequest.ofValue_toValue (r : SocketRequest) :
    SocketRequest.ofValue r.toValue = some r := by
  cases r with
  | setProfile p =>
    simp [SocketRequest.toValue, SocketRequest.ofValue, commandName, tagged, oneField, structFields]
  | _ => rfl

theorem RequestEnvelope.ofValue_toValue (e : RequestEnvelope) :
    RequestEnvelope.ofValue e.toValue = some e := by
  obtain ⟨version, correlationId, request⟩ := e
  cases correlationId <;>
    simp [RequestEnvelope.toValue, RequestEnvelope.ofValue, structFields, correlation,
      readOptString]

/-- A request envelope is shallow and has whole numbers only. -/
theorem RequestEnvelope.plain_toValue (e : RequestEnvelope) : e.toValue.plain := by
  obtain ⟨version, correlationId, request⟩ := e
  have hr : request.toValue.whole = true ∧ request.toValue.depth ≤ 1 := by
    cases request with
    | setProfile p => cases p <;> decide
    | _ => decide
  cases correlationId <;>
    simp [RequestEnvelope.toValue, Value.plain, correlation, writeU32, Value.whole,
      Value.membersWhole, Value.depth, Value.membersDepth, recursionLimit, hr.1] <;> omega

/-! ### Frames -/

section Frames
variable [Codec]

/-- `slice::strip_suffix`. -/
def stripSuffix (suffix line : List UInt8) : Option (List UInt8) :=
  if suffix <:+ line then some (line.take (line.length - suffix.length)) else none

/-- `to_line` of what is written as this value. -/
def toLine (v : Value) : List UInt8 := Codec.toVec v ++ [10]

/-- What `from_line` parses: the line without its newline. -/
def trimLine (line : List UInt8) : List UInt8 :=
  ((stripSuffix [10] line).or (stripSuffix [13, 10] line)).getD line

/-- `from_line`, for a type that is read from a value. -/
def fromLine {α : Type} (ofValue : Value → Option α) (line : List UInt8) : Option α :=
  (Codec.fromSlice (trimLine line)).bind ofValue

end Frames

end CerynthOS.Ipc
