import CerynthOS.Daemon.Os
import CerynthOS.Ipc.Protocol

/-! The state of the daemon that survives a restart, and the live state it starts from. -/

open Std.Do

set_option mvcgen.warning false

namespace CerynthOS.Daemon
open Ipc Json

/-- Runtime state persisted by the daemon. -/
structure RuntimeState where
  profile : Profile
  adaptationEnabled : Bool
  schedulerBackend : SchedulerBackend
  deriving DecidableEq

/-- In-memory state owned by the daemon. -/
structure DaemonState where
  profile : Profile
  adaptationEnabled : Bool
  schedulerBackend : SchedulerBackend
  deriving DecidableEq

/-- `From<RuntimeState> for DaemonState`. -/
def DaemonState.ofRuntimeState (state : RuntimeState) : DaemonState where
  profile := state.profile
  adaptationEnabled := state.adaptationEnabled
  schedulerBackend := state.schedulerBackend

namespace RuntimeState

def default : RuntimeState where
  profile := .balanced
  adaptationEnabled := false
  schedulerBackend := .mock

def fieldNames : List String := ["profile", "adaptation_enabled", "scheduler_backend"]

def toValue (state : RuntimeState) : Value := .obj [
  ("profile", state.profile.toValue),
  ("adaptation_enabled", .bool state.adaptationEnabled),
  ("scheduler_backend", state.schedulerBackend.toValue)]

def ofValue (v : Value) : Option RuntimeState :=
  match structFields false fieldNames v with
  | some [some p, some a, some b] => do
    return {
      profile := ← Profile.ofValue p
      adaptationEnabled := ← a.asBool
      schedulerBackend := ← SchedulerBackend.ofValue b }
  | _ => none

theorem ofValue_toValue (state : RuntimeState) : ofValue state.toValue = some state := by
  simp [toValue, ofValue, structFields, fieldNames, Value.asBool]

theorem plain_toValue (state : RuntimeState) : state.toValue.plain := by
  obtain ⟨profile, adaptation, backend⟩ := state
  cases profile <;> cases adaptation <;> cases backend <;> decide

variable [Codec]

/-- The text of the state file. -/
def text (state : RuntimeState) : String := Codec.toStringPretty state.toValue

/-- `RuntimeState::load` from what the state file holds, if it exists. -/
def load : Option String → RuntimeState
  | none => default
  | some contents => ((Codec.fromStr contents).bind ofValue).getD default

/-- `RuntimeState::save`: a failure is only printed. -/
def save {B : Type} (state : RuntimeState) : Op B Unit := do
  let _ ← writeState state.text

@[spec] theorem save_spec {B : Type} (s₀ : Sys B) (state : RuntimeState) :
    ⦃fun s => ⌜s = s₀⌝⦄ state.save
    ⦃post⟨fun _ s => ⌜∃ result, s.backend = s₀.backend ∧
        s.world.log = s₀.world.log ++ [.save state.text result] ∧
        (result = .done → s.world.stateFile = some state.text) ∧
        result = (s₀.world.moves s₀.world.calls).saved⌝,
      fun _ _ => ⌜False⌝⟩⦄ := by
  mvcgen [save]
  grind

/-- What was saved is loaded. -/
theorem load_text [LawfulCodec] (state : RuntimeState) : load (some state.text) = state := by
  rw [load, text, LawfulCodec.fromStr_toStringPretty _ state.plain_toValue, Option.bind_some,
    ofValue_toValue, Option.getD_some]

end RuntimeState

end CerynthOS.Daemon
