import CerynthOS.Daemon.Scx

/-! What the daemon starts with.

    The configuration and the persisted state are loaded separately, and each has defaults of its
    own. The backend is built from the persisted state alone; the configuration only chooses which
    backend it is. -/

namespace CerynthOS.Daemon
open Ipc Json

/-- What is found at the path of a file. -/
inductive Found where
  | missing
  | unreadable
  | text (contents : String)
  deriving DecidableEq

/-! ### The configuration -/

def defaultSchedulerBinary : String := "/usr/lib/cerynth/cerynth-scx"

/-- Persistent configuration. -/
structure Config where
  defaultProfile : Profile
  adaptationEnabled : Bool
  schedulerBackend : SchedulerBackend
  schedulerBinary : String
  autoStart : Bool
  deriving DecidableEq

namespace Config

def default : Config where
  defaultProfile := .balanced
  adaptationEnabled := false
  schedulerBackend := .mock
  schedulerBinary := defaultSchedulerBinary
  autoStart := true

/-- `Config::load`, with the parser of the configuration's format. -/
def load (fromStr : String → Option Config) : Found → Config
  | .missing | .unreadable => default
  | .text contents => (fromStr contents).getD default

end Config

/-! ### The backend -/

/-- The backend the daemon serves. -/
inductive SharedBackend where
  | mock (backend : MockBackend)
  | scx (backend : ScxBackend)
  deriving DecidableEq

section
variable [Codec]

namespace SharedBackend

def profile : SharedBackend → Except String Profile
  | mock b => Backend.getProfile b
  | scx b => Backend.getProfile b

def adaptationEnabled : SharedBackend → Bool
  | mock b => b.state.adaptationEnabled
  | scx b => b.adaptationEnabled

end SharedBackend

/-- `RuntimeState::load`: a file that cannot be read is taken as empty. -/
def RuntimeState.loadFile : Found → RuntimeState
  | .missing => load none
  | .unreadable => load (some "")
  | .text contents => load (some contents)

/-- The backend that `main` builds. `binary` is the variable that overrides the scheduler binary of
    the configuration. -/
def startup (fromStr : String → Option Config) (config state : Found) (binary : Option String) :
    SharedBackend :=
  let config := Config.load fromStr config
  let daemonState := DaemonState.ofRuntimeState (RuntimeState.loadFile state)
  let schedulerBinary := binary.getD config.schedulerBinary
  match config.schedulerBackend with
  | .mock => .mock (MockBackend.new daemonState)
  | .scx => .scx ((ScxBackend.new schedulerBinary daemonState.profile).withAdaptation
      daemonState.adaptationEnabled)

/-! ### Profile and adaptation flag -/

/-- The state in the state file, if there is one that can be read. -/
def persisted : Found → Option RuntimeState
  | .text contents => (Codec.fromStr contents).bind RuntimeState.ofValue
  | _ => none

/-- The backend has the profile and the adaptation flag of the persisted state or, without one, of
    the configuration. -/
def Resolved (config : Config) (state : Found) (backend : SharedBackend) : Prop :=
  match persisted state with
  | some s => backend.profile = .ok s.profile ∧ backend.adaptationEnabled = s.adaptationEnabled
  | none =>
    backend.profile = .ok config.defaultProfile ∧
      backend.adaptationEnabled = config.adaptationEnabled

theorem persisted_text [LawfulCodec] (state : RuntimeState) :
    persisted (.text state.text) = some state := by
  rw [persisted, RuntimeState.text, LawfulCodec.fromStr_toStringPretty _ state.plain_toValue,
    Option.bind_some, RuntimeState.ofValue_toValue]

/-- What is loaded is what is persisted, or else the built-in default. -/
theorem loadFile_eq (hempty : Codec.fromStr "" = none) (state : Found) :
    RuntimeState.loadFile state = (persisted state).getD .default := by
  cases state with
  | missing => rfl
  | unreadable =>
    rw [RuntimeState.loadFile, RuntimeState.load, hempty]
    rfl
  | text contents => rfl

theorem startup_settings (fromStr : String → Option Config) (config state : Found)
    (binary : Option String) :
    (startup fromStr config state binary).profile = .ok (RuntimeState.loadFile state).profile ∧
      (startup fromStr config state binary).adaptationEnabled =
        (RuntimeState.loadFile state).adaptationEnabled := by
  rw [startup]
  cases (Config.load fromStr config).schedulerBackend <;> exact ⟨rfl, rfl⟩

/-- The daemon starts with what is persisted, or else with the configuration, exactly when there is
    something persisted or the configuration says what the built-in default says. -/
theorem resolved_iff (hempty : Codec.fromStr "" = none) (fromStr : String → Option Config)
    (contents : String) (config : Config) (hconfig : fromStr contents = some config) (state : Found)
    (binary : Option String) :
    Resolved (Config.load fromStr (.text contents)) state
        (startup fromStr (.text contents) state binary) ↔
      (persisted state).isSome ∨
        config.defaultProfile = .balanced ∧ config.adaptationEnabled = false := by
  have hload : Config.load fromStr (.text contents) = config := by
    rw [Config.load, hconfig, Option.getD_some]
  obtain ⟨hprofile, hadaptation⟩ := startup_settings fromStr (.text contents) state binary
  rw [loadFile_eq hempty] at hprofile hadaptation
  rw [Resolved, hload, hprofile, hadaptation]
  cases persisted state with
  | some s => exact iff_of_true ⟨rfl, rfl⟩ (.inl rfl)
  | none =>
    change Except.ok Profile.balanced = Except.ok config.defaultProfile ∧
      false = config.adaptationEnabled ↔ _
    rw [Except.ok.injEq, eq_comm, eq_comm (b := config.adaptationEnabled)]
    simp

end

section Example
local instance startupCodec : Codec := textCodec

/-- A configuration that asks for another profile than the built-in one. -/
def performanceToml : String :=
  "default_profile = \"performance\"\nadaptation_enabled = true\nscheduler_backend = \"scx\"\n"

def performanceConfig : Config where
  defaultProfile := .performance
  adaptationEnabled := true
  schedulerBackend := .scx
  schedulerBinary := defaultSchedulerBinary
  autoStart := true

/-- What the parser of the configuration's format makes of that text. -/
def performanceFromStr (contents : String) : Option Config :=
  if contents = performanceToml then some performanceConfig else none

theorem performanceFromStr_toml : performanceFromStr performanceToml = some performanceConfig := by
  simp only [performanceFromStr, if_true]

theorem resolved_persisted :
    Resolved (Config.load performanceFromStr (.text performanceToml))
      (.text (RuntimeState.mk .interactive false .scx).text)
      (startup performanceFromStr (.text performanceToml)
        (.text (RuntimeState.mk .interactive false .scx).text) none) := by
  have hsome : (persisted (.text (RuntimeState.mk .interactive false .scx).text)).isSome = true :=
    congrArg Option.isSome (@persisted_text textCodec textCodec_lawful ⟨.interactive, false, .scx⟩)
  rw [resolved_iff (by decide +kernel) performanceFromStr performanceToml performanceConfig
    performanceFromStr_toml]
  exact .inl hsome

/-- Without a state file the daemon starts with the built-in profile, not the configured one. -/
theorem default_ignored : ¬ ∀ (fromStr : String → Option Config) (contents : String)
    (config : Config) (state : Found) (binary : Option String), fromStr contents = some config →
    Resolved (Config.load fromStr (.text contents)) state
      (startup fromStr (.text contents) state binary) := by
  intro h
  have hr := (h performanceFromStr performanceToml performanceConfig .missing none
    performanceFromStr_toml).1
  rw [(startup_settings _ _ _ _).1, Config.load, performanceFromStr_toml] at hr
  exact absurd hr (by decide)

end Example

end CerynthOS.Daemon
