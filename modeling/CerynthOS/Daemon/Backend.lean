import CerynthOS.Daemon.State

/-! Scheduler backends, the mock backend and the request handler.

    `serve` is what happens to a request while the backend is locked: it is handled, and the state
    the backend then reports is saved. -/

namespace CerynthOS.Daemon
open Ipc Json

/-- What every scheduler backend implements. -/
class Backend (B : Type) where
  status : Op B SchedulerStatus
  getProfile : B → Except String Profile
  setProfile : Profile → Op B Unit
  pauseAdaptation : Op B Unit
  resumeAdaptation : Op B Unit
  start : Op B Unit
  stop : Op B Unit
  restart : Op B Unit

/-- Changes the fields of the backend. -/
def update {B : Type} (f : B → B) : Op B Unit := modify fun s => { s with backend := f s.backend }

/-! ### The mock backend -/

structure MockBackend where
  state : DaemonState
  deriving DecidableEq

def MockBackend.new (state : DaemonState) : MockBackend where
  state := state

instance : Backend MockBackend where
  status := do
    let state := (← get).backend.state
    return {
      profile := state.profile
      adaptationEnabled := state.adaptationEnabled
      backend := state.schedulerBackend
      running := true
      schedExtState := none
      heartbeatOk := false }
  getProfile b := .ok b.state.profile
  setProfile profile := update fun b => { b with state := { b.state with profile } }
  pauseAdaptation := update fun b => { b with state := { b.state with adaptationEnabled := false } }
  resumeAdaptation := update fun b => { b with state := { b.state with adaptationEnabled := true } }
  start := pure ()
  stop := pure ()
  restart := pure ()

/-! ### Requests -/

section
variable {B : Type} [Backend B]

/-- The response of a call, which reports its error. -/
def answer {α : Type} (response : α → Response) : Except String α × Sys B → Response × Sys B
  | (.ok a, s) => (response a, s)
  | (.error e, s) => (.error e, s)

omit [Backend B] in
theorem answer_snd {α : Type} (response : α → Response) (r : Except String α × Sys B) :
    (answer response r).2 = r.2 := by
  rcases r with ⟨_ | _, s⟩ <;> rfl

def handleRequest (request : Request) (s : Sys B) : Response × Sys B :=
  let done := fun (_ : Unit) => Response.success
  match request with
  | .status => answer .status (Backend.status.exec s)
  | .getProfile => answer .profile (Backend.getProfile s.backend, s)
  | .setProfile profile => answer done ((Backend.setProfile profile).exec s)
  | .pauseAdaptation => answer done (Backend.pauseAdaptation.exec s)
  | .resumeAdaptation => answer done (Backend.resumeAdaptation.exec s)
  | .start => answer done (Backend.start.exec s)
  | .stop => answer done (Backend.stop.exec s)
  | .restart => answer done (Backend.restart.exec s)

variable [Codec]

/-- What is saved of the backend's status. -/
def runtimeState (status : SchedulerStatus) : RuntimeState where
  profile := status.profile
  adaptationEnabled := status.adaptationEnabled
  schedulerBackend := status.backend

/-- Saves what the backend reports. -/
def persist (s : Sys B) : Sys B :=
  match Backend.status.exec s with
  | (.ok status, s) => ((runtimeState status).save.exec s).2
  | (.error _, s) => s

/-- What is saved is the status. -/
theorem persist_ok {s s' : Sys B} {status : SchedulerStatus}
    (h : Backend.status.exec s = (.ok status, s')) :
    (persist s).backend = s'.backend ∧ ∃ result,
      (persist s).world.log = s'.world.log ++ [.save (runtimeState status).text result] ∧
      (result = .done → (persist s).world.stateFile = some (runtimeState status).text) ∧
      result = (s'.world.moves s'.world.calls).saved := by
  have hsave := Prog.triple_iff.mp (RuntimeState.save_spec s' (runtimeState status)) s' rfl
  rw [persist, h]
  dsimp only
  rcases hr : (runtimeState status).save.exec s' with ⟨_ | _, s''⟩
  · exact (hsave.error hr).elim
  · obtain ⟨result, hb, hsaved⟩ := hsave.ok hr
    exact ⟨hb, result, hsaved⟩

theorem persist_error {s s' : Sys B} {e : String} (h : Backend.status.exec s = (.error e, s')) :
    persist s = s' := by rw [persist, h]

/-- A request while the backend is locked. -/
def serve (request : Request) (s : Sys B) : Response × Sys B :=
  let (response, s) := handleRequest request s
  (response, persist s)

end

end CerynthOS.Daemon
