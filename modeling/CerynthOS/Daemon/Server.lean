import CerynthOS.Daemon.Connection
import CerynthOS.Daemon.Gate
import CerynthOS.Schemes.Mutex

/-! Concurrent connections that share one backend.

    Every connection is a task. It holds the lock while its request is handled and the state is
    saved, so each interleaving serves the requests one after another, and the state file is as new
    as the backend whenever the lock is free. -/

open Std.Do

namespace CerynthOS.Daemon
open Ipc Json

/-- What a connection has in hand while it waits for the lock and holds it. -/
structure Task where
  envelope : RequestEnvelope
  response : Option Response
  deriving DecidableEq

namespace Server

section Server
variable {ι B : Type} [Backend B] [Codec]

/-- The request is handled. -/
def handle (x : Task × Sys B) : Task × Sys B :=
  let (response, s) := handleRequest x.1.envelope.request.toRequest x.2
  ({ x.1 with response := some response }, s)

/-- The state is saved. -/
def save (x : Task × Sys B) : Task × Sys B := (x.1, persist x.2)

/-- What a connection does while it holds the lock. -/
def body : Mutex.Body (Sys B) Task := [handle, save]

/-- The connections and the backend they share. -/
abbrev State (ι B : Type) := Mutex.State ι (Sys B) Task

/-- What a connection waits for the lock with, if it has read a supported request. -/
def input (streams : ι → List (List UInt8)) (i : ι) : Option Task :=
  (receive (read maxMessageSize (streams i))).map fun envelope => ⟨envelope, none⟩

/-- The connections take steps in this order. -/
def run [DecidableEq ι] (streams : ι → List (List UInt8)) (s₀ : Sys B) (schedule : List ι) :
    State ι B :=
  Mutex.run (input streams) body schedule (Mutex.init s₀)

/-- What a connection writes after it has released the lock. -/
def written (t : State ι B) (i : ι) : Option (List UInt8) :=
  match t.phase i with
  | .done task => task.response.map (reply task.envelope)
  | _ => none

/-- The envelopes in the order in which the lock was acquired, with their connections. -/
def order (t : State ι B) : List (ι × RequestEnvelope) := t.order.map fun x => (x.1, x.2.envelope)

/-- The backend after these requests, one after another. -/
def sequential (envelopes : List (ι × RequestEnvelope)) (s : Sys B) : Sys B :=
  envelopes.foldl (fun s x => (serve x.2.request.toRequest s).2) s

/-- The backend after these requests, when nothing is saved. -/
def handled (envelopes : List (ι × RequestEnvelope)) (s : Sys B) : Sys B :=
  envelopes.foldl (fun s x => (handleRequest x.2.request.toRequest s).2) s

/-! ### One sequential order -/

/-- The connections are served one after another, in the order in which they acquired the lock. -/
structure Linear (streams : ι → List (List UInt8)) (s₀ : Sys B) (t : State ι B) : Prop where
  nodup : ((order t).map (·.1)).Nodup
  received : ∀ x ∈ order t, receive (read maxMessageSize (streams x.1)) = some x.2
  answered : ∀ i bytes, written t i = some bytes → ∃ before envelope after,
    order t = before ++ (i, envelope) :: after ∧
    bytes = reply envelope (serve envelope.request.toRequest (sequential before s₀)).1
  final : t.holder = none → t.shared = sequential (order t) s₀

theorem exec_body (envelope : RequestEnvelope) (s : Sys B) :
    Mutex.exec body (⟨envelope, none⟩, s) =
      (⟨envelope, some (serve envelope.request.toRequest s).1⟩,
        (serve envelope.request.toRequest s).2) := rfl

theorem serial_eq {l : List (ι × Task)} (h : ∀ x ∈ l, x.2.response = none) (s : Sys B) :
    Mutex.serial body l s = sequential (l.map fun x => (x.1, x.2.envelope)) s := by
  induction l generalizing s with
  | nil => rfl
  | cons x l ih =>
    obtain ⟨i, envelope, response⟩ := x
    obtain rfl : response = none := h _ List.mem_cons_self
    exact ih (fun y hy => h y (List.mem_cons_of_mem _ hy)) _

theorem input_some {streams : ι → List (List UInt8)} {i : ι} {task : Task}
    (h : input streams i = some task) :
    receive (read maxMessageSize (streams i)) = some task.envelope ∧ task.response = none := by
  obtain ⟨envelope, he, rfl⟩ := Option.map_eq_some_iff.mp h
  exact ⟨he, rfl⟩

theorem linear_run [DecidableEq ι] (streams : ι → List (List UInt8)) (s₀ : Sys B)
    (schedule : List ι) : Linear streams s₀ (run streams s₀ schedule) := by
  have hinv := Mutex.inv_run schedule (Mutex.inv_init s₀ : Mutex.Inv (input streams) body _ _)
  change Mutex.Inv _ _ _ (run streams s₀ schedule) at hinv
  generalize run streams s₀ schedule = t at hinv
  have hnone {x : ι × Task} (hx : x ∈ t.order) : x.2.response = none :=
    (input_some (hinv.asked x hx)).2
  refine ⟨?_, ?_, ?_, ?_⟩
  · rw [order, List.map_map]
    exact hinv.nodup
  · intro x hx
    obtain ⟨y, hy, rfl⟩ := List.mem_map.mp hx
    exact (input_some (hinv.asked y hy)).1
  · intro i bytes hbytes
    have hi := hinv.known i
    rw [written] at hbytes
    split at hbytes
    case h_1 task hp =>
      rw [hp] at hi
      obtain ⟨before, ⟨envelope, response⟩, after, horder, hdata⟩ := hi
      have hmem {x : ι × Task} (hx : x ∈ before) : x ∈ t.order :=
        horder ▸ List.mem_append_left _ hx
      obtain rfl : response = none :=
        hnone (x := (i, ⟨envelope, response⟩)) (horder ▸ List.mem_append_right _ List.mem_cons_self)
      rw [serial_eq fun x hx => hnone (hmem hx), exec_body] at hdata
      refine ⟨before.map fun x => (x.1, x.2.envelope), envelope,
        after.map fun x => (x.1, x.2.envelope), ?_, ?_⟩
      · rw [order, horder, List.map_append, List.map_cons]
      · rw [hdata] at hbytes
        exact (Option.some.inj hbytes).symm
    case h_2 => cases hbytes
  · intro hfree
    rw [hinv.free hfree, serial_eq fun x hx => hnone hx]
    rfl

/-! ### The state file -/

/-- A backend's settings: what its status reports, what the daemon builds it from, and that
    reading the status does not change them. -/
structure Settings (B : Type) [Backend B] where
  profile : B → Profile
  adaptationEnabled : B → Bool
  build : DaemonState → B
  build_profile : ∀ state, profile (build state) = state.profile
  build_adaptation : ∀ state, adaptationEnabled (build state) = state.adaptationEnabled
  getProfile_eq : ∀ b, Backend.getProfile b = .ok (profile b)
  status_profile : ∀ {s s' : Sys B} {status}, Backend.status.exec s = (.ok status, s') →
    status.profile = profile s.backend ∧ profile s'.backend = profile s.backend
  status_adaptation : ∀ {s s' : Sys B} {status}, Backend.status.exec s = (.ok status, s') →
    status.adaptationEnabled = adaptationEnabled s.backend ∧
      adaptationEnabled s'.backend = adaptationEnabled s.backend

/-- The backend reports its status here, and then the state file is written. -/
def Saves (s : Sys B) : Prop :=
  ∃ status s', Backend.status.exec s = (.ok status, s') ∧
    (s'.world.moves s'.world.calls).saved = .done

/-- The state file holds what the backend reports, and a daemon that is started from it builds a
    backend that reports the same. -/
structure Durable (build : DaemonState → B) (s : Sys B) : Prop where
  saved : ∃ state : RuntimeState, s.world.stateFile = some state.text ∧
    Backend.getProfile s.backend = .ok state.profile ∧
    ∀ status s', Backend.status.exec s = (.ok status, s') →
      state.profile = status.profile ∧ state.adaptationEnabled = status.adaptationEnabled
  restarted :
    let b := build (.ofRuntimeState (RuntimeState.load s.world.stateFile))
    Backend.getProfile b = Backend.getProfile s.backend ∧
    ∀ status s', Backend.status.exec s = (.ok status, s') →
      ∀ w status' s'', Backend.status.exec ⟨b, w⟩ = (.ok status', s'') →
        status'.profile = status.profile ∧ status'.adaptationEnabled = status.adaptationEnabled

theorem durable_persist [LawfulCodec] (S : Settings B) {s : Sys B} (h : Saves s) :
    Durable S.build (persist s) := by
  obtain ⟨status, s', hstatus, hdone⟩ := h
  obtain ⟨hp, hp'⟩ := S.status_profile hstatus
  obtain ⟨ha, ha'⟩ := S.status_adaptation hstatus
  obtain ⟨hb, result, -, hfile, hresult⟩ := persist_ok hstatus
  have hfile := hfile (hresult.trans hdone)
  have hprofile : S.profile (persist s).backend = status.profile := by rw [hb, hp', hp]
  have hadaptation : S.adaptationEnabled (persist s).backend = status.adaptationEnabled := by
    rw [hb, ha', ha]
  have hload : RuntimeState.load (persist s).world.stateFile = runtimeState status := by
    rw [hfile, RuntimeState.load_text]
  let b := S.build (.ofRuntimeState (RuntimeState.load (persist s).world.stateFile))
  have hbuilt : S.profile b = status.profile ∧
      S.adaptationEnabled b = status.adaptationEnabled := by
    rw [S.build_profile, S.build_adaptation, hload]
    exact ⟨rfl, rfl⟩
  refine ⟨⟨runtimeState status, hfile, ?_, fun status' t h => ?_⟩, ?_,
    fun status' t h w v u h' => ?_⟩
  · exact (S.getProfile_eq _).trans (congrArg Except.ok hprofile)
  · exact ⟨hprofile.symm.trans (S.status_profile h).1.symm,
      hadaptation.symm.trans (S.status_adaptation h).1.symm⟩
  · rw [S.getProfile_eq, S.getProfile_eq, hprofile, hbuilt.1]
  · rw [(S.status_profile h).1, (S.status_profile h').1, (S.status_adaptation h).1,
      (S.status_adaptation h').1, hprofile, hadaptation]
    exact hbuilt

/-- `MockBackend` as the daemon builds it. -/
def mock : Settings MockBackend where
  profile b := b.state.profile
  adaptationEnabled b := b.state.adaptationEnabled
  build := MockBackend.new
  build_profile _ := rfl
  build_adaptation _ := rfl
  getProfile_eq _ := rfl
  status_profile h := by
    cases h
    exact ⟨rfl, rfl⟩
  status_adaptation h := by
    cases h
    exact ⟨rfl, rfl⟩

/-- `ScxBackend` as the daemon builds it. -/
def scx (schedulerBinary : String) : Settings ScxBackend where
  profile b := b.profile
  adaptationEnabled b := b.adaptationEnabled
  build state :=
    (ScxBackend.new schedulerBinary state.profile).withAdaptation state.adaptationEnabled
  build_profile _ := rfl
  build_adaptation _ := rfl
  getProfile_eq _ := rfl
  status_profile {s _ _} h := by
    obtain ⟨hr, hp, -⟩ := (Prog.triple_iff.mp (ScxBackend.status_spec s) s rfl).ok h
    exact ⟨hp, hr.profile⟩
  status_adaptation {s _ _} h := by
    obtain ⟨hr, -, ha, -⟩ := (Prog.triple_iff.mp (ScxBackend.status_spec s) s rfl).ok h
    exact ⟨ha, hr.adaptationEnabled⟩

/-- Saving has no part in the answers and in the backend that is left. -/
structure HandledAlone (s₀ : Sys B) (t : State ι B) : Prop where
  answers : ∀ before x after, order t = before ++ x :: after →
    (serve x.2.request.toRequest (sequential before s₀)).1 =
      (handleRequest x.2.request.toRequest (handled before s₀)).1
  final : t.holder = none → t.shared.backend = (handled (order t) s₀).backend

omit [Codec] in
/-- What `MockBackend` does with a request does not depend on the world. -/
theorem handleRequest_mock (request : Request) {s s' : Sys MockBackend}
    (h : s.backend = s'.backend) :
    (handleRequest request s).1 = (handleRequest request s').1 ∧
      (handleRequest request s).2.backend = (handleRequest request s').2.backend := by
  obtain ⟨b, w⟩ := s
  obtain ⟨b', w'⟩ := s'
  obtain rfl : b = b' := h
  cases request <;> exact ⟨rfl, rfl⟩

theorem persist_mock (s : Sys MockBackend) : (persist s).backend = s.backend := by
  let status : SchedulerStatus :=
    ⟨s.backend.state.profile, s.backend.state.adaptationEnabled, s.backend.state.schedulerBackend,
      true, none, false⟩
  have hstatus : Backend.status.exec s = (.ok status, s) := rfl
  exact (persist_ok hstatus).1

theorem sequential_mock (envelopes : List (ι × RequestEnvelope)) {s s' : Sys MockBackend}
    (h : s.backend = s'.backend) :
    (sequential envelopes s).backend = (handled envelopes s').backend := by
  induction envelopes generalizing s s' with
  | nil => exact h
  | cons x envelopes ih => exact ih ((persist_mock _).trans (handleRequest_mock _ h).2)

theorem Linear.handledAlone {streams : ι → List (List UInt8)} {s₀ : Sys MockBackend}
    {t : State ι MockBackend} (h : Linear streams s₀ t) : HandledAlone s₀ t where
  answers _ _ _ _ := (handleRequest_mock _ (sequential_mock _ rfl)).1
  final hfree := by rw [h.final hfree, sequential_mock _ rfl]

/-- When the lock is free and the last state could be saved, it is durable. -/
def DurableWhenFree (build : DaemonState → B) (s₀ : Sys B) (t : State ι B) : Prop :=
  t.holder = none → ∀ before x, order t = before ++ [x] →
    Saves (handleRequest x.2.request.toRequest (sequential before s₀)).2 → Durable build t.shared

theorem Linear.durable [LawfulCodec] {streams : ι → List (List UInt8)} {s₀ : Sys B}
    {t : State ι B} (h : Linear streams s₀ t) (S : Settings B) :
    DurableWhenFree S.build s₀ t := by
  intro hfree before x horder hsaves
  have hlast : sequential (order t) s₀ =
      persist (handleRequest x.2.request.toRequest (sequential before s₀)).2 := by
    rw [horder, sequential, List.foldl_append]
    rfl
  rw [h.final hfree, hlast]
  exact durable_persist S hsaves

/-- For every number of connections and every interleaving of them, with both backends: they are
    served one after another, in the order in which they acquired the lock, and when the lock is
    free the state file is as new as the backend. To serve a request is to handle it and then to
    read the status that is saved, which makes no difference to `MockBackend`. -/
theorem linearizable_durable [DecidableEq ι] [LawfulCodec] (streams : ι → List (List UInt8))
    (schedule : List ι) :
    (∀ s₀ : Sys MockBackend, Linear streams s₀ (run streams s₀ schedule) ∧
      HandledAlone s₀ (run streams s₀ schedule) ∧
      DurableWhenFree MockBackend.new s₀ (run streams s₀ schedule)) ∧
    ∀ (schedulerBinary : String) (s₀ : Sys ScxBackend),
      Linear streams s₀ (run streams s₀ schedule) ∧
      DurableWhenFree (fun state => (ScxBackend.new schedulerBinary state.profile).withAdaptation
        state.adaptationEnabled) s₀ (run streams s₀ schedule) := by
  refine ⟨fun s₀ => ?_, fun schedulerBinary s₀ => ?_⟩
  · have h := linear_run streams s₀ schedule
    exact ⟨h, h.handledAlone, h.durable mock⟩
  · have h := linear_run streams s₀ schedule
    exact ⟨h, h.durable (scx schedulerBinary)⟩

end Server

section Example
local instance : Codec := textCodec

/-- Two clients: one sets the profile, the other reads it. -/
def clients (setter : Bool) : List (List UInt8) :=
  let request := if setter then .setProfile .performance else .getProfile
  [toLine (RequestEnvelope.mk protocolVersion none request).toValue]

theorem linearizable_durable_clients :
    Durable MockBackend.new (run clients idle
      [true, false, true, false, true, true, true, false, false, false, false]).shared :=
  ((@linearizable_durable Bool textCodec _ textCodec_lawful clients _).1 idle).2.2
    (by decide +kernel)
    [(true, ⟨protocolVersion, none, .setProfile .performance⟩)]
    (false, ⟨protocolVersion, none, .getProfile⟩) (by decide +kernel) ⟨_, _, rfl, rfl⟩

/-- The scheduler comes up, and later it exits by itself. -/
def exiting (n : ℕ) : Move :=
  if n < 9 then ScxBackend.healthy n else { exits := [0], tryWait := .exited }

/-- The daemon after it has started the scheduler. -/
def started : Sys ScxBackend :=
  (ScxBackend.start.exec (ScxBackend.boot exiting "cerynth-scx" .balanced true)).2

/-- One client that reads the profile. -/
def reader (_ : Unit) : List (List UInt8) :=
  [toLine (RequestEnvelope.mk protocolVersion none .getProfile).toValue]

/-- The status that is read for the state file forgets a scheduler that has exited, which no run of
    `handle_request` for the same request does, in any world. -/
theorem forgotten_by_save : ¬ ∀ (moves : ℕ → Move) (schedulerBinary : String) (profile : Profile)
    (adaptationEnabled : Bool) (s₀ : Sys ScxBackend) (streams : Unit → List (List UInt8))
    (schedule : List Unit),
    s₀ = (ScxBackend.start.exec (ScxBackend.boot moves schedulerBinary profile
      adaptationEnabled)).2 →
    (run streams s₀ schedule).holder = none →
    ∃ w : World, (run streams s₀ schedule).shared.backend =
      (handled (order (run streams s₀ schedule)) { s₀ with world := w }).backend := by
  intro h
  let schedule := [(), (), (), (), ()]
  have hfree : (run reader started schedule).holder = none := by decide +kernel
  have horder : order (run reader started schedule) =
      [((), ⟨protocolVersion, none, .getProfile⟩)] := by decide +kernel
  have hpid : (run reader started schedule).shared.backend.pid = none := by decide +kernel
  have hpid₀ : started.backend.pid ≠ none := by decide +kernel
  obtain ⟨w, hw⟩ := h exiting "cerynth-scx" .balanced true started reader schedule rfl hfree
  generalize run reader started schedule = t at horder hpid hw
  generalize started = s at hpid₀ hw
  rw [horder] at hw
  have hkept : t.shared.backend = s.backend := hw
  exact hpid₀ (hkept ▸ hpid)

end Example

end Server

end CerynthOS.Daemon
