import CerynthOS.Daemon.Activation
import CerynthOS.Daemon.Startup

/-! The backend that the daemon says it runs.

    Every status names a backend, and the name is saved with the rest of the status. `ScxBackend`
    names itself. `MockBackend` names what an earlier run has saved, and saves it again. -/

namespace CerynthOS.Daemon
open Ipc Json

section Daemon
variable {B : Type} [Backend B] [Codec]

/-- The responses to these requests, one after another. -/
def serveAll : List Request → Sys B → List Response × Sys B
  | [], s => ([], s)
  | request :: requests, s =>
    let (response, s) := serve request s
    let (responses, s) := serveAll requests s
    (response :: responses, s)

/-- The rest of `main`: the scheduler is started, where a failure is only printed, and then the
    requests are served. -/
def serveFrom (autoStart : Bool) (requests : List Request) (s : Sys B) : List Response × Sys B :=
  serveAll requests (if autoStart then (Backend.start.exec s).2 else s)

end Daemon

section Main
variable [Codec]

/-- The responses of the daemon and what it did in the world. -/
def SharedBackend.serveFrom (moves : ℕ → Move) (autoStart : Bool) (requests : List Request) :
    SharedBackend → List Response × List Event
  | mock b => (Daemon.serveFrom autoStart requests ⟨b, { moves }⟩).map id (·.world.log)
  | scx b => (Daemon.serveFrom autoStart requests ⟨b, { moves }⟩).map id (·.world.log)

/-- `main`, up to these requests. -/
def main (fromStr : String → Option Config) (config state : Found) (binary : Option String)
    (moves : ℕ → Move) (requests : List Request) : List Response × List Event :=
  (startup fromStr config state binary).serveFrom moves (Config.load fromStr config).autoStart
    requests

/-- Every status that is answered and every state that is saved names this backend. -/
structure Names (backend : SchedulerBackend) (r : List Response × List Event) : Prop where
  answered : ∀ status, .status status ∈ r.1 → status.backend = backend
  saved : ∀ text, .save text .done ∈ r.2 →
    ∃ state, persisted (.text text) = some state ∧ state.schedulerBackend = backend

end Main

/-! ### Labels -/

/-- A backend's label: its statuses name it, no request changes it, and no request saves anything
    by itself. -/
structure Labels (B : Type) [Backend B] where
  label : B → SchedulerBackend
  status_backend : ∀ {s s' : Sys B} {status}, Backend.status.exec s = (.ok status, s') →
    status.backend = label s.backend
  handle_label : ∀ (request : Request) (s : Sys B),
    label (handleRequest request s).2.backend = label s.backend
  handle_saving : ∀ (request : Request) (s : Sys B),
    Saving (fun _ => False) s.world (handleRequest request s).2.world

/-- `MockBackend` names what it was built from. -/
def mockLabels : Labels MockBackend where
  label b := b.state.schedulerBackend
  status_backend h := by
    cases h
    rfl
  handle_label request _ := by cases request <;> rfl
  handle_saving request s := by cases request <;> exact .refl _

section Labels
variable [Codec]

theorem ScxBackend.handleRequest_saving (request : Request) (s : Sys ScxBackend) :
    Saving (fun _ => False) s.world (handleRequest request s).2.world := by
  have hs : Settled (fun _ => False) s.world s.backend.profile s := ⟨rfl, .refl _⟩
  have keeps {α : Type} {x : Op ScxBackend α} (response : α → Response)
      (hx : Saving (fun _ => False) s.world (x.exec s).2.world) :
      Saving (fun _ => False) s.world (answer response (x.exec s)).2.world := by
    rw [answer_snd]
    exact hx
  cases request with
  | status => exact keeps _ (Prog.keeps_exec status_settled hs).saving
  | getProfile => exact .refl _
  | setProfile profile =>
    refine keeps _ ?_
    have hset := setProfile_settled hs profile
    rcases hr : (setProfile profile).exec s with ⟨e | _, s'⟩
    · rw [hr] at hset
      obtain ⟨h, -⟩ | ⟨h, -⟩ := hset
      · exact h.saving
      · exact h.saving
    · rw [hr] at hset
      exact hset.1.saving
  | pauseAdaptation => exact .refl _
  | resumeAdaptation => exact .refl _
  | start => exact keeps _ (Prog.keeps_exec start_settled hs).saving
  | stop => exact keeps _ (Prog.keeps_exec stop_settled hs).saving
  | restart => exact keeps _ (Prog.keeps_exec restart_settled hs).saving

/-- `ScxBackend` names itself. -/
def scxLabels : Labels ScxBackend where
  label _ := .scx
  status_backend {s _ _} h := by
    obtain ⟨-, -, -, hb⟩ := (Prog.triple_iff.mp (ScxBackend.status_spec s) s rfl).ok h
    exact hb
  handle_label _ _ := rfl
  handle_saving := ScxBackend.handleRequest_saving

variable {B : Type} [Backend B] {s : Sys B}

/-- The backend has this label, and since this world only states with it have been saved. -/
structure Labelled (L : Labels B) (w : World) (label : SchedulerBackend) (s : Sys B) : Prop where
  backend : L.label s.backend = label
  saving : Saving (fun text => ∃ state : RuntimeState, text = state.text ∧
    state.schedulerBackend = label) w s.world

omit [Backend B] [Codec] in
theorem answer_ne_status {α : Type} {response : α → Response} {status : SchedulerStatus}
    (h : ∀ a, response a ≠ .status status) (r : Except String α × Sys B) :
    (answer response r).1 ≠ .status status := by
  rcases r with ⟨_ | a, _⟩
  · rintro ⟨⟩
  · exact h a

omit [Codec] in
theorem Saving.mono {P Q : String → Prop} {w w' : World} (h : Saving P w w')
    (hpq : ∀ text, P text → Q text) : Saving Q w w' := by
  obtain ⟨l, hl, hs⟩ := h
  exact ⟨l, hl, fun text result he => hpq text (hs text result he)⟩

namespace Labelled
variable {L : Labels B} {w : World} {label : SchedulerBackend}

theorem handle (h : Labelled L w label s) (request : Request) :
    Labelled L w label (handleRequest request s).2 where
  backend := (L.handle_label request s).trans h.backend
  saving := h.saving.trans ((L.handle_saving request s).mono (by simp))

/-- Reading the status is the request for it. -/
theorem status (h : Labelled L w label s) : Labelled L w label (Backend.status.exec s).2 := by
  have := h.handle .status
  rwa [handleRequest, answer_snd] at this

theorem start (h : Labelled L w label s) : Labelled L w label (Backend.start.exec s).2 := by
  have := h.handle .start
  rwa [handleRequest, answer_snd] at this

theorem persist (h : Labelled L w label s) : Labelled L w label (persist s) := by
  have hread := h.status
  rcases hs : Backend.status.exec s with ⟨_ | status, s'⟩
  · rw [hs] at hread
    rwa [persist_error hs]
  · rw [hs] at hread
    obtain ⟨hb, result, hl, -⟩ := persist_ok hs
    refine ⟨hb ▸ hread.backend, hread.saving.trans ⟨_, hl, fun text result' he => ?_⟩⟩
    obtain ⟨rfl, -⟩ := by simpa using he
    exact ⟨runtimeState status, rfl, (L.status_backend hs).trans h.backend⟩

/-- One request: the answer names the label, and so does what is saved. -/
theorem serve (h : Labelled L w label s) (request : Request) :
    (∀ status, (serve request s).1 = .status status → status.backend = label) ∧
      Labelled L w label (serve request s).2 := by
  refine ⟨fun status hr => ?_, (h.handle request).persist⟩
  cases request with
  | status =>
    change (answer Response.status (Backend.status.exec s)).1 = _ at hr
    rcases hs : Backend.status.exec s with ⟨_ | status', s'⟩
    · rw [hs] at hr
      cases hr
    · rw [hs] at hr
      cases hr
      exact (L.status_backend hs).trans h.backend
  | _ => exact absurd hr (answer_ne_status (by rintro _ ⟨⟩) _)

/-- A run. -/
theorem serveAll (h : Labelled L w label s) (requests : List Request) :
    (∀ status, .status status ∈ (serveAll requests s).1 → status.backend = label) ∧
      Labelled L w label (serveAll requests s).2 := by
  induction requests generalizing s with
  | nil => exact ⟨by simp [Daemon.serveAll], h⟩
  | cons request requests ih =>
    obtain ⟨hanswer, hserved⟩ := h.serve request
    obtain ⟨hrest, hlast⟩ := ih hserved
    refine ⟨fun status hm => ?_, hlast⟩
    rcases List.mem_cons.mp hm with hm | hm
    · exact hanswer status hm.symm
    · exact hrest status hm

theorem serveFrom (h : Labelled L w label s) (autoStart : Bool) (requests : List Request) :
    (∀ status, .status status ∈ (serveFrom autoStart requests s).1 → status.backend = label) ∧
      Labelled L w label (serveFrom autoStart requests s).2 := by
  rw [Daemon.serveFrom]
  split
  · exact h.start.serveAll requests
  · exact h.serveAll requests

/-- What has been saved since the daemon started names the label. -/
theorem names [LawfulCodec] (h : Labelled L w label s) (hw : w.log = []) {responses : List Response}
    (hr : ∀ status, .status status ∈ responses → status.backend = label) :
    Names label (responses, s.world.log) := by
  refine ⟨hr, fun text hsave => ?_⟩
  obtain ⟨l, hl, hs⟩ := h.saving
  rw [hl, hw, List.nil_append] at hsave
  obtain ⟨state, rfl, hstate⟩ := hs text .done hsave
  exact ⟨state, persisted_text state, hstate⟩

end Labelled

/-- The backend that the daemon names: the one it runs or, for the mock, the one that was
    persisted. -/
def namedBackend (fromStr : String → Option Config) (config state : Found) : SchedulerBackend :=
  match (Config.load fromStr config).schedulerBackend with
  | .mock => (RuntimeState.loadFile state).schedulerBackend
  | .scx => .scx

variable {fromStr : String → Option Config} {config state : Found}

theorem namedBackend_mock (h : (Config.load fromStr config).schedulerBackend = .mock) :
    namedBackend fromStr config state = (RuntimeState.loadFile state).schedulerBackend := by
  rw [namedBackend, h]

theorem namedBackend_scx (h : (Config.load fromStr config).schedulerBackend = .scx) :
    namedBackend fromStr config state = .scx := by
  rw [namedBackend, h]

theorem main_mock (h : (Config.load fromStr config).schedulerBackend = .mock)
    (binary : Option String) (moves : ℕ → Move) (requests : List Request) :
    main fromStr config state binary moves requests =
      SharedBackend.serveFrom moves (Config.load fromStr config).autoStart requests
        (.mock (.new (.ofRuntimeState (RuntimeState.loadFile state)))) := by
  rw [main, startup, h]

theorem names_main [LawfulCodec] (fromStr : String → Option Config) (config state : Found)
    (binary : Option String) (moves : ℕ → Move) (requests : List Request) :
    Names (namedBackend fromStr config state)
      (main fromStr config state binary moves requests) := by
  let autoStart := (Config.load fromStr config).autoStart
  cases hb : (Config.load fromStr config).schedulerBackend with
  | mock =>
    rw [namedBackend_mock hb, main_mock hb]
    have h : Labelled mockLabels { moves } (RuntimeState.loadFile state).schedulerBackend
        ⟨.new (.ofRuntimeState (RuntimeState.loadFile state)), { moves }⟩ := ⟨rfl, .refl _⟩
    obtain ⟨hr, hrun⟩ := h.serveFrom autoStart requests
    exact hrun.names rfl hr
  | scx =>
    let b : ScxBackend :=
      (ScxBackend.new (binary.getD (Config.load fromStr config).schedulerBinary)
        (RuntimeState.loadFile state).profile).withAdaptation
          (RuntimeState.loadFile state).adaptationEnabled
    have hmain : main fromStr config state binary moves requests =
        (SharedBackend.scx b).serveFrom moves autoStart requests := by
      rw [main, startup, hb]
      rfl
    rw [namedBackend_scx hb, hmain]
    have h : Labelled scxLabels { moves } .scx ⟨b, { moves }⟩ := ⟨rfl, .refl _⟩
    obtain ⟨hr, hrun⟩ := h.serveFrom autoStart requests
    exact hrun.names rfl hr

/-- What the daemon saves makes the next one name the same backend. -/
theorem namedBackend_saved [LawfulCodec] {binary : Option String} {moves : ℕ → Move}
    {requests : List Request} {text : String}
    (h : .save text .done ∈ (main fromStr config state binary moves requests).2) :
    namedBackend fromStr config (.text text) = namedBackend fromStr config state := by
  obtain ⟨saved, hsaved, hname⟩ :=
    (names_main fromStr config state binary moves requests).saved text h
  have hload : RuntimeState.loadFile (.text text) = saved := by
    change ((Codec.fromStr text).bind RuntimeState.ofValue).getD .default = saved
    rw [persisted] at hsaved
    rw [hsaved, Option.getD_some]
  cases hb : (Config.load fromStr config).schedulerBackend with
  | mock => rw [namedBackend_mock hb, hload, hname]
  | scx => rw [namedBackend_scx hb, namedBackend_scx hb]

/-- When nothing fails the mock saves something for the first request, and it stays in the log. -/
theorem saved_mock (b : MockBackend) {requests : List Request} (h : requests ≠ []) :
    ∃ text, .save text .done ∈
      (serveAll requests (⟨b, { moves := fun _ => {} }⟩ : Sys MockBackend)).2.world.log := by
  obtain ⟨request, requests, rfl⟩ := List.exists_cons_of_ne_nil h
  let s : Sys MockBackend := ⟨b, { moves := fun _ => {} }⟩
  obtain ⟨text, htext⟩ : ∃ text, Event.save text .done ∈ (serve request s).2.world.log := by
    cases request <;> exact ⟨_, List.mem_singleton_self _⟩
  have hrun : Labelled mockLabels (serve request s).2.world _ (serve request s).2 :=
    ⟨rfl, .refl _⟩
  obtain ⟨l, hl, -⟩ := (hrun.serveAll requests).2.saving
  refine ⟨text, ?_⟩
  change _ ∈ (serveAll requests (serve request s).2).2.world.log
  rw [hl]
  exact List.mem_append_left _ htext

/-- The daemon names the backend it runs in every environment exactly when that is `ScxBackend`, or
    the persisted state names the mock, or nothing is asked. -/
theorem named_iff [LawfulCodec] (fromStr : String → Option Config) (config state : Found)
    (binary : Option String) (requests : List Request) :
    (∀ moves, Names (Config.load fromStr config).schedulerBackend
      (main fromStr config state binary moves requests)) ↔
    (Config.load fromStr config).schedulerBackend = .scx ∨
      (RuntimeState.loadFile state).schedulerBackend = .mock ∨ requests = [] := by
  have hnames := names_main fromStr config state binary
  constructor
  · intro h
    cases hb : (Config.load fromStr config).schedulerBackend with
    | mock =>
      refine .inr (or_iff_not_imp_right.mpr fun hne => ?_)
      obtain ⟨text, hsave⟩ := saved_mock (.new (.ofRuntimeState (RuntimeState.loadFile state))) hne
      have hmem : .save text .done ∈
          (main fromStr config state binary (fun _ => {}) requests).2 := by
        rw [main_mock hb, SharedBackend.serveFrom, serveFrom]
        split <;> exact hsave
      obtain ⟨saved, hs, hname⟩ := (h _).saved text hmem
      obtain ⟨saved', hs', hname'⟩ := (hnames _ requests).saved text hmem
      obtain rfl := Option.some.inj (hs.symm.trans hs')
      rw [namedBackend_mock hb] at hname'
      rw [← hname', hname, hb]
    | scx => exact .inl rfl
  · intro h moves
    have hrun := hnames moves requests
    cases hb : (Config.load fromStr config).schedulerBackend with
    | scx => rwa [namedBackend_scx hb] at hrun
    | mock =>
      rw [namedBackend_mock hb] at hrun
      rcases h with h | h | rfl
      · cases hb.symm.trans h
      · rwa [h] at hrun
      · rw [main_mock hb, SharedBackend.serveFrom, serveFrom]
        split
        · exact ⟨by rintro _ ⟨⟩, by rintro _ ⟨⟩⟩
        · exact ⟨by rintro _ ⟨⟩, by rintro _ ⟨⟩⟩

end Labels

section Example
local instance labelsCodec : Codec := textCodec

/-- A state that was saved while the daemon ran `ScxBackend`. -/
def scxState : Found := .text (RuntimeState.mk .balanced false .scx).text

theorem loadFile_scxState : RuntimeState.loadFile scxState = ⟨.balanced, false, .scx⟩ := by
  rw [scxState, RuntimeState.loadFile]
  exact @RuntimeState.load_text textCodec textCodec_lawful _

/-- A state that was saved while the daemon ran `MockBackend`. -/
def mockState : Found := .text (RuntimeState.mk .interactive true .mock).text

/-- The persisted state names the mock, the configuration asks for `ScxBackend`. -/
theorem named_scx : Names .scx
    (main performanceFromStr (.text performanceToml) mockState none (fun _ => {}) [.status]) := by
  have hload : Config.load performanceFromStr (.text performanceToml) = performanceConfig := by
    rw [Config.load, performanceFromStr_toml, Option.getD_some]
  have hscx : (Config.load performanceFromStr (.text performanceToml)).schedulerBackend = .scx := by
    rw [hload, performanceConfig]
  have h := (@named_iff textCodec textCodec_lawful performanceFromStr (.text performanceToml)
    mockState none [.status]).mpr (.inl hscx) (fun _ => {})
  rwa [hscx] at h

/-- Without a configuration the daemon runs the mock, which names the persisted backend. -/
theorem misnamed : ¬ ∀ (fromStr : String → Option Config) (config state : Found)
    (binary : Option String) (moves : ℕ → Move) (requests : List Request),
    Names (Config.load fromStr config).schedulerBackend
      (main fromStr config state binary moves requests) := by
  intro h
  have hnames := h (fun _ => none) .missing scxState none (fun _ => {}) [.status]
  rw [main_mock rfl, loadFile_scxState] at hnames
  have hb := hnames.answered ⟨.balanced, false, .scx, true, none, false⟩ List.mem_cons_self
  cases hb

end Example

end CerynthOS.Daemon
