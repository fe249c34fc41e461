import CerynthOS.Daemon.Gate

/-! A profile change that is answered with an error.

    A running scheduler is stopped, the profile is assigned and the scheduler is started again.
    Where one of the first steps fails the old profile stays; where the start fails the new one
    stays, and it is saved. -/

open Std.Do

set_option mvcgen.warning false

namespace CerynthOS.Daemon
open Ipc Json

/-! ### What is saved -/

section Saving
variable {P : String → Prop} {w w' w'' : World}

/-- Between two states the log has grown, and every text saved meanwhile is such a text. -/
def Saving (P : String → Prop) (w w' : World) : Prop :=
  ∃ l, w'.log = w.log ++ l ∧ ∀ text result, .save text result ∈ l → P text

theorem Moved.saving (h : Moved w w') : Saving P w w' := by
  obtain ⟨l, hl, hs⟩ := h.log
  exact ⟨l, hl, fun text result he => absurd trivial (hs _ he)⟩

theorem Saving.refl (w : World) : Saving P w w := ⟨[], (List.append_nil _).symm, by simp⟩

theorem Saving.trans (h : Saving P w w') (h' : Saving P w' w'') : Saving P w w'' := by
  obtain ⟨l, hl, hs⟩ := h
  obtain ⟨l', hl', hs'⟩ := h'
  refine ⟨l ++ l', by rw [hl', hl, List.append_assoc], fun text result he => ?_⟩
  exact (List.mem_append.mp he).elim (hs text result) (hs' text result)

/-- The saves between two states are in the rest of the log. -/
theorem Saving.drop (h : Saving P w w') {text : String} {result : Saved}
    (he : .save text result ∈ w'.log.drop w.log.length) : P text := by
  obtain ⟨l, hl, hs⟩ := h
  rw [hl, List.drop_left] at he
  exact hs text result he

end Saving

namespace ScxBackend

section Activation
variable [Codec] {s s' : Sys ScxBackend}

/-- A text of the state file with this profile. -/
def Holds (profile : Profile) (text : String) : Prop :=
  ∃ state : RuntimeState, text = state.text ∧ state.profile = profile

omit [Codec] in
theorem Launched.saving {P : String → Prop} {c : Child} (h : Launched s s' c) :
    Saving P s.world s'.world := by
  obtain ⟨w, hm, hw, -⟩ := h.spawned
  exact hm.saving.trans ⟨_, hw.log, by simp⟩

/-- What is saved for a request holds the profile that the request has left. -/
theorem persist_saving (s : Sys ScxBackend) :
    (persist s).backend.profile = s.backend.profile ∧
      Saving (Holds s.backend.profile) s.world (persist s).world := by
  have hstatus := Prog.triple_iff.mp (status_spec s) s rfl
  rcases hs : status.exec s with ⟨_ | status, s'⟩
  · have h : Reconciled s s' := hstatus.error hs
    rw [persist_error hs]
    exact ⟨h.profile, h.moved.saving⟩
  · obtain ⟨h, hprofile, -⟩ := hstatus.ok hs
    obtain ⟨hb, result, hl, -⟩ := persist_ok hs
    refine ⟨hb ▸ h.profile, h.moved.saving.trans ⟨_, hl, fun text result' he => ?_⟩⟩
    obtain ⟨rfl, -⟩ := by simpa using he
    exact ⟨runtimeState status, rfl, hprofile⟩

/-! ### The request -/

/-- If this profile change is answered with an error, the old profile stays, in the backend and in
    what is saved for the request. -/
def ProfileKept (s : Sys ScxBackend) (profile : Profile) : Prop :=
  ∀ e, (serve (.setProfile profile) s).1 = .error e →
    Backend.getProfile (serve (.setProfile profile) s).2.backend = Backend.getProfile s.backend ∧
    ∀ text result,
      .save text result ∈ (serve (.setProfile profile) s).2.world.log.drop s.world.log.length →
      Holds s.backend.profile text

/-- The running scheduler stops and does not come up again with this profile. -/
def FailedActivation (s : Sys ScxBackend) (profile : Profile) : Prop :=
  ∃ s₁ s₂ e, reapChild.exec s = (.ok (), s₁) ∧ s₁.backend.pid.isSome = true ∧
    stop.exec s₁ = (.ok (), s₂) ∧
    (start.exec { s₂ with backend := { s₂.backend with profile } }).1 = .error e

/-- The backend has this profile, and since this world only such texts have been saved. -/
structure Settled (P : String → Prop) (w : World) (profile : Profile) (s : Sys ScxBackend) :
    Prop where
  profile : s.backend.profile = profile
  saving : Saving P w s.world

section
variable {P : String → Prop} {w : World} {profile profile' : Profile} {c : Child}

omit [Codec] in
theorem Settled.reconciled (h : Settled P w profile s) (h' : Reconciled s s') :
    Settled P w profile s' :=
  ⟨h'.profile.trans h.profile, h.saving.trans h'.moved.saving⟩

omit [Codec] in
theorem Settled.launched (h : Settled P w profile s) (h' : Launched s s' c) :
    Settled P w profile s' :=
  ⟨h'.backend ▸ h.profile, h.saving.trans h'.saving⟩

theorem start_settled : ⦃fun s => ⌜Settled P w profile s⌝⦄ start
    ⦃post⟨fun _ s => ⌜Settled P w profile s⌝, fun _ s => ⌜Settled P w profile s⌝⟩⦄ := by
  mvcgen [start] with grind [→ Settled.reconciled, → Settled.launched, → Passed.reconciled]

theorem restart_settled : ⦃fun s => ⌜Settled P w profile s⌝⦄ restart
    ⦃post⟨fun _ s => ⌜Settled P w profile s⌝, fun _ s => ⌜Settled P w profile s⌝⟩⦄ := by
  mvcgen [restart, start_settled] with grind [→ Settled.reconciled, → Stopped.reconciled]

omit [Codec] in
theorem stop_settled : ⦃fun s => ⌜Settled P w profile s⌝⦄ stop
    ⦃post⟨fun _ s => ⌜Settled P w profile s⌝, fun _ s => ⌜Settled P w profile s⌝⟩⦄ := by
  mvcgen with grind [→ Settled.reconciled, → Stopped.reconciled]

theorem status_settled : ⦃fun s => ⌜Settled P w profile s⌝⦄ status
    ⦃post⟨fun _ s => ⌜Settled P w profile s⌝, fun _ s => ⌜Settled P w profile s⌝⟩⦄ := by
  mvcgen with grind [→ Settled.reconciled]

omit [Codec] in
theorem Settled.assign (h : Settled P w profile s) (profile' : Profile) :
    Settled P w profile' { s with backend := { s.backend with profile := profile' } } :=
  ⟨rfl, h.saving⟩

theorem setProfile_exec (profile : Profile) (s : Sys ScxBackend) :
    (setProfile profile).exec s = match reapChild.exec s with
      | (.error e, s₁) => (.error e, s₁)
      | (.ok (), s₁) =>
        if s₁.backend.pid.isSome then match stop.exec s₁ with
          | (.error e, s₂) => (.error e, s₂)
          | (.ok (), s₂) => start.exec { s₂ with backend := { s₂.backend with profile } }
        else (.ok (), { s₁ with backend := { s₁.backend with profile } }) := by
  rw [setProfile, Prog.exec_bind]
  rcases reapChild.exec s with ⟨_ | _, s₁⟩
  · rfl
  · change (ite _ _ _ : Op ScxBackend Unit).exec s₁ = _
    dsimp only
    split_ifs
    · rw [Prog.exec_bind]
      rcases stop.exec s₁ with ⟨_ | _, s₂⟩ <;> rfl
    · rfl

/-- The profile after `set_profile`: the new one when it succeeds, and the old one when it fails,
    unless that is in the start. -/
theorem setProfile_settled (h : Settled P w profile s) (profile' : Profile) :
    match (setProfile profile').exec s with
    | (.ok (), s') => Settled P w profile' s' ∧ ¬ FailedActivation s profile'
    | (.error _, s') => Settled P w profile s' ∧ ¬ FailedActivation s profile' ∨
      Settled P w profile' s' ∧ FailedActivation s profile' := by
  have hreap := Prog.triple_iff.mp (reapChild_spec s) s rfl
  rw [setProfile_exec]
  rcases h₁ : reapChild.exec s with ⟨e | _, s₁⟩
  · obtain ⟨c, e', -, hc⟩ := hreap.error h₁
    refine .inl ⟨h.reconciled (.ofCalled hc), ?_⟩
    rintro ⟨_, _, _, h₂, _⟩
    rw [h₁] at h₂
    cases h₂
  have hs₁ := h.reconciled (hreap.ok h₁).reconciled
  dsimp only
  split_ifs with hpid
  · have hstop := Prog.triple_iff.mp (stop_spec s₁) s₁ rfl
    rcases h₂ : stop.exec s₁ with ⟨e | _, s₂⟩
    · refine .inl ⟨hs₁.reconciled (hstop.error h₂).reconciled, ?_⟩
      rintro ⟨_, _, _, h₁', _, h₂', _⟩
      rw [h₁] at h₁'
      obtain rfl := congrArg Prod.snd h₁'
      rw [h₂] at h₂'
      cases h₂'
    · have hs₂ := (hs₁.reconciled (hstop.ok h₂).1.reconciled).assign profile'
      have hstart := Prog.triple_iff.mp start_settled _ hs₂
      dsimp only
      rcases h₃ : start.exec _ with ⟨e | _, s₃⟩
      · refine .inr ⟨hstart.error h₃, s₁, s₂, e, h₁, hpid, h₂, congrArg Prod.fst h₃⟩
      · refine ⟨hstart.ok h₃, ?_⟩
        rintro ⟨_, _, _, h₁', _, h₂', h₃'⟩
        rw [h₁] at h₁'
        obtain rfl := congrArg Prod.snd h₁'
        rw [h₂] at h₂'
        obtain rfl := congrArg Prod.snd h₂'
        rw [h₃] at h₃'
        cases h₃'
  · refine ⟨hs₁.assign profile', ?_⟩
    rintro ⟨_, _, _, h₁', hpid', _⟩
    rw [h₁] at h₁'
    obtain rfl := congrArg Prod.snd h₁'
    exact hpid hpid'

end

theorem serve_setProfile {r : Except String Unit} {profile : Profile}
    (h : (setProfile profile).exec s = (r, s')) :
    serve (.setProfile profile) s =
      ((answer (fun _ => Response.success) (r, s')).1, persist s') := by
  have hanswer : handleRequest (.setProfile profile) s =
      answer (fun _ => Response.success) (r, s') := congrArg (answer _) h
  rw [serve, hanswer]
  rcases r with _ | _ <;> rfl

theorem Settled.persist {old profile : Profile} (h : Settled (Holds old) s.world profile s')
    (ho : profile = old) : Settled (Holds old) s.world old (persist s') := by
  obtain ⟨hprofile, hsaving⟩ := persist_saving s'
  subst ho
  exact ⟨hprofile.trans h.profile, h.saving.trans (h.profile ▸ hsaving)⟩

/-- A failed change leaves the old profile exactly when it did not fail in the start. -/
theorem profileKept_iff (s : Sys ScxBackend) (profile : Profile) :
    ProfileKept s profile ↔ profile = s.backend.profile ∨ ¬ FailedActivation s profile := by
  have hs : Settled (Holds s.backend.profile) s.world s.backend.profile s := ⟨rfl, .refl _⟩
  have hset := setProfile_settled hs profile
  rcases hr : (setProfile profile).exec s with ⟨e | _, s'⟩
  · rw [hr] at hset
    rw [ProfileKept, serve_setProfile hr]
    have hkept {p : Profile} (h : Settled (Holds s.backend.profile) s.world p s')
        (hp : p = s.backend.profile) :
        Backend.getProfile (persist s').backend = Backend.getProfile s.backend ∧
          ∀ text result, .save text result ∈ (persist s').world.log.drop s.world.log.length →
            Holds s.backend.profile text :=
      ⟨congrArg Except.ok (h.persist hp).profile, fun _ _ => (h.persist hp).saving.drop⟩
    rcases hset with ⟨h, hf⟩ | ⟨h, hf⟩
    · exact iff_of_true (fun _ _ => hkept h rfl) (.inr hf)
    · refine ⟨fun h' => .inl ?_, fun h' _ _ => hkept h (h'.resolve_right (not_not.mpr hf))⟩
      obtain ⟨hprofile, -⟩ := h' e rfl
      exact h.profile ▸ (persist_saving s').1 ▸ Except.ok.inj hprofile
  · rw [hr] at hset
    refine iff_of_true (fun e he => ?_) (.inr hset.2)
    rw [serve_setProfile hr] at he
    cases he

/-! ### Runs -/

/-- Every profile change of a run asks for the profile there is, or does not fail in the start. -/
def Activated : List Request → Sys ScxBackend → Prop
  | [], _ => True
  | request :: requests, s =>
    (∀ profile, request = .setProfile profile →
      profile = s.backend.profile ∨ ¬ FailedActivation s profile) ∧
    Activated requests (serve request s).2

/-- The profile after this answer to this request. -/
def acceptedBy (profile : Profile) : Request → Response → Profile
  | .setProfile profile, .success => profile
  | _, _ => profile

/-- The profile of the last change that was answered with success. -/
def accepted (profile : Profile) : List Request → Sys ScxBackend → Profile
  | [], _ => profile
  | request :: requests, s =>
    let (response, s) := serve request s
    accepted (acceptedBy profile request response) requests s

/-- A request that asks for no profile leaves the profile. -/
theorem handleRequest_profile (s : Sys ScxBackend) {request : Request}
    (hne : ∀ profile, request ≠ .setProfile profile) :
    (handleRequest request s).2.backend.profile = s.backend.profile := by
  let P : String → Prop := fun _ => True
  have hs : Settled P s.world s.backend.profile s := ⟨rfl, .refl _⟩
  have keeps {α : Type} {x : Op ScxBackend α} (response : α → Response)
      (hx : ⦃fun t => ⌜Settled P s.world s.backend.profile t⌝⦄ x
        ⦃post⟨fun _ t => ⌜Settled P s.world s.backend.profile t⌝,
          fun _ t => ⌜Settled P s.world s.backend.profile t⌝⟩⦄) :
      (answer response (x.exec s)).2.backend.profile = s.backend.profile := by
    rw [answer_snd]
    exact (Prog.keeps_exec hx hs).profile
  cases request with
  | status => exact keeps _ status_settled
  | getProfile => rfl
  | setProfile profile => exact absurd rfl (hne profile)
  | pauseAdaptation => rfl
  | resumeAdaptation => rfl
  | start => exact keeps _ start_settled
  | stop => exact keeps _ stop_settled
  | restart => exact keeps _ restart_settled

/-- One request of a run. -/
theorem serve_profile (request : Request)
    (h : ∀ profile, request = .setProfile profile →
      profile = s.backend.profile ∨ ¬ FailedActivation s profile) :
    (serve request s).2.backend.profile =
      acceptedBy s.backend.profile request (serve request s).1 := by
  have hother (hne : ∀ profile, request ≠ .setProfile profile) :
      (serve request s).2.backend.profile = s.backend.profile :=
    (persist_saving _).1.trans (handleRequest_profile s hne)
  cases request with
  | setProfile profile =>
    rcases hr : (setProfile profile).exec s with ⟨e | _, s'⟩
    · have hkept := (profileKept_iff s profile).mpr (h profile rfl)
      rw [ProfileKept, serve_setProfile hr] at hkept
      rw [serve_setProfile hr]
      exact Except.ok.inj (hkept e rfl).1
    · have hs : Settled (fun _ => True) s.world s.backend.profile s := ⟨rfl, .refl _⟩
      have hset := setProfile_settled hs profile
      rw [hr] at hset
      rw [serve_setProfile hr]
      exact (persist_saving s').1.trans hset.1.profile
  | _ => exact hother (by rintro _ ⟨⟩)

theorem accepted_run (requests : List Request) (s : Sys ScxBackend) (h : Activated requests s) :
    (requests.foldl (fun s request => (serve request s).2) s).backend.profile =
      accepted s.backend.profile requests s := by
  induction requests generalizing s with
  | nil => rfl
  | cons request requests ih =>
    rw [List.foldl_cons, ih _ h.2, serve_profile request h.1]
    rfl

/-- In every state of every run, whatever the environment does: a failed profile change leaves the
    old profile, in the backend and in what is saved, exactly when it does not fail in the start
    with another profile. So the profile is the last one accepted, in a run without such a
    failure. -/
theorem profile_kept_run (moves : ℕ → Move) (schedulerBinary : String) (profile₀ : Profile)
    (adaptationEnabled : Bool) (requests : List Request) :
    let boot := boot moves schedulerBinary profile₀ adaptationEnabled
    let s := requests.foldl (fun s request => (serve request s).2) boot
    (∀ profile, ProfileKept s profile ↔
      profile = s.backend.profile ∨ ¬ FailedActivation s profile) ∧
    (Activated requests boot →
      Backend.getProfile s.backend = .ok (accepted profile₀ requests boot)) :=
  ⟨fun profile => profileKept_iff _ profile, fun h => congrArg Except.ok (accepted_run _ _ h)⟩

end Activation

section Example
local instance : Codec := textCodec

/-- The scheduler comes up, and when it has been stopped its binary is missing. -/
def removed (n : ℕ) : Move :=
  if n < 18 then healthy n else { found := false, exits := [0], tryWait := .exited }

theorem profile_lost : ¬ ∀ (moves : ℕ → Move) (schedulerBinary : String) (profile₀ : Profile)
    (adaptationEnabled : Bool) (requests : List Request) (profile : Profile),
    ProfileKept (requests.foldl (fun s request => (serve request s).2)
      (boot moves schedulerBinary profile₀ adaptationEnabled)) profile := by
  intro h
  let s := [Request.start].foldl (fun s request => (serve request s).2)
    (boot removed "cerynth-scx" .balanced true)
  have hr : (serve (.setProfile .performance) s).1 =
      .error "scheduler binary not found: cerynth-scx" := by decide +kernel
  have hp : Backend.getProfile (serve (.setProfile .performance) s).2.backend =
      .ok .performance := by decide +kernel
  have hb : Backend.getProfile s.backend = .ok .balanced := by decide +kernel
  have hkept : ProfileKept s .performance := h removed "cerynth-scx" .balanced true [.start] _
  have hprofile := (hkept _ hr).1.symm.trans hp
  exact absurd (hb.symm.trans hprofile) (by decide)

end Example

end ScxBackend

end CerynthOS.Daemon
