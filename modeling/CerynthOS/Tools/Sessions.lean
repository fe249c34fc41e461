import CerynthOS.Tools.Stages

/-! The sessions of the stability tool.

    Every piece of the script keeps to the protocol, however it ends; so nothing that a session does
    to the scheduler is out of place, and no session passes that should not. -/

namespace CerynthOS.Tools.Stability
open Bench Logging

/-! ### The script keeps to the protocol -/

section
variable (env : Env) {total : ℕ} {s t : Stage}

/-- No matter how the script is broken off. -/
def Anyhow (_ : Stop) (_ : Stage) : Prop := True

variable {α : Type} {Q : α → Stage → Prop} {E : Stop → Stage → Prop}

theorem raise_leads {error : PyError} (h : E (.raised error) s) :
    (protocol total).Leads s (raise error : Script α) Q E := .throw h

theorem ofExcept_leads (x : Except PyError α) :
    (protocol total).Leads s (ofExcept x) (fun _ t => s = t) (fun _ t => s = t) := by
  cases x with
  | ok a => exact .pure rfl
  | error e => exact .throw rfl

theorem require_leads (c : Bool) (error : PyError) :
    (protocol total).Leads s (require c error) (fun _ t => s = t ∧ c = true) (fun _ t => s = t) := by
  rw [require]
  cases c with
  | false => exact .throw rfl
  | true => exact .pure ⟨rfl, rfl⟩

theorem tryExcept_leads {body : Script α} {handler : PyError → Script α}
    {E' : Stop → Stage → Prop} (hbody : (protocol total).Leads s body Q E)
    (hraised : ∀ e t, E (.raised e) t → (protocol total).Leads t (handler e) Q E')
    (hkilled : ∀ t, E .killed t → E' .killed t) :
    (protocol total).Leads s (tryExcept body handler) Q E' := by
  refine hbody.tryCatch fun stop t hstop => ?_
  cases stop with
  | raised e => exact hraised e t hstop
  | killed => exact .throw (hkilled t hstop)

theorem tryFinally_leads {body : Script α} {final : Script Unit} {R : α → Stage → Prop}
    {E' : Stop → Stage → Prop} (hbody : (protocol total).Leads s body R E)
    (hfinal : ∀ a t, R a t → (protocol total).Leads t final (fun _ t' => Q a t') E')
    (hraised : ∀ e t, E (.raised e) t →
      (protocol total).Leads t final (fun _ t' => E' (.raised e) t') E')
    (hkilled : ∀ t, E .killed t → E' .killed t) :
    (protocol total).Leads s (tryFinally body final) Q E' := by
  rw [tryFinally]
  refine Protocol.Leads.bind (R := R) (hbody.tryCatch fun stop t hstop => ?_) fun a t ha => ?_
  · cases stop with
    | raised e => exact .bind (hraised e t hstop) fun _ t' ht' => .throw ht'
    | killed => exact .throw (hkilled t hstop)
  · exact .bind (hfinal a t ha) fun _ t' ht' => .pure ht'

/-! ### Calls -/

variable {β : Type} {x : Script α} {f : α → Script β} {R : β → Stage → Prop}

/-- One thing after the other. -/
theorem go (hx : (protocol total).Leads s x (fun _ t' => t = t') E)
    (hf : ∀ a, (protocol total).Leads t (f a) R Anyhow) :
    (protocol total).Leads s (x >>= f) R Anyhow := by
  refine .bind (hx.mono (fun _ _ ht => ht) fun _ _ _ => trivial) ?_
  rintro a _ rfl
  exact hf a

theorem goAsk {answer : Log → α} (hf : ∀ a, (protocol total).Leads s (f a) R Anyhow) :
    (protocol total).Leads s (ask answer >>= f) R Anyhow :=
  go (E := Anyhow) (.ask fun _ _ => rfl) hf

theorem goIf {c : Bool} {error : PyError} {f : Unit → Script β}
    (hf : c = true → (protocol total).Leads s (f ()) R Anyhow) :
    (protocol total).Leads s (require c error >>= f) R Anyhow := by
  refine .bind ((require_leads c error).mono (fun _ _ h => h) fun _ _ _ => trivial) ?_
  rintro - _ ⟨rfl, hc⟩
  exact hf hc

theorem next_call (s : Stage) : (protocol total).next s .call = some s := by
  cases s <;> rfl

theorem call_leads : (protocol total).Leads s (call env) (fun _ t => s = t) (fun _ t => s = t) := by
  refine .bind (R := fun _ t => s = t) (.did (next_call s) rfl) ?_
  rintro - _ rfl
  refine .bind (R := fun _ t => s = t) (.ask fun _ _ => rfl) ?_
  rintro stop _ rfl
  cases stop with
  | none => exact .pure rfl
  | some stop => exact .throw rfl

theorem save_leads {file : Saved} (h : (protocol total).next s (.saves file) = some t) :
    (protocol total).Leads s (save env file) (fun _ t' => t = t') (fun _ t' => t = t') := by
  refine .bind (R := fun _ t' => t = t') (.did h rfl) ?_
  rintro - _ rfl
  exact call_leads env

/-- The journal has been quiet, or everything has failed. -/
theorem poll_leads : (protocol total).Leads s (poll env) (fun _ t => s = t)
    (fun _ t => t = s ∨ t = .failed) := by
  have hnext : ∀ rows, (protocol total).next s (.polls rows) =
      some (if (watchdogRows rows).isEmpty then s else .failed) := by
    intro rows
    cases s <;> rfl
  refine .bind ((call_leads env).mono (fun _ _ h => h) fun _ _ h => .inl h.symm) ?_
  rintro - _ rfl
  refine .bind (R := fun _ t => s = t) (.ask fun _ _ => rfl) ?_
  rintro rows _ rfl
  refine .bind (R := fun _ t => (if (watchdogRows rows).isEmpty then s else .failed) = t)
    (.did (hnext rows) rfl) ?_
  rintro - _ rfl
  refine (require_leads _ _).mono ?_ ?_
  · rintro - _ ⟨rfl, hrows⟩
    rw [if_pos hrows]
  · rintro - _ rfl
    split_ifs
    · exact .inl rfl
    · exact .inr rfl

theorem readSchedExt_leads (h : ∀ state, ((protocol total).next s (.reads state)).isSome) :
    (protocol total).Leads s (readSchedExt env)
      (fun state t => (protocol total).next s (.reads state) = some t) Anyhow := by
  refine go (call_leads env) fun _ => goAsk fun state => ?_
  obtain ⟨t, ht⟩ := Option.isSome_iff_exists.mp (h state)
  exact go (E := Anyhow) (.did ht rfl) fun _ => .pure ht

theorem requireDisabled_leads (h : ∀ state, (protocol total).next s (.reads state) =
    some (if state = "disabled" then t else .failed)) :
    (protocol total).Leads s (requireDisabled env) (fun _ t' => t = t') Anyhow := by
  refine .bind (readSchedExt_leads env fun state => by rw [h]; rfl) fun state t' ht' => ?_
  refine (require_leads _ _).mono ?_ fun _ _ _ => trivial
  rintro - _ ⟨rfl, hstate⟩
  rw [h, if_pos (by simpa using hstate)] at ht'
  exact Option.some.inj ht'

theorem readRecord_leads :
    (protocol total).Leads s (readRecord env) (fun _ t => s = t) (fun _ t => s = t) := by
  refine .bind (R := fun _ t => s = t) (call_leads env) ?_
  rintro - _ rfl
  refine .bind (R := fun _ t => s = t) (.ask fun _ _ => rfl) ?_
  rintro answer _ rfl
  exact ofExcept_leads answer

theorem ctl_leads {command : Command} (h : (protocol total).next s (.controls command) = some t) :
    (protocol total).Leads s (ctl env command) (fun _ t' => t = t') Anyhow :=
  go (E := Anyhow) (.did h rfl) fun _ => go (call_leads env) fun _ => goAsk fun _ => goIf fun _ =>
    (poll_leads env).mono (fun _ _ h => h) fun _ _ _ => trivial

/-- A check that fails has done nothing. -/
theorem checkHealth_leads (profile : String) (f : ℕ → Stage)
    (h : ∀ pid, (protocol total).next s (.checks pid) = some (f pid)) :
    (protocol total).Leads s (checkHealth env profile) (fun health t => f health.pid = t)
      (fun _ t => s = t) := by
  refine .bind (R := fun _ t => s = t) (call_leads env) ?_
  rintro - _ rfl
  refine .bind (R := fun _ t => s = t) (.ask fun _ _ => rfl) ?_
  rintro answer _ rfl
  refine .bind (R := fun _ t => s = t) (ofExcept_leads answer) ?_
  rintro health _ rfl
  refine .bind (R := fun _ t => f health.pid = t) (.did (h health.pid) rfl) ?_
  rintro - _ rfl
  exact .pure rfl

theorem terminate_leads (h : (protocol total).next s .terminates = some t) :
    (protocol total).Leads s (terminate env) (fun _ t' => t = t') (fun _ t' => t = t') := by
  refine .bind (R := fun _ t' => t = t') (.did h rfl) ?_
  rintro - _ rfl
  exact call_leads env

theorem next_terminates (s : Stage) : ∃ t, (protocol total).next s .terminates = some t := by
  cases s with
  | failed => exact ⟨_, rfl⟩
  | on k mode => cases mode <;> exact ⟨_, rfl⟩

theorem terminate_anyhow (s : Stage) :
    (protocol total).Leads s (terminate env) (fun _ _ => True) Anyhow := by
  obtain ⟨t, ht⟩ := next_terminates s
  exact (terminate_leads env ht).mono (fun _ _ _ => trivial) fun _ _ _ => trivial

/-! ### Phases -/

variable {k : ℕ}

theorem watchBaseline_leads (rounds : ℕ) : (protocol total).Leads (.on k .loaded)
    (watchBaseline env rounds) (fun _ t => .on k .detached = t) Anyhow := by
  induction rounds with
  | zero => exact .throw trivial
  | succ rounds ih =>
    refine go (t := .on k .loaded) (requireDisabled_leads env fun _ => rfl) fun _ => ?_
    refine go (poll_leads env) fun _ => go (call_leads env) fun _ => goAsk fun code => ?_
    cases code with
    | some code =>
      refine go (E := Anyhow) (.did rfl rfl) fun _ => ?_
      refine (require_leads _ _).mono ?_ fun _ _ _ => trivial
      rintro - _ ⟨rfl, hcode⟩
      rw [if_pos (by simpa using hcode)]
    | none =>
      exact go (call_leads env) fun _ => goAsk fun _ => goIf fun _ => go (call_leads env) fun _ => ih

theorem runLinuxBaseline_leads : (protocol total).Leads (.on k .detached) (runLinuxBaseline env)
    (fun _ t => .on k .detached = t) Anyhow := by
  refine go (t := .on k .detached) (requireDisabled_leads env fun _ => rfl) fun _ => ?_
  refine go (poll_leads env) fun _ => go (call_leads env) fun _ => ?_
  refine go (t := .on k .loaded) (E := Anyhow) (.did rfl rfl) fun _ => ?_
  refine go (call_leads env) fun _ => ?_
  refine tryFinally_leads (E := Anyhow) (goAsk fun rounds => watchBaseline_leads env rounds) ?_ ?_ ?_
  · rintro - _ rfl
    exact (terminate_leads env rfl).mono (fun _ _ h => h) fun _ _ _ => trivial
  · exact fun _ t _ => terminate_anyhow env t
  · exact fun _ _ => trivial

theorem stopAttached_leads : (protocol total).Leads (.on k .enabled) (stopAttached env)
    (fun _ t => .on k .clean = t) Anyhow := by
  refine go (readRecord_leads env) fun record => ?_
  cases record.pid with
  | none => exact raise_leads trivial
  | some pid =>
    refine go (t := .on k (.known pid)) (E := Anyhow) (.did rfl rfl) fun _ => ?_
    refine go (t := .on k (.stopped pid)) (ctl_leads env rfl) fun _ => ?_
    refine go (readRecord_leads env) fun record => ?_
    refine go (E := Anyhow) (.did rfl rfl) fun _ => ?_
    refine (require_leads _ _).mono ?_ fun _ _ _ => trivial
    rintro - _ ⟨rfl, hclean⟩
    rw [if_pos hclean]

/-- Without a scheduler attached the tool goes on only before the first phase. -/
theorem detach_leads : (protocol total).Leads (.on k .between) (detach env)
    (fun _ t => .on k .detached = t) Anyhow := by
  have hnext : ∀ state, (protocol total).next (.on k .between) (.reads state) =
      if state = "enabled" then some (.on k .enabled)
      else if state = "disabled" then some (.on k (if k = 0 then .detached else .fallenBack))
      else some .failed := fun _ => rfl
  refine .bind (readSchedExt_leads env fun state => by rw [hnext]; split_ifs <;> rfl)
    fun state t ht => ?_
  rw [hnext] at ht
  by_cases henabled : state = "enabled"
  · rw [if_pos henabled] at ht
    obtain rfl := Option.some.inj ht
    simp only [henabled, beq_self_eq_true, if_true]
    exact go (stopAttached_leads env) fun _ => requireDisabled_leads env fun _ => rfl
  · rw [if_neg henabled] at ht
    simp only [beq_eq_false_iff_ne.mpr henabled, Bool.false_eq_true, if_false]
    by_cases hdisabled : state = "disabled"
    · rw [if_pos hdisabled] at ht
      by_cases hk : k = 0
      · rw [if_pos hk] at ht
        obtain rfl := Option.some.inj ht
        exact goAsk fun _ => goIf fun _ => goIf fun _ => requireDisabled_leads env fun _ => rfl
      · rw [if_neg hk] at ht
        obtain rfl := Option.some.inj ht
        refine .bind (R := fun phases _ => phases.length = k) (.ask fun log hlog => ?_)
          fun phases t hlength => goIf fun hempty => ?_
        · have hfacts : Facts k .fallenBack (history log) := facts hlog
          exact hfacts.length
        · cases phases with
          | nil => exact absurd hlength.symm hk
          | cons phase phases => simp [hdisabled] at hempty
    · rw [if_neg hdisabled] at ht
      exact goAsk fun _ => goIf fun _ => goIf fun h => absurd (by simpa using h) hdisabled

/-- The loop ends with a check that was passed. -/
theorem awaitHealth_leads (profile : String) (rounds : ℕ) :
    (protocol total).Leads (.on k .started) (awaitHealth env profile rounds)
      (fun health t => .on k (.healthy health.pid) = t) Anyhow := by
  induction rounds with
  | zero => exact .throw trivial
  | succ rounds ih =>
    refine go (poll_leads env) fun _ => ?_
    refine .bind (R := fun first t =>
      first.elim (.on k .started) (fun health => .on k (.healthy health.pid)) = t) ?_ ?_
    · refine tryExcept_leads (E := fun _ t => .on k .started = t) ?_ ?_ fun _ _ => trivial
      · refine .bind (R := fun health t => .on k (.healthy health.pid) = t)
          (checkHealth_leads env profile (fun pid => .on k (.healthy pid)) fun _ => rfl) ?_
        rintro health _ rfl
        exact .pure rfl
      · rintro e _ rfl
        split_ifs
        · refine go (call_leads env) fun _ => goAsk fun _ => goIf fun _ => ?_
          exact go (call_leads env) fun _ => .pure rfl
        · exact raise_leads trivial
    · rintro first _ rfl
      cases first with
      | some health => exact .pure rfl
      | none => exact ih

theorem checkFinal_leads {pid : ℕ} (code : ℤ) : (protocol total).Leads (.on k (.busy pid))
    (checkFinal env code) (fun _ t => .on k (.evident pid) = t) Anyhow := by
  refine go (E := Anyhow) (.did rfl rfl) fun _ => goIf fun hcode => ?_
  rw [if_pos (by simpa using hcode)]
  refine go (call_leads env) fun _ => goAsk fun final => ?_
  cases final with
  | none => exact raise_leads trivial
  | some final =>
    refine go (E := Anyhow) (.did rfl rfl) fun _ => ?_
    refine (require_leads _ _).mono ?_ fun _ _ _ => trivial
    rintro - _ ⟨rfl, hfinal⟩
    rw [if_pos hfinal]

theorem pollIfDue_leads :
    (protocol total).Leads s (pollIfDue env) (fun _ t => s = t) Anyhow := by
  refine goAsk fun due => ?_
  cases due with
  | false => exact .pure rfl
  | true => exact (poll_leads env).mono (fun _ _ h => h) fun _ _ _ => trivial

theorem watchWorkload_leads (profile : String) {pid : ℕ} (rounds lastCount : ℕ) :
    (protocol total).Leads (.on k (.busy pid)) (watchWorkload env profile pid rounds lastCount)
      (fun _ t => .on k (.evident pid) = t) Anyhow := by
  induction rounds generalizing lastCount with
  | zero => exact .throw trivial
  | succ rounds ih =>
    refine go (checkHealth_leads env profile (fun _ => .on k (.busy pid)) fun _ => rfl)
      fun snapshot => ?_
    refine goIf fun _ => go (call_leads env) fun _ => goAsk fun _ => goIf fun _ => ?_
    refine go (call_leads env) fun _ => goAsk fun workers => go (call_leads env) fun _ => ?_
    refine goAsk fun _ => goIf fun _ => go (call_leads env) fun _ => ?_
    refine go (pollIfDue_leads env) fun _ => go (call_leads env) fun _ => goAsk fun code => ?_
    cases code with
    | some code => exact go (checkFinal_leads env code) fun _ => .pure rfl
    | none => exact go (call_leads env) fun _ => ih _

theorem beginRound_leads (args : Args) (index : ℕ) : (protocol total).Leads (.on k .detached)
    (beginRound env args index) (fun _ t => .on k .detached = t) Anyhow := by
  refine .ite (fun _ => ?_) fun _ => .pure rfl
  refine go (runLinuxBaseline_leads env) fun _ => ?_
  exact (save_leads env rfl).mono (fun _ _ h => h) fun _ _ _ => trivial

/-- A phase: its number and place in the round are those of the stage. -/
theorem runPhase_leads (args : Args) {number index : ℕ} {profile : String}
    (hprofile : profiles[index]? = some profile) :
    (protocol total).Leads (.on (6 * number + index) .between)
      (runPhase env args number index profile)
      (fun _ t => .on (6 * number + (index + 1)) .between = t) Anyhow := by
  have hlt : index < 6 := (List.getElem?_eq_some_iff.mp hprofile).1
  have hplace : (6 * number + index) % 6 = index ∧ (6 * number + index) / 6 = number := by omega
  have hselect : (protocol total).next (.on (6 * number + index) .detached)
      (.controls (.profileSet profile)) = some (.on (6 * number + index) .selected) := by
    change (if profiles[(6 * number + index) % 6]? = some profile then some _ else none) = _
    rw [hplace.1, if_pos hprofile]
  have hcomplete : ∀ lastCount pid, (protocol total).next (.on (6 * number + index) (.evident pid))
      (.completes ⟨number + 1, profile, lastCount, pid⟩) =
        some (.on (6 * number + (index + 1)) .between) := by
    intro lastCount pid
    change (if profiles[(6 * number + index) % 6]? = some profile ∧
      number + 1 = (6 * number + index) / 6 + 1 ∧ pid = pid then some _ else none) = _
    rw [hplace.1, hplace.2, if_pos ⟨hprofile, rfl, rfl⟩]
    rfl
  refine go (call_leads env) fun _ => go (poll_leads env) fun _ => go (detach_leads env) fun _ => ?_
  refine go (beginRound_leads env args index) fun _ => go (ctl_leads env hselect) fun _ => ?_
  refine go (t := .on (6 * number + index) .started) (ctl_leads env rfl) fun _ => ?_
  refine goAsk fun rounds => .bind (awaitHealth_leads env profile rounds) ?_
  rintro first _ rfl
  refine go (call_leads env) fun _ => ?_
  refine go (t := .on (6 * number + index) (.busy first.pid)) (E := Anyhow) (.did rfl rfl) ?_
  refine fun _ => go (call_leads env) fun _ => goAsk fun rounds => ?_
  refine go (watchWorkload_leads env profile rounds 0) fun lastCount => ?_
  refine go (poll_leads env) fun _ => ?_
  refine go (checkHealth_leads env profile (fun _ => .on (6 * number + index) (.evident first.pid))
    fun _ => rfl) fun _ => ?_
  refine go (E := Anyhow) (.did (hcomplete lastCount first.pid) rfl) fun _ => ?_
  exact (save_leads env rfl).mono (fun _ _ h => h) fun _ _ _ => trivial

theorem runProfiles_leads (args : Args) (number index : ℕ) (rest : List String)
    (hrest : profiles.drop index = rest) (hindex : index ≤ 6) :
    (protocol total).Leads (.on (6 * number + index) .between)
      (runProfiles env args number index rest)
      (fun _ t => .on (6 * (number + 1)) .between = t) Anyhow := by
  induction rest generalizing index with
  | nil =>
    have hlength := List.drop_eq_nil_iff.mp hrest
    obtain rfl : index = 6 := le_antisymm hindex hlength
    exact .pure rfl
  | cons profile rest ih =>
    have hprofile : profiles[index]? = some profile := by
      rw [← List.head?_drop, hrest]
      rfl
    have hlt : index < 6 := (List.getElem?_eq_some_iff.mp hprofile).1
    refine go (runPhase_leads env args hprofile) fun _ => ih (index + 1) ?_ hlt
    rw [← List.tail_drop, hrest]
    rfl

theorem runRounds_leads (args : Args) (number left : ℕ) :
    (protocol total).Leads (.on (6 * number) .between) (runRounds env args number left)
      (fun _ t => .on (6 * (number + left)) .between = t) Anyhow := by
  induction left generalizing number with
  | zero => exact .pure rfl
  | succ left ih =>
    refine go (runProfiles_leads env args number 0 profiles rfl (Nat.zero_le 6)) fun _ => ?_
    have hnext := ih (number + 1)
    rwa [Nat.succ_add_eq_add_succ] at hnext

theorem soak_leads (rounds : ℕ) : (protocol total).Leads (.on k .between) (soak env rounds)
    (fun _ t => .on k .between = t) Anyhow := by
  induction rounds with
  | zero => exact .throw trivial
  | succ rounds ih =>
    refine go (call_leads env) fun _ => goAsk fun rested => ?_
    cases rested with
    | true => exact .pure rfl
    | false =>
      refine go (poll_leads env) fun _ => ?_
      refine go (checkHealth_leads env "balanced" (fun _ => .on k .between) fun _ => rfl) fun _ => ?_
      exact goAsk fun _ => goIf fun _ => go (call_leads env) fun _ => ih

theorem session_leads (args : Args) :
    (protocol (6 * args.rounds.toNat)).Leads (.on 0 .between) (session env args)
      (fun _ t => .on (6 * args.rounds.toNat) .passed = t) Anyhow := by
  have hrounds : (protocol (6 * args.rounds.toNat)).Leads (.on (6 * 0) .between)
      (runRounds env args 0 args.rounds.toNat)
      (fun _ t => .on (6 * (0 + args.rounds.toNat)) .between = t) Anyhow :=
    runRounds_leads env args 0 args.rounds.toNat
  rw [zero_add] at hrounds
  refine go hrounds fun _ => ?_
  refine go (checkHealth_leads env "balanced" (fun _ => .on (6 * args.rounds.toNat) .between)
    fun _ => rfl) fun _ => ?_
  refine go (call_leads env) fun _ => goAsk fun rounds => go (soak_leads env rounds) fun _ => ?_
  refine go (poll_leads env) fun _ => (save_leads env ?_).mono (fun _ _ h => h) fun _ _ _ => trivial
  exact if_pos rfl

/-! ### Failures -/

theorem saveCopies_leads (names : List String) : (protocol total).Leads .failed
    (saveCopies env names) (fun _ t => .failed = t) Anyhow := by
  induction names with
  | nil => exact .pure rfl
  | cons name names ih =>
    refine go (E := Anyhow) (tryExcept_leads (save_leads env rfl) ?_ fun _ _ => trivial) fun _ => ih
    rintro e _ rfl
    exact (require_leads _ _).mono (fun _ _ h => h.1) fun _ _ _ => trivial

/-- Whatever has gone wrong, nothing is done to the scheduler any more. -/
theorem recordFailure_leads (error : PyError) (s : Stage) :
    (protocol total).Leads s (recordFailure env error) (fun _ _ => False) Anyhow := by
  have hcatch : (protocol total).next s .catches = some .failed := by cases s <;> rfl
  refine go (E := Anyhow) (.did hcatch rfl) fun _ => ?_
  refine go (t := .failed) (E := Anyhow)
    (tryExcept_leads (poll_leads env) (fun e t ht => ?_) fun _ _ => trivial) fun _ => ?_
  · obtain rfl : t = .failed := ht.elim id id
    exact .ite (fun _ => raise_leads trivial) fun _ => .pure rfl
  · refine go (t := .failed) (save_leads env rfl) fun _ => go (saveCopies_leads env _) fun _ => ?_
    exact go (t := .failed) (save_leads env rfl) fun _ => raise_leads trivial

/-- The end of every session that was not killed. -/
theorem final_leads (s : Stage) : (protocol total).Leads s (do
    terminate env
    save env .kernelEvents) (fun _ t => (∃ k, s = .on k .passed) → t = s) Anyhow := by
  obtain ⟨t, ht⟩ : ∃ t, (protocol total).next s .terminates = some t := next_terminates s
  have hsave : (protocol total).next t (.saves .kernelEvents) = some t := by
    cases t with
    | failed => rfl
    | on k mode => cases mode <;> rfl
  refine go (terminate_leads env ht) fun _ => (save_leads env hsave).mono ?_ fun _ _ _ => trivial
  rintro - _ rfl ⟨k, rfl⟩
  exact (Option.some.inj ht).symm

/-- The whole session keeps to the protocol. -/
theorem main_leads (args : Args) : (protocol (6 * args.rounds.toNat)).Leads (.on 0 .between)
    (main env args) (fun _ t => t = .on (6 * args.rounds.toNat) .passed) Anyhow := by
  refine goIf fun _ => go (call_leads env) fun _ => goAsk fun _ => goIf fun _ => ?_
  refine go (call_leads env) fun _ => goAsk fun _ => goIf fun _ => go (call_leads env) fun _ => ?_
  refine go (t := .on 0 .between) (save_leads env rfl) fun _ => ?_
  refine tryFinally_leads (E := Anyhow) (R := fun _ t => t = .on (6 * args.rounds.toNat) .passed)
    (tryExcept_leads ((session_leads env args).mono (fun _ _ h => h.symm) fun _ _ h => h)
      (fun e t _ => (recordFailure_leads env e t).mono (fun _ _ h => h.elim) fun _ _ h => h)
      fun _ h => h) ?_ ?_ fun _ _ => trivial
  · rintro - t rfl
    exact (final_leads env _).mono (fun _ t ht => ht ⟨_, rfl⟩) fun _ _ h => h
  · exact fun e t _ => (final_leads env t).mono (fun _ _ _ => trivial) fun _ _ h => h

end

/-! ### Sessions -/

section
variable (env : Env) (args : Args) {before after : Log}

theorem main_allowed : ∃ stage, (protocol (6 * args.rounds.toNat)).after
    ((main env args).exec []).2 = some stage := (main_leads env args).run

/-- What is not allowed any more after a failure was done in a phase that was fine. -/
theorem done_allowed {d : Deed} (h : ((main env args).exec []).2 = before ++ d :: after)
    (hd : Stage.next (6 * args.rounds.toNat) .failed d = none) :
    ∃ k mode stage, Facts k mode (history before) ∧
      Stage.next (6 * args.rounds.toNat) (.on k mode) d = some stage := by
  obtain ⟨stage, hstage⟩ := main_allowed env args
  rw [h] at hstage
  obtain ⟨t, t', hbefore, hnext⟩ := Protocol.allowed _ hstage
  cases t with
  | failed => exact absurd (hd.symm.trans hnext) (by simp)
  | on k mode => exact ⟨k, mode, t', facts hbefore, hnext⟩

/-- The tool may give this command to the scheduler. -/
structure Guarded (command : Command) (h : History) : Prop where
  quiet : h.quiet = true ∧ h.caught = false
  unloaded : h.running = false
  detached : command ≠ .stop → h.attached = false ∧ h.schedExt = some "disabled"
  selected : command = .start → ∃ profile, profiles[h.completed.length % 6]? = some profile ∧
    h.command = some (.profileSet profile)

def Disciplined (log : Log) : Prop := ∀ before command after,
  log = before ++ .controls command :: after → Guarded command (history before)

/-- In no session is a command given after anything has gone wrong or under load, and none but `stop`
    unless what was attached last has reported a clean stop and Linux is back. -/
theorem controls_guarded : Disciplined ((main env args).exec []).2 := by
  intro before command after h
  obtain ⟨k, mode, stage, hfacts, hnext⟩ := done_allowed env args h rfl
  have hquiet := And.intro hfacts.quiet hfacts.uncaught
  have hholds := hfacts.holds
  have hnext : mode.next (6 * args.rounds.toNat) k (.controls command) = some stage := hnext
  cases mode with
  | known pid =>
    cases command with
    | stop => exact ⟨hquiet, hholds.1, fun hne => absurd rfl hne, by rintro ⟨⟩⟩
    | _ => cases hnext
  | detached =>
    cases command with
    | profileSet profile => exact ⟨hquiet, hholds.1, fun _ => hholds.2, by rintro ⟨⟩⟩
    | _ => cases hnext
  | selected =>
    obtain ⟨hrunning, hattached, hdisabled, hselected⟩ := hholds
    cases command with
    | start =>
      refine ⟨hquiet, hrunning, fun _ => ⟨hattached, hdisabled⟩, fun _ => ?_⟩
      rw [hfacts.length]
      exact hselected
    | _ => cases hnext
  | _ => cases command <;> cases hnext

/-- All phases of all rounds are completed. -/
structure Complete (args : Args) (h : History) : Prop where
  quiet : h.quiet = true ∧ h.caught = false
  length : h.completed.length = 6 * args.rounds.toNat
  inOrder : ∀ i phase, h.completed[i]? = some phase →
    profiles[i % 6]? = some phase.profile ∧ phase.round = i / 6 + 1
  evidence : h.finals.length = 6 * args.rounds.toNat ∧ ∀ final ∈ h.finals, allCompleted final = true

/-- The result is saved only when they are. -/
def Truthful (args : Args) (log : Log) : Prop := ∀ before after,
  log = before ++ .saves .result :: after → Complete args (history before)

theorem result_complete : Truthful args ((main env args).exec []).2 := by
  intro before after h
  obtain ⟨k, mode, stage, hfacts, hnext⟩ := done_allowed env args h rfl
  have hnext : mode.next (6 * args.rounds.toNat) k (.saves .result) = some stage := hnext
  cases mode with
  | between =>
    simp only [Mode.next] at hnext
    split_ifs at hnext with hk
    obtain ⟨hfinals, hall⟩ := hfacts.evidence
    exact ⟨⟨hfacts.quiet, hfacts.uncaught⟩, hfacts.length.trans hk, hfacts.inOrder,
      hfinals.trans hk, hall⟩
  | _ => cases hnext

theorem saved_iff (log : Log) : (history log).saved = true ↔ Deed.saves .result ∈ log := by
  induction log using List.reverseRecOn with
  | nil => simp [history, History.empty]
  | append_singleton log d ih =>
    rw [history_concat, List.mem_append, List.mem_singleton, ← ih]
    cases d with
    | saves file => cases file <;> simp [History.add]
    | _ => simp [History.add]

/-- A session passes only when all phases of all rounds are completed, by all workers, and no poll
    has ever found a watchdog; and a result that is saved says no less. -/
theorem pass_complete : Truthful args ((main env args).exec []).2 ∧
    (((main env args).exec []).1 = .ok () → Deed.saves .result ∈ ((main env args).exec []).2 ∧
      Complete args (history ((main env args).exec []).2)) := by
  refine ⟨result_complete env args, fun hok => ?_⟩
  have hends := main_leads env args [] rfl
  obtain ⟨stage, hstage, hpassed⟩ := hends.ok (Prod.ext hok rfl)
  rw [hpassed] at hstage
  have hfacts : Facts _ .passed (history ((main env args).exec []).2) := facts hstage
  obtain ⟨hfinals, hall⟩ := hfacts.evidence
  exact ⟨(saved_iff _).mp hfacts.holds.2, ⟨hfacts.quiet, hfacts.uncaught⟩, hfacts.length,
    hfacts.inOrder, hfinals, hall⟩

end

/-- A scheduler that does as it is told, and workers that complete one burst. -/
def obedient : Env where
  interrupt _ := none
  outputExists _ := false
  lastRow _ := some ⟨"s=1", "Linux version"⟩
  rows _ := []
  schedExt log := if (history log).command = some .start then "enabled" else "disabled"
  record _ := .ok ⟨some 812, some false, some false, none⟩
  health _ _ := .ok ⟨812, 1⟩
  controlFails _ := false
  progress _ := some ⟨[1, 1], 1, true⟩
  exitCode _ := some 0
  overdue _ := false
  due _ := true
  rested _ := true
  rounds _ := 3

/-- A session of one round passes. -/
example : ((main obedient ⟨1, 5, 20, 2, 5, 5, 1 / 5⟩).exec []).1.isOk = true := by decide +kernel

end CerynthOS.Tools.Stability
