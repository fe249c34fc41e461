import CerynthOS.Tools.Transaction

/-! The functions of the validation driver keep to the guards.

    Each of them leads from one history to others, whatever its commands come to; under `set -e` it
    may also end the script. -/

namespace CerynthOS.Tools.Driver
open Shell Logging

/-- The traps of the signals end the script in a way that is fine. -/
def Signals (env : Env) (E : ℕ → Prop) : Prop :=
  ∀ log (status : ℕ+), env.signal log = some status → E status

theorem Signals.allows {env : Env} {E : ℕ → Prop} (h : Signals env E) (s : History) :
    Allows env.toWorld (fun n _ => E n) s := h

section
variable (env : Env) {d : Bool} {s t : History} {E : ℕ → Prop} {c : Command} {w : String}

variable (hE : Signals env E)

/-! ### Commands -/

theorem next_ran {n : ℕ} (h : s.MayRun d c) : (protocol d).next s (.ran c n) = some (s.ran c n) :=
  Protocol.guarded_next h

section
variable {α β : Type} {x : Script α} {f : α → Script β} {R : β → History → Prop}

/-- One thing after the other. -/
theorem go (hx : (protocol d).Leads s x (fun _ t' => t = t') fun n _ => E n)
    (hf : ∀ a, (protocol d).Leads t (f a) R fun n _ => E n) :
    (protocol d).Leads s (x >>= f) R fun n _ => E n := by
  refine .bind hx ?_
  rintro a _ rfl
  exact hf a

theorem goAsk {answer : Log → α} (hf : ∀ a, (protocol d).Leads s (f a) R fun n _ => E n) :
    (protocol d).Leads s (ask answer >>= f) R fun n _ => E n :=
  go (.ask fun _ _ => rfl) hf

theorem goVars {f : Vars → Script β} (hf : (protocol d).Leads s (f s.vars) R fun n _ => E n) :
    (protocol d).Leads s (ask vars >>= f) R fun n _ => E n := by
  refine .bind (R := fun v t => s = t ∧ v = s.vars) (.ask fun log hlog => ⟨rfl, ?_⟩) ?_
  · rw [vars_eq, ← Protocol.guarded_after hlog]
    rfl
  · rintro _ _ ⟨rfl, rfl⟩
    exact hf

end

theorem setVars_leads {f : Vars → Vars} (hunits : s.vars.units ⊆ (f s.vars).units)
    (hmutated : s.vars.mutated = true → (f s.vars).mutated = true) :
    (protocol d).Leads s (setVars f) (fun _ t => { s with vars := f s.vars } = t)
      fun n _ => E n :=
  goVars (.did (Protocol.guarded_next ⟨hunits, hmutated⟩) rfl)

include hE

theorem run_leads (h : s.MayRun d c) :
    (protocol d).Leads s (run env c) (fun n t => s.ran c n = t) fun n _ => E n :=
  Shell.run_leads (fun _ => next_ran h) fun _ => hE.allows _

theorem test_leads (h : s.MayRun d c) : (protocol d).Leads s (test env c)
    (fun b t => ∃ n, s.ran c n = t ∧ b = (n == 0)) fun n _ => E n :=
  Shell.test_leads (fun _ => next_ran h) fun _ => hE.allows _

theorem anyway_leads (h : s.MayRun d c) :
    (protocol d).Leads s (anyway env c) (fun _ t => ∃ n, s.ran c n = t) fun n _ => E n :=
  Shell.anyway_leads (fun _ => next_ran h) fun _ => hE.allows _

theorem must_leads (hfails : ∀ n, n ≠ 0 → E n) (h : s.MayRun d c) :
    (protocol d).Leads s (must env c) (fun _ t => s.ran c 0 = t) fun n _ => E n :=
  Shell.must_leads (fun _ => next_ran h) (fun _ => hE.allows _) fun n hn => hfails n hn

theorem otherTest_leads : (protocol d).Leads s (test env (.other w)) (fun _ t => s = t)
    fun n _ => E n := by
  refine (test_leads env hE (c := .other w) trivial).imp ?_
  rintro _ _ ⟨n, rfl, -⟩
  rfl

theorem other_leads : (protocol d).Leads s (anyway env (.other w)) (fun _ t => s = t)
    fun n _ => E n := by
  refine (anyway_leads env hE (c := .other w) trivial).imp ?_
  rintro _ _ ⟨n, rfl⟩
  rfl

theorem otherMust_leads (hfails : ∀ n, n ≠ 0 → E n) :
    (protocol d).Leads s (must env (.other w)) (fun _ t => s = t) fun n _ => E n :=
  must_leads env hE hfails trivial

omit hE in
theorem others_run {commands : List Command} (h : ∀ c ∈ commands, ∃ w, c = .other w) :
    Runs (protocol d) History.ran (s = ·) commands := by
  rintro _ rfl c hc n
  obtain ⟨w, rfl⟩ := h c hc
  exact ⟨next_ran trivial, rfl⟩

theorem otherChain_leads {commands : List Command} (h : ∀ c ∈ commands, ∃ w, c = .other w) :
    (protocol d).Leads s (Shell.chain env.toWorld commands) (fun _ t => s = t) fun n _ => E n :=
  (Shell.chain_leads (others_run h) (fun t _ => hE.allows t) rfl).imp fun _ _ h => h.1

theorem otherMustAll_leads (hfails : ∀ n, n ≠ 0 → E n) {commands : List Command}
    (h : ∀ c ∈ commands, ∃ w, c = .other w) :
    (protocol d).Leads s (Shell.mustAll env.toWorld commands) (fun _ t => s = t) fun n _ => E n :=
  (Shell.mustAll_leads (others_run h) (fun t _ => hE.allows t) (fun n _ hn => hfails n hn) rfl).imp
    fun _ _ h => h.1

/-! ### Looking at the system -/

theorem disabled_leads : (protocol d).Leads s (disabled env)
    (fun b t => { s with off := s.off || b } = t) fun n _ => E n := by
  refine goAsk fun state => .bind (anyway_leads env hE trivial) ?_
  rintro - _ ⟨n, rfl⟩
  exact .pure rfl

theorem seeRule_leads : (protocol d).Leads s (seeRule env)
    (fun b t => { s with rule := b } = t) fun n _ => E n := by
  refine goAsk fun present => .bind (anyway_leads env hE trivial) ?_
  rintro - _ ⟨n, rfl⟩
  exact .pure rfl

theorem redirected_leads {file : String} {x : Script Bool} {Q : Bool → History → Prop}
    (hx : (protocol d).Leads s x Q fun n _ => E n) (hfalse : Q false s) :
    (protocol d).Leads s (redirected env file x) Q fun n _ => E n := by
  refine both_leads (R := fun _ t => s = t) (otherTest_leads env hE) ?_ ?_
  · rintro _ rfl
    exact hx
  · rintro _ rfl
    exact hfalse

theorem ctl_leads {print : Command → Script Unit} {words : String}
    (hprint : ∀ t w, (protocol d).Leads t (print (.other w)) (fun _ t' => t = t') fun n _ => E n) :
    (protocol d).Leads s (ctl env print words)
      (fun _ t => { s with saved := s.saved.requested } = t) fun n _ => E n := by
  refine .bind (test_leads env hE (c := .request words) trivial) ?_
  rintro answered _ ⟨n, rfl, -⟩
  exact go (hprint _ _) fun _ => go (otherTest_leads env hE) fun _ => .pure rfl

theorem healthy_leads : (protocol d).Leads s (healthy env)
    (fun b t => ∃ x, { s with healthy := x } = t ∧ (b = true → x = true)) fun n _ => E n := by
  refine (Shell.chain_leads (f := History.ran) (I := fun t => ∃ x, { s with healthy := x } = t) ?_
    (fun t _ => hE.allows t) ⟨s.healthy, rfl⟩).imp ?_
  · rintro _ ⟨x, rfl⟩ c hc n
    rcases List.mem_cons.mp hc with rfl | hc
    · exact ⟨next_ran trivial, x, rfl⟩
    · obtain rfl := List.mem_singleton.mp hc
      exact ⟨next_ran trivial, n == 0, rfl⟩
  · rintro b _ ⟨⟨x, rfl⟩, hb⟩
    exact ⟨x, rfl, fun h => (congrArg History.healthy (hb h)).symm⟩

theorem waitHealthy_leads (hfails : ∀ n, n ≠ 0 → E n) : (protocol d).Leads s (waitHealthy env)
    (fun _ t => ∃ x, { s with healthy := x } = t) fun n _ => E n := by
  refine .bind (R := fun _ t => ∃ x, { s with healthy := x } = t) (Protocol.Leads.retry
    (I := fun t => ∃ x, { s with healthy := x } = t) ?_ (fun _ h => h) 20 ⟨s.healthy, rfl⟩)
    fun _ _ h => .pure h
  rintro _ ⟨x, rfl⟩
  refine .bind (R := fun _ t => ∃ x, { s with healthy := x } = t) (redirected_leads env hE
    ((healthy_leads env hE).imp ?_) ⟨x, rfl⟩) ?_
  · rintro b _ ⟨y, rfl, -⟩
    exact ⟨y, rfl⟩
  · rintro b _ ⟨y, rfl⟩
    cases b with
    | true => exact .pure ⟨fun _ _ => ⟨y, rfl⟩, fun h => by cases h⟩
    | false =>
      refine go (otherMust_leads env hE hfails) fun _ => .pure ⟨?_, fun _ => ⟨y, rfl⟩⟩
      rintro a ⟨⟩

/-! ### Workload units -/

theorem controlGroup_leads (unit : Phase) : (protocol d).Leads s (controlGroup env unit)
    (fun _ t => s = t) fun n _ => E n := by
  refine goAsk fun cg => go (otherTest_leads env hE) fun known => ?_
  cases known <;> exact .pure rfl

theorem populated_leads : (protocol d).Leads s (populated env) (fun _ t => s = t) fun n _ => E n :=
  otherChain_leads env hE (by simp)

theorem killGroup_leads : (protocol d).Leads s (killGroup env) (fun _ t => s = t)
    fun n _ => E n := by
  refine go (populated_leads env hE) fun left => ?_
  cases left with
  | false => exact .pure rfl
  | true =>
    refine go (other_leads env hE) fun _ => go (otherTest_leads env hE) fun writable => ?_
    cases writable with
    | false => exact .pure rfl
    | true => exact other_leads env hE

theorem awaitEmpty_leads : (protocol d).Leads s (awaitEmpty env) (fun _ t => s = t)
    fun n _ => E n := by
  refine go (Protocol.Leads.retry (I := (s = ·)) ?_ (fun _ h => h) 10 rfl) fun _ => .pure rfl
  rintro _ rfl
  refine go (populated_leads env hE) fun left => ?_
  cases left with
  | false => exact .pure ⟨fun _ _ => rfl, fun h => by cases h⟩
  | true => exact go (other_leads env hE) fun _ => .pure ⟨fun _ h => (by cases h), fun _ => rfl⟩

theorem isActive_leads (unit : Phase) : (protocol d).Leads s (test env (.isActive unit))
    (fun b t => ∃ act, { s with active := act } = t ∧ act ⊆ s.active ∧ (b = false → unit ∉ act))
    fun n _ => E n := by
  refine (test_leads env hE (c := .isActive unit) trivial).imp ?_
  rintro _ _ ⟨n, rfl, rfl⟩
  refine ⟨if n = 0 then s.active else s.active.filter (· ≠ unit), rfl, ?_, fun hn => ?_⟩
  · split_ifs
    · exact List.Subset.refl _
    · exact List.filter_subset_self _
  · rw [if_neg (by simpa using hn)]
    simp

/-- What is left of the units, after some of them were asked to stop. -/
def History.without (h : History) (units active : List Phase) : History :=
  { h with running := h.running.filter (· ∉ units), active := active }

theorem stopUnit_leads (unit : Phase) : (protocol d).Leads s (stopUnit env unit)
    (fun b t => ∃ act, s.without [unit] act = t ∧ act ⊆ s.active ∧ (b = true → unit ∉ act))
    fun n _ => E n := by
  refine go (otherTest_leads env hE) fun known => go (controlGroup_leads env hE unit) fun cg => ?_
  refine go (other_leads env hE) fun _ => .bind (anyway_leads env hE trivial) ?_
  rintro - _ ⟨n, rfl⟩
  have hstop : s.ran (.stopUnit unit) n = s.without [unit] s.active := by
    simp [History.ran, History.note, History.without, Files.ran, Saved.ran]
  rw [hstop]
  have hactive : ∀ b, (protocol d).Leads (s.without [unit] s.active) (do
      let active ← test env (.isActive unit)
      return known && b && !active)
      (fun b t => ∃ act, s.without [unit] act = t ∧ act ⊆ s.active ∧ (b = true → unit ∉ act))
      fun n _ => E n := by
    intro b
    refine .bind (isActive_leads env hE unit) ?_
    rintro active _ ⟨act, rfl, hsub, hact⟩
    exact .pure ⟨act, rfl, hsub, fun h => hact (by simpa using (Bool.and_eq_true_iff.mp h).2)⟩
  refine .ite (fun _ => by simpa using hactive true) fun _ => .ite (fun _ => ?_) fun _ => ?_
  · exact go (other_leads env hE) fun _ => .pure ⟨s.active, rfl, List.Subset.refl _, by simp⟩
  · refine go (killGroup_leads env hE) fun _ => go (awaitEmpty_leads env hE) fun _ => ?_
    exact go (populated_leads env hE) fun left => hactive (!left)

theorem stopUnits_leads (units : List Phase) : (protocol d).Leads s (stopUnits env units)
    (fun b t => ∃ act, s.without units act = t ∧ act ⊆ s.active ∧
      (b = true → ∀ unit ∈ units, unit ∉ act)) fun n _ => E n := by
  induction units generalizing s with
  | nil => exact .pure ⟨s.active, by simp [History.without], List.Subset.refl _, by simp⟩
  | cons unit units ih =>
    refine .bind (stopUnit_leads env hE unit) ?_
    rintro gone _ ⟨act, rfl, hsub, hgone⟩
    refine .bind ih ?_
    rintro rest _ ⟨act', rfl, hsub', hrest⟩
    refine .pure ⟨act', ?_, List.Subset.trans hsub' hsub, fun h => ?_⟩
    · simp [History.without, List.filter_filter, Bool.and_comm]
    · rw [Bool.and_eq_true] at h
      rintro u hu hact
      rcases List.mem_cons.mp hu with rfl | hu
      · exact hgone h.1 (hsub' hact)
      · exact hrest h.2 u hu hact

theorem stopValidationUnits_leads : (protocol d).Leads s (stopValidationUnits env)
    (fun b t => ∃ act, { s with
        running := [], active := act, vars := { s.vars with launcher := false } } = t ∧
      (b = true → act = [])) fun n _ => E n := by
  refine .assume sound fun hs => goVars ?_
  refine go (t := { s with vars := { s.vars with launcher := false } }) (onlyIf_leads ?_ ?_)
    fun _ => goVars ?_
  · exact fun _ => go (other_leads env hE) fun _ => go (other_leads env hE) fun _ =>
      setVars_leads (List.Subset.refl _) id
  · intro hl
    rw [← hl]
  · refine .bind (stopUnits_leads env hE s.vars.units) ?_
    rintro gone _ ⟨act, rfl, hsub, hgone⟩
    refine go (other_leads env hE) fun _ => .pure ⟨act, ?_, fun h => ?_⟩
    · have hnone : s.running.filter (· ∉ s.vars.units) = [] := by
        simpa using fun u hu => hs.running hu
      simp only [History.without, hnone]
    · exact List.eq_nil_iff_forall_not_mem.mpr fun u hu =>
        hgone h u (hs.active (hsub hu)) hu

/-! ### Going back -/

/-- The driver may change the runtime while it cleans up. -/
structure Clearing (h : History) : Prop where
  cleaning : h.cleaning = true
  mutated : h.vars.mutated = true
  running : h.running = []

theorem linuxFallback_leads (hs : Clearing s) : (protocol d).Leads s (linuxFallback env)
    (fun _ t => ∃ saved x, { s with saved := saved, off := x } = t) fun n _ => E n := by
  have hkill : ∀ saved x, (protocol d).Leads { s with saved := saved, off := x }
      (anyway env .killDaemon) (fun _ t => ∃ saved x, { s with saved := saved, off := x } = t)
      fun n _ => E n := by
    intro saved x
    refine (anyway_leads env hE (c := .killDaemon) ?_).imp ?_
    · exact ⟨hs.cleaning, hs.mutated, hs.running⟩
    · rintro - _ ⟨-, rfl⟩
      exact ⟨saved, x, rfl⟩
  refine .bind (R := fun _ t => ∃ saved, { s with saved := saved } = t) ((anyway_leads env hE
    (c := .stopServices) ⟨hs.mutated, hs.running⟩).imp ?_) ?_
  · rintro - _ ⟨n, rfl⟩
    exact ⟨_, rfl⟩
  rintro - _ ⟨saved, rfl⟩
  refine .bind (disabled_leads env hE) ?_
  rintro off _ rfl
  refine .bind (R := fun _ t => ∃ saved x, { s with saved := saved, off := x } = t)
    (onlyIf_leads (fun _ => hkill _ _) fun _ => ⟨_, _, rfl⟩) ?_
  · rintro - _ ⟨saved, x, rfl⟩
    refine .bind (R := fun _ t => ∃ saved x, { s with saved := saved, off := x } = t)
      (Protocol.Leads.retry (I := fun t => ∃ saved x, { s with saved := saved, off := x } = t) ?_
        (fun _ h => h) 20 ⟨saved, x, rfl⟩) fun _ _ h => .pure h
    rintro _ ⟨saved, x, rfl⟩
    refine .bind (disabled_leads env hE) ?_
    rintro b _ rfl
    cases b with
    | true => exact .pure ⟨fun _ _ => ⟨_, _, rfl⟩, fun h => by cases h⟩
    | false =>
      refine go (other_leads env hE) fun _ => .pure ⟨?_, fun _ => ⟨_, _, rfl⟩⟩
      rintro a ⟨⟩

theorem restorePreviousRuntime_leads (hs : Clearing s) :
    (protocol d).Leads s (restorePreviousRuntime env)
      (fun b t => ∃ files saved x, { s with files := files, saved := saved, off := x } = t ∧
        (b = true → files.Previous ∧ saved.Restored ∧ x = true)) fun n _ => E n := by
  refine goVars (both_leads (R := fun b t => ∃ files saved x,
    { s with files := files, saved := saved, off := x } = t ∧
    (b = true → files.Previous ∧ saved.Restored)) ((Shell.chain_leads (f := History.ran)
    (I := fun t => ∃ files saved x, { s with files := files, saved := saved, off := x } = t) ?_
    (fun t _ => hE.allows t) ⟨s.files, s.saved, s.off, rfl⟩).imp ?_) ?_ ?_)
  · rintro _ ⟨files, saved, x, rfl⟩ c hc n
    simp only [List.mem_cons, List.not_mem_nil, or_false] at hc
    cases hexisted : s.vars.stateExisted <;> rw [hexisted] at hc
    all_goals
      rcases hc with rfl | rfl | rfl | rfl | rfl | rfl | rfl | rfl | rfl | rfl
      all_goals exact ⟨next_ran (by simp [History.MayRun, hs.cleaning, hs.mutated, hs.running]),
        _, _, _, rfl⟩
  · rintro b _ ⟨⟨files, saved, x, rfl⟩, hb⟩
    refine ⟨files, saved, x, rfl, fun h => ?_⟩
    obtain rfl := congrArg History.files (hb h)
    obtain rfl := congrArg History.saved (hb h)
    cases hexisted : s.vars.stateExisted
    all_goals
      refine ⟨⟨fun b => ?_, rfl⟩, ?_, ?_⟩
      · cases b <;> simp [History.ran, Files.ran, Function.update]
      · simp [History.ran, History.note, Saved.ran, hexisted]
      · simp [History.ran, Saved.ran]
  · rintro _ ⟨files, saved, x, rfl, hfiles⟩
    refine (disabled_leads env hE).imp ?_
    rintro b _ rfl
    exact ⟨files, saved, _, rfl, fun h => ⟨(hfiles rfl).1, (hfiles rfl).2, by simp [h]⟩⟩
  · rintro _ ⟨files, saved, x, rfl, -⟩
    exact ⟨files, saved, x, rfl, by simp⟩

theorem captureFile_leads (name : String) : (protocol d).Leads s (captureFile env name)
    (fun _ t => s = t) fun n _ => E n :=
  go (otherTest_leads env hE) fun _ => onlyIf_leads (fun _ => other_leads env hE) fun _ => rfl

theorem captureFailure_leads : (protocol d).Leads s (captureFailure env) (fun _ t => s = t)
    fun n _ => E n := by
  refine go (other_leads env hE) fun _ => go (other_leads env hE) fun _ => ?_
  refine go (other_leads env hE) fun _ => go (captureFile_leads env hE _) fun _ => ?_
  refine go (captureFile_leads env hE _) fun _ => go (captureFile_leads env hE _) fun _ => ?_
  exact other_leads env hE

/-! ### The temporary rule -/

theorem createControlRule_leads (hfails : ∀ n, n ≠ 0 → E n) (hcleaning : s.cleaning = false)
    (hrunning : s.running = []) (hrule : s.rule = false) :
    (protocol d).Leads s (createControlRule env)
      (fun _ t => { s with
        rule := true, vars := { s.vars with ruleTemp := false, ruleCreated := true } } = t)
      fun n _ => E n := by
  refine go (otherMust_leads env hE hfails) fun _ => ?_
  refine go (setVars_leads (List.Subset.refl _) id) fun _ => ?_
  refine go (otherMust_leads env hE hfails) fun _ => ?_
  refine go (otherMust_leads env hE hfails) fun _ => ?_
  refine go (otherMust_leads env hE hfails) fun _ => ?_
  refine go (setVars_leads (List.Subset.refl _) id) fun _ => ?_
  refine .bind (must_leads env hE hfails (c := .placeRule) ⟨hcleaning, hrunning, hrule⟩) ?_
  rintro - _ rfl
  refine go (otherTest_leads env hE) fun placed => ?_
  cases placed with
  | true => exact setVars_leads (List.Subset.refl _) id
  | false =>
    exact go (setVars_leads (List.Subset.refl _) id) fun _ => .throw (hfails 1 one_ne_zero)

theorem removeControlRule_leads (hrunning : s.running = []) :
    (protocol d).Leads s (removeControlRule env) (fun b t => b = true →
      { s with rule := false, vars := { s.vars with ruleCreated := false } } = t)
      fun n _ => E n := by
  refine goVars (.bind (R := fun _ t => ∃ rule,
    { s with rule := rule, vars := { s.vars with ruleCreated := false } } = t)
    (onlyIf_leads (fun _ => ?_) fun hc => ?_) ?_)
  · refine .bind (anyway_leads env hE (c := .removeRule) hrunning) ?_
    rintro - _ ⟨n, rfl⟩
    exact (setVars_leads (List.Subset.refl _) id).imp fun _ _ h => ⟨_, h⟩
  · exact ⟨s.rule, by rw [← hc]⟩
  · rintro - _ ⟨rule, rfl⟩
    refine .bind (seeRule_leads env hE) ?_
    rintro present _ rfl
    cases present with
    | true => exact .pure fun h => by cases h
    | false =>
      refine go (other_leads env hE) fun _ => (otherTest_leads env hE).imp ?_
      rintro b _ rfl -
      rfl

theorem revoke_leads (hrunning : s.running = []) : (protocol d).Leads s (revoke env)
    (fun b t => { s with rule := !b } = t) fun n _ => E n := by
  refine goVars (.bind (R := fun _ t => ∃ rule, { s with rule := rule } = t)
    (onlyIf_leads (fun _ => ?_) fun _ => ⟨s.rule, rfl⟩) ?_)
  · refine (anyway_leads env hE (c := .removeRule) hrunning).imp ?_
    rintro - _ ⟨n, rfl⟩
    exact ⟨_, rfl⟩
  · rintro - _ ⟨rule, rfl⟩
    refine goVars (go (onlyIf_leads (fun _ => other_leads env hE) fun _ => rfl) fun _ => ?_)
    refine .bind (seeRule_leads env hE) ?_
    rintro present _ rfl
    exact .pure (by simp)

/-! ### The stack sampler -/

theorem stopSampler_leads : (protocol d).Leads s (stopSampler env)
    (fun _ t => { s with vars := { s.vars with sampler := false } } = t) fun n _ => E n := by
  refine goVars (onlyIf_leads (fun _ => ?_) fun hc => ?_)
  · exact go (other_leads env hE) fun _ => go (other_leads env hE) fun _ =>
      setVars_leads (List.Subset.refl _) id
  · rw [← hc]

theorem startSampler_leads (hfails : ∀ n, n ≠ 0 → E n) : (protocol d).Leads s (startSampler env)
    (fun _ t => { s with vars := { s.vars with sampler := true } } = t) fun n _ => E n := by
  refine go (other_leads env hE) fun _ => go (setVars_leads (List.Subset.refl _) id) fun _ => ?_
  refine go (Protocol.Leads.retry (I := ({ s with vars := { s.vars with sampler := true } } = ·)) ?_
    (fun _ h => h) 40 rfl) fun _ => .pure rfl
  rintro _ rfl
  refine go (otherTest_leads env hE) fun found => ?_
  cases found with
  | true => exact .pure ⟨fun _ _ => rfl, fun h => by cases h⟩
  | false =>
    refine go (otherTest_leads env hE) fun alive => ?_
    cases alive with
    | true =>
      exact go (otherMust_leads env hE hfails) fun _ => .pure ⟨fun _ h => (by cases h), fun _ => rfl⟩
    | false => exact .pure ⟨fun _ _ => rfl, fun h => by cases h⟩

theorem samplerAlive_leads : (protocol d).Leads s (samplerAlive env) (fun _ t => s = t)
    fun n _ => E n := by
  refine goVars (.ite (fun _ => otherTest_leads env hE) fun _ => .pure rfl)

theorem checkSampler_leads (p : Phase) : (protocol d).Leads s (checkSampler env p)
    (fun _ t => s = t) fun n _ => E n :=
  .ite (fun _ => samplerAlive_leads env hE) fun _ => .pure rfl

omit hE in
theorem succeed_leads (hfails : ∀ n, n ≠ 0 → E n) {x : Script Bool} {R : Bool → History → Prop}
    (hx : (protocol d).Leads s x R fun n _ => E n) :
    (protocol d).Leads s (succeed x) (fun _ t => R true t) fun n _ => E n := by
  refine .bind hx fun b t hb => ?_
  refine (Shell.leaveIf_leads fun hn => hfails _ hn).imp ?_
  rintro - _ ⟨rfl, hn⟩
  cases b with
  | true => exact hb
  | false => cases hn

end

end CerynthOS.Tools.Driver
