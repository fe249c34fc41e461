import CerynthOS.Tools.Conduct

/-! The sessions of the validation driver.

    Every piece of the script keeps to the guards, however it ends. So a session that exits with
    zero has passed all its phases, what a report says of the runtime is true, and nothing is started
    or handed out once the driver cleans up. -/

namespace CerynthOS.Tools.Driver
open Shell Logging

section
variable (env : Env) {d : Bool} {s t : History} {E : ℕ → Prop} (hE : Signals env E)

include hE

/-! ### Phases -/

/-- All has gone well so far. -/
structure Ready (done : List (Command × ℕ)) (h : History) : Prop where
  cleaning : h.cleaning = false
  mutated : h.vars.mutated = true
  running : h.running = []
  rule : h.rule = false
  files : h.files.Updated
  milestones : h.milestones = done

variable (hfails : ∀ n, n ≠ 0 → E n) {done : List (Command × ℕ)}

include hfails

/-- A phase that comes to its end has passed. -/
theorem phase_leads (p : Phase) (hs : Ready done s) : (protocol d).Leads s (phase env p)
    (fun _ t => Ready (done ++ passed p) t) fun n _ => E n := by
  have hrule : (protocol d).Leads s (onlyIf p.controls (createControlRule env))
      (fun _ t => ∃ rule v, { s with rule := rule, vars := v } = t ∧ v.mutated = true ∧
        (p.controls = false → rule = false)) fun n _ => E n := by
    refine onlyIf_leads (fun hc => ?_) fun _ => ⟨s.rule, s.vars, rfl, hs.mutated, fun _ => hs.rule⟩
    refine (createControlRule_leads env hE hfails hs.cleaning hs.running hs.rule).imp ?_
    rintro - _ rfl
    exact ⟨true, _, rfl, hs.mutated, fun h => absurd (hc.symm.trans h) (by simp)⟩
  refine .bind hrule ?_
  rintro - _ ⟨rule, v, rfl, hmutated, hplaced⟩
  refine go (setVars_leads (by simp) id) fun _ => go (otherMust_leads env hE hfails) fun _ => ?_
  refine .bind (anyway_leads env hE (c := .launch p)
    ⟨hs.cleaning, hmutated, hs.running, by simp, hplaced⟩) ?_
  rintro - _ ⟨-, rfl⟩
  refine go (setVars_leads (List.Subset.refl _) id) fun _ => ?_
  refine .bind (run_leads env hE (c := .wait p) trivial) ?_
  rintro status _ rfl
  refine go (setVars_leads (List.Subset.refl _) id) fun _ => ?_
  refine go (checkSampler_leads env hE p) fun sampled => ?_
  refine .bind (stopValidationUnits_leads env hE) ?_
  rintro gone _ ⟨act, rfl, -⟩
  refine .bind (redirected_leads env hE (removeControlRule_leads env hE rfl) fun h => by cases h) ?_
  rintro revoked t hrevoked
  refine .bind (test_leads env hE (c := .verify p) trivial) ?_
  rintro verified _ ⟨n, rfl, rfl⟩
  refine (Shell.leaveIf_leads fun hn => hfails _ hn).imp ?_
  rintro - _ ⟨rfl, hn⟩
  split_ifs at hn with hall
  -- only now is it known that the rule was taken back
  simp only [Bool.and_eq_true, beq_iff_eq] at hall
  obtain ⟨⟨-, hgone⟩, hverified⟩ := hall
  obtain rfl := hrevoked hgone
  subst hn hverified
  refine ⟨hs.cleaning, hmutated, rfl, rfl, hs.files, ?_⟩
  simp [History.ran, History.note, passed, hs.milestones]

/-- The new binaries are in place. -/
theorem install_leads (hcleaning : s.cleaning = false) (hmutated : s.vars.mutated = true)
    (hrunning : s.running = []) (hrule : s.rule = false) (hfiles : s.files.Previous)
    (hmilestones : s.milestones = []) :
    (protocol d).Leads s (Shell.mustAll env.toWorld [.stopServices, .install .cerynthd,
      .deploy .cerynthd, .install .cerynthScx, .deploy .cerynthScx, .startServices])
      (fun _ t => Ready [] t) fun n _ => E n := by
  refine (Shell.mustAll_leads (f := History.ran)
    (I := fun t => t.cleaning = false ∧ t.vars.mutated = true ∧ t.running = []) ?_
    (fun t _ => hE.allows t) (fun n _ hn => hfails n hn) ⟨hcleaning, hmutated, hrunning⟩).imp ?_
  · rintro t ⟨hc, hm, hr⟩ c hmem n
    simp only [List.mem_cons, List.not_mem_nil, or_false] at hmem
    rcases hmem with rfl | rfl | rfl | rfl | rfl | rfl
    all_goals exact ⟨next_ran (by simp [History.MayRun, hc, hm, hr]), hc, hm, hr⟩
  · rintro - _ ⟨-, rfl⟩
    refine ⟨hcleaning, hmutated, hrunning, hrule, ⟨fun b => ?_, hfiles.config⟩, hmilestones⟩
    cases b <;> simp [History.ran, Files.ran, Function.update]

/-- A session that comes to its end under the traps has passed all its phases. -/
theorem transaction_leads (hcleaning : s.cleaning = false) (hrunning : s.running = [])
    (hrule : s.rule = false) (hfiles : s.files.Previous) (hmilestones : s.milestones = []) :
    (protocol d).Leads s (transaction env d) (fun _ t => Ready (milestones d) t)
      fun n _ => E n := by
  refine .bind (R := fun _ t => ∃ x, { s with healthy := x } = t) (redirected_leads env hE
    ((healthy_leads env hE).imp ?_) ⟨s.healthy, rfl⟩) ?_
  · rintro b _ ⟨x, rfl, -⟩
    exact ⟨x, rfl⟩
  rintro - _ ⟨x, rfl⟩
  refine go (otherMust_leads env hE hfails) fun _ => ?_
  refine go (setVars_leads (List.Subset.refl _) fun _ => rfl) fun _ => ?_
  refine .bind (install_leads env hE hfails hcleaning rfl hrunning hrule hfiles hmilestones) ?_
  rintro - t ht
  refine go (succeed_leads hfails ((startSampler_leads env hE hfails))) fun _ => ?_
  refine .bind (succeed_leads hfails (waitHealthy_leads env hE hfails)) ?_
  rintro - _ ⟨y, rfl⟩
  refine go (succeed_leads hfails (ctl_leads env hE fun _ _ => otherMust_leads env hE hfails))
    fun _ => go (otherMustAll_leads env hE hfails (by simp)) fun _ => ?_
  have hready : Ready [] { t with
      saved := t.saved.requested, vars := { t.vars with sampler := true }, healthy := y } :=
    ⟨ht.cleaning, ht.mutated, ht.running, ht.rule, ht.files, ht.milestones⟩
  cases d with
  | true => exact phase_leads env hE hfails .diagnostic hready
  | false =>
    have hgate : ∀ {c : Command} {u : History} {done}, Ready done u → u.MayRun false c →
        u.ran c 0 = { u with milestones := u.milestones ++ [(c, 0)] } →
        (protocol false).Leads u (must env c) (fun _ t => Ready (done ++ [(c, 0)]) t)
          fun n _ => E n := by
      intro c u done hu hc hran
      refine (must_leads env hE hfails hc).imp ?_
      rintro - _ rfl
      rw [hran]
      exact ⟨hu.cleaning, hu.mutated, hu.running, hu.rule, hu.files, by rw [hu.milestones]⟩
    refine .bind (phase_leads env hE hfails .smoke hready) fun _ u hu => ?_
    refine .bind (hgate hu trivial rfl) fun _ u hu => ?_
    refine .bind (phase_leads env hE hfails .stability hu) fun _ u hu => ?_
    refine .bind (hgate hu trivial rfl) fun _ u hu => go (stopSampler_leads env hE) fun _ => ?_
    have hstopped : Ready _ { u with vars := { u.vars with sampler := false } } :=
      ⟨hu.cleaning, hu.mutated, hu.running, hu.rule, hu.files, hu.milestones⟩
    refine .bind (phase_leads env hE hfails .adaptive hstopped) fun _ u hu => ?_
    refine .bind (phase_leads env hE hfails .matrix hu) fun _ u hu => ?_
    exact hgate hu trivial rfl

/-! ### The end -/

omit hfails

omit hE in
theorem Recovery.Holds.keep {r : Recovery} {code code' : ℕ} (hr : r.Holds code s)
    (hcode : code' = 0 → code = 0) (hmutated : t.vars.mutated = s.vars.mutated)
    (hfiles : t.files = s.files) (hsaved : t.saved = s.saved ∨ t.saved = s.saved.requested)
    (hhealthy : t.healthy = s.healthy) (hoff : s.off = true → t.off = true) : r.Holds code' t := by
  cases r with
  | unchanged => exact ⟨hmutated.trans hr.1, hfiles ▸ hr.2⟩
  | updatedDaemonBalanced => exact ⟨hfiles ▸ hr.1, hhealthy.trans hr.2⟩
  | previousFilesLinuxDefault =>
    obtain ⟨hprevious, hrestored, hdisabled⟩ := hr
    rw [hrestored.requested, or_self] at hsaved
    exact ⟨hfiles ▸ hprevious, hsaved ▸ hrestored, hoff hdisabled⟩
  | linuxDefaultRestoreFailed | failed => exact fun h => hr (hcode h)

/-- What becomes of the runtime is what is said of it. -/
theorem recover_leads (hcleaning : s.cleaning = true) (hrunning : s.running = []) {code : ℕ}
    (hcode : code = 0 → s.vars.mutated = true ∧ s.files.Updated) :
    (protocol d).Leads s (recover env d code)
      (fun r t => ∃ files saved x y,
        { s with files := files, saved := saved, off := x, healthy := y } = t ∧ r.2.Holds r.1 t ∧
          (r.1 = 0 → code = 0 ∧
            r.2 = if d then .previousFilesLinuxDefault else .updatedDaemonBalanced))
      fun n _ => E n := by
  refine .assume sound fun hsound => goVars ?_
  cases hm : s.vars.mutated with
  | false =>
    exact .pure ⟨s.files, s.saved, s.off, s.healthy, rfl, ⟨hm, hsound.untouched hm⟩,
      fun h => absurd (hm.symm.trans (hcode h).1) (by simp)⟩
  | true =>
    refine .ite (fun h => absurd h (by simp)) fun _ => ?_
    refine .bind (R := fun b t => ∃ y, { s with healthy := y } = t ∧
      (b = true → code = 0 ∧ d = false ∧ y = true)) (both_leads
      (R := fun b t => s = t ∧ b = (code == 0 && !d)) (.pure ⟨rfl, rfl⟩) ?_ ?_) ?_
    · rintro _ ⟨rfl, hb⟩
      refine redirected_leads env hE ((healthy_leads env hE).imp ?_)
        ⟨s.healthy, rfl, by simp⟩
      simp only [Bool.true_eq, Bool.and_eq_true, beq_iff_eq, Bool.not_eq_true'] at hb
      rintro b _ ⟨y, rfl, hy⟩
      exact ⟨y, rfl, fun h => ⟨hb.1, hb.2, hy h⟩⟩
    · rintro _ ⟨rfl, -⟩
      exact ⟨s.healthy, rfl, by simp⟩
    · rintro b _ ⟨y, rfl, hb⟩
      cases b with
      | true =>
        obtain ⟨hzero, hd, hy⟩ := hb rfl
        exact .pure ⟨s.files, s.saved, s.off, y, rfl, ⟨(hcode hzero).2, hy⟩,
          fun _ => ⟨hzero, by simp [hd]⟩⟩
      | false =>
        have hclear : Clearing { s with healthy := y } := ⟨hcleaning, hm, hrunning⟩
        refine go (captureFailure_leads env hE) fun _ => .bind (linuxFallback_leads env hE hclear) ?_
        rintro off _ ⟨saved, x, rfl⟩
        have hclear : Clearing { s with saved := saved, healthy := y, off := x } :=
          ⟨hcleaning, hm, hrunning⟩
        cases off with
        | false =>
          exact .pure ⟨s.files, saved, x, y, rfl, one_ne_zero, fun h => absurd h one_ne_zero⟩
        | true =>
          refine .bind (restorePreviousRuntime_leads env hE hclear) ?_
          rintro restored _ ⟨files, saved, z, rfl, hrestored⟩
          cases restored with
          | false =>
            exact .pure ⟨files, saved, z, y, rfl, one_ne_zero, fun h => absurd h one_ne_zero⟩
          | true =>
            refine .pure ⟨files, saved, z, y, rfl, hrestored rfl, fun h => ?_⟩
            cases d with
            | true => exact ⟨by simpa using h, rfl⟩
            | false => by_cases hz : code = 0 <;> simp [hz] at h

theorem restoreAllocatorSetting_leads (expected : String) :
    (protocol d).Leads s (restoreAllocatorSetting env expected) (fun _ t => s = t)
      fun n _ => E n := by
  refine .ite (fun _ => ?_) fun _ => .pure rfl
  refine goAsk fun observed => go (other_leads env hE) fun _ => go (t := s) ?_ fun written => ?_
  · exact .ite (fun _ => otherTest_leads env hE) fun _ => .pure rfl
  · cases written with
    | false => exact .pure rfl
    | true => exact goAsk fun _ => go (other_leads env hE) fun _ => .pure rfl

theorem checkAllocator_leads : (protocol d).Leads s (checkAllocator env)
    (fun _ t => ∃ x, { s with off := s.off || x } = t) fun n _ => E n := by
  refine go (otherTest_leads env hE) fun saved => ?_
  cases saved with
  | false => exact .pure ⟨false, by simp⟩
  | true =>
    refine goAsk fun _ => go (other_leads env hE) fun _ => goAsk fun expected => ?_
    refine go (other_leads env hE) fun _ => .bind (disabled_leads env hE) ?_
    rintro off _ rfl
    cases off with
    | false => exact go (other_leads env hE) fun _ => .pure ⟨false, rfl⟩
    | true =>
      refine go (restoreAllocatorSetting_leads env hE expected) fun _ => goAsk fun _ => ?_
      exact go (other_leads env hE) fun _ => go (other_leads env hE) fun _ => .pure ⟨true, rfl⟩

/-- The report is true, and the exit code is the one that is reported. -/
theorem cleanupIgnoring_leads (hcleaning : s.cleaning = true) {code : ℕ} (hcode : code = 0 →
      s.vars.mutated = true ∧ s.files.Updated ∧ s.milestones = milestones d) :
    (protocol d).Leads s (cleanupIgnoring env d code)
      (fun n t => n = 0 → ∃ r, t.reported = some r ∧ r.exitCode = 0) fun n _ => E n := by
  refine goVars (go (onlyIf_leads (fun _ => captureFailure_leads env hE) fun _ => rfl) fun _ => ?_)
  refine .bind (stopValidationUnits_leads env hE) ?_
  rintro gone _ ⟨act, rfl, hgone⟩
  refine go (stopSampler_leads env hE) fun _ => go (other_leads env hE) fun _ => ?_
  refine .bind (test_leads env hE (c := .compareBaseline) trivial) ?_
  rintro unchanged _ ⟨n, rfl, rfl⟩
  refine .bind (recover_leads env hE ?_ ?_ fun h => ?_) ?_
  · exact hcleaning
  · rfl
  · split_ifs at h
    exact ⟨(hcode h).1, (hcode h).2.1⟩
  rintro ⟨code', r⟩ _ ⟨files, saved, x, y, rfl, hholds, hzero⟩
  refine .bind (checkAllocator_leads env hE) ?_
  rintro fits _ ⟨z, rfl⟩
  refine .bind (R := fun _ t => ∃ later, { s with
      running := [], active := act, vars := { s.vars with launcher := false, sampler := false }
      baseline := n == 0, files := files, saved := later, off := x || z, healthy := y } = t ∧
    (later = saved ∨ later = saved.requested)) (redirected_leads env hE
      ((ctl_leads env hE fun _ _ => other_leads env hE).imp ?_) ⟨saved, rfl, .inl rfl⟩) ?_
  · rintro - _ rfl
    exact ⟨_, rfl, .inr rfl⟩
  rintro - _ ⟨later, rfl, hlater⟩
  refine go (other_leads env hE) fun _ => go (other_leads env hE) fun _ => ?_
  refine .bind (revoke_leads env hE rfl) ?_
  rintro absent _ rfl
  refine go (other_leads env hE) fun _ => go (other_leads env hE) fun _ => ?_
  refine go (other_leads env hE) fun _ => go (other_leads env hE) fun _ => ?_
  refine go (otherTest_leads env hE) fun valid => ?_
  refine .bind (anyway_leads env hE ⟨hcleaning, rfl, hgone, (Bool.not_not absent).symm, rfl, ?_,
    fun h => ?_⟩) ?_
  · refine hholds.keep (fun h => ?_) rfl rfl hlater rfl fun h =>
      Bool.or_eq_true_iff.mpr (.inl h)
    split_ifs at h
    exact h
  · split_ifs at h with hfine
    obtain ⟨hcode', hr⟩ := hzero h
    split_ifs at hcode' with hsame
    simp only [Bool.and_eq_true] at hfine hsame
    exact ⟨hsame.1, hfine.1.2, hsame.2, (hcode hcode').2.2, hr⟩
  · rintro - _ ⟨-, rfl⟩
    exact go (other_leads env hE) fun _ => go (other_leads env hE) fun _ =>
      .pure fun h => ⟨_, rfl, h⟩

/-! ### The whole driver -/

include hfails

omit hfails in
theorem configureValidation_leads (options : Options) :
    (protocol d).Leads s (configureValidation env options) (fun _ t => s = t) fun n _ => E n := by
  refine .ite (fun _ => both_leads (R := fun _ t => s = t) (otherChain_leads env hE (by simp)) ?_
    fun _ h => h) fun _ => .pure rfl
  rintro _ rfl
  exact .ite (fun _ => otherChain_leads env hE (by simp)) fun _ => .pure rfl

/-- Before the traps are set nothing is changed, and the rule is seen to be absent. -/
theorem prepare_leads (diagnosticOnly : Bool) :
    (protocol d).Leads .initial (prepare env diagnosticOnly) (fun _ t => t.cleaning = false ∧
      t.running = [] ∧ t.rule = false ∧ t.files.Previous ∧ t.milestones = []) fun n _ => E n := by
  refine go (otherMust_leads env hE hfails) fun _ => .bind (seeRule_leads env hE) ?_
  rintro present _ rfl
  refine .bind (Shell.leaveIf_leads fun hn => hfails _ hn) ?_
  rintro - _ ⟨rfl, hn⟩
  have habsent : present = false := by simpa using hn
  refine go (otherMustAll_leads env hE hfails (by simp)) fun _ => ?_
  refine go (onlyIf_leads (fun _ => otherMust_leads env hE hfails) fun _ => rfl) fun _ => ?_
  refine go (otherMust_leads env hE hfails) fun _ => ?_
  refine go (succeed_leads hfails (otherTest_leads env hE)) fun _ => ?_
  refine go (otherMustAll_leads env hE hfails (by simp)) fun _ => ?_
  refine go (setVars_leads (List.Subset.refl _) fun h => by cases h) fun _ => ?_
  refine go (otherMustAll_leads env hE hfails (by simp)) fun _ => ?_
  refine go (otherTest_leads env hE) fun existed => ?_
  have hprevious : History.initial.files.Previous := ⟨fun _ => rfl, rfl⟩
  cases existed with
  | false => exact .pure ⟨rfl, rfl, habsent, hprevious, rfl⟩
  | true =>
    refine go (otherMust_leads env hE hfails) fun _ => ?_
    refine (setVars_leads (List.Subset.refl _) id).imp ?_
    rintro - _ rfl
    exact ⟨rfl, rfl, habsent, hprevious, rfl⟩

omit hE hfails

/-- An exit code of zero is one that is reported. -/
def Reported (n : ℕ) (h : History) : Prop := n = 0 → ∃ r, h.reported = some r ∧ r.exitCode = 0

theorem cleanup_leads (hcleaning : s.cleaning = true) {code : ℕ} (hcode : code = 0 →
      s.vars.mutated = true ∧ s.files.Updated ∧ s.milestones = milestones d) :
    (protocol d).Leads s (cleanup env d code) (fun _ _ => False) Reported := by
  have hsilent : Signals env.ignoring fun _ => False :=
    allows_ignoring (E := fun _ _ => False) (s := s)
  refine .bind (takeSignal_leads fun log status _ h => absurd h status.ne_zero) ?_
  rintro - _ rfl
  refine .bind ((cleanupIgnoring_leads env.ignoring hsilent hcleaning hcode).mono
    (fun _ _ h => h) fun _ _ h => h.elim) ?_
  rintro n t ht
  exact .throw ht

/-- The whole driver keeps to the guards. -/
theorem main_leads {args : List String} {options : Options}
    (hargs : parseArguments .initial args = some options) :
    (protocol options.diagnosticOnly).Leads .initial (main env args) (fun _ _ => False)
      Reported := by
  have hE : Signals env (· ≠ 0) := fun _ status _ => status.ne_zero
  have hfails : ∀ n, n ≠ 0 → n ≠ 0 := fun _ h => h
  have hfailed : ∀ n (t : History), n ≠ 0 → Reported n t := fun _ _ hn h => absurd h hn
  rw [main, hargs]
  refine .bind ((succeed_leads hfails
    (configureValidation_leads env hE options)).mono (fun _ _ h => h) hfailed) ?_
  rintro - _ rfl
  refine .bind ((prepare_leads env hE hfails _).mono (fun _ _ h => h) hfailed) ?_
  rintro - t ⟨hcleaning, hrunning, hrule, hfiles, hmilestones⟩
  refine onExit_leads (transaction_leads env hE hfails hcleaning hrunning hrule hfiles hmilestones)
    (fun _ _ => Protocol.guarded_next trivial) (fun u hu => ?_) fun n u hn => ?_
  · exact cleanup_leads env rfl fun _ => ⟨hu.mutated, hu.files, hu.milestones⟩
  · exact cleanup_leads env rfl fun h => absurd h hn

end

/-! ### Sessions -/

theorem reported_mem {d : Bool} {log : Log} {h : History} {r : Report}
    (hlog : (protocol d).after log = some h) (hr : h.reported = some r) :
    ∃ before n after, log = before ++ .ran (.report r) n :: after := by
  refine Protocol.after_induction _ (I := fun h log => h.reported = some r →
    ∃ before n after, log = before ++ .ran (.report r) n :: after) ?_ ?_ hlog hr
  · rintro ⟨⟩
  · intro h log deed h' ih hnext hr
    obtain ⟨-, rfl⟩ := Protocol.guarded_next_iff.mp hnext
    have hkept : h.reported = some r → ∃ before n after,
        log ++ [deed] = before ++ .ran (.report r) n :: after := by
      intro hr
      obtain ⟨before, n, after, rfl⟩ := ih hr
      exact ⟨before, n, after ++ [deed], by simp⟩
    cases deed with
    | ran c n =>
      cases c with
      | report r' =>
        obtain rfl : r' = r := Option.some.inj hr
        exact ⟨log, n, [], rfl⟩
      | _ => exact hkept hr
    | _ => exact hkept hr

section
variable (env : Env) (args : List String)

/-- The log of a session follows the guards, if there is anything in it. -/
theorem main_allowed : ((main env args).exec []).2 = [] ∨
    ∃ options, parseArguments .initial args = some options ∧
      ∃ h, (protocol options.diagnosticOnly).after ((main env args).exec []).2 = some h := by
  cases hargs : parseArguments .initial args with
  | none =>
    rw [main, hargs]
    exact .inl rfl
  | some options => exact .inr ⟨options, rfl, (main_leads env hargs).run⟩

theorem ran_allowed {before after : Log} {c : Command} {n : ℕ}
    (h : ((main env args).exec []).2 = before ++ .ran c n :: after) :
    ∃ options, parseArguments .initial args = some options ∧
      (history before).MayRun options.diagnosticOnly c := by
  rcases main_allowed env args with hnil | ⟨options, hargs, t, ht⟩
  · rw [hnil] at h
    simp at h
  · rw [h] at ht
    obtain ⟨u, u', hbefore, hnext⟩ := Protocol.allowed _ ht
    have hu : history before = u := Protocol.guarded_after hbefore
    rw [hu]
    exact ⟨options, hargs, (Protocol.guarded_next_iff.mp hnext).1⟩

/-- Every report in the log is true. -/
def ReportsTruthful (args : List String) (log : Log) : Prop := ∀ before r n after,
  log = before ++ .ran (.report r) n :: after →
    ∃ options, parseArguments .initial args = some options ∧
      r.Truthful options.diagnosticOnly (history before)

/-- What a session reports is true, whatever has failed in it: the files of the runtime are the old
    ones, or the new ones, as it says, or the exit code is not zero. -/
theorem reports_truthful : ReportsTruthful args ((main env args).exec []).2 := by
  intro before r n after h
  obtain ⟨options, hargs, hmay⟩ := ran_allowed env args h
  exact ⟨options, hargs, hmay.2⟩

/-- All that a session is for has been achieved. -/
structure Passed (diagnosticOnly : Bool) (h : History) : Prop where
  milestones : h.milestones = milestones diagnosticOnly
  units : h.running = [] ∧ h.active = []
  rule : h.rule = false
  baseline : h.baseline = true
  runtime : if diagnosticOnly then h.files.Previous ∧ h.saved.Restored ∧ h.off = true
    else h.files.Updated ∧ h.healthy = true

theorem Report.Truthful.passed_zero {d : Bool} {h : History} {r : Report} (hr : r.Truthful d h)
    (hzero : r.exitCode = 0) : Passed d h := by
  obtain ⟨hworkloads, habsent, hbaseline, hmilestones, hrecovery⟩ := hr.passed hzero
  refine ⟨hmilestones, ⟨hr.stopped, hr.workloads hworkloads⟩, ?_, ?_, ?_⟩
  · simpa [habsent] using hr.rule
  · rw [← hr.baseline, hbaseline]
  · have hholds := hr.recovery
    rw [hrecovery] at hholds
    cases d <;> exact hholds

/-- An exit code of zero is reported, by a session that has passed. -/
def ZeroPasses (args : List String) (result : Except ℕ Unit × Log) : Prop :=
  result.1 = .error 0 → ∃ options, parseArguments .initial args = some options ∧
    ∃ before r n after, result.2 = before ++ .ran (.report r) n :: after ∧ r.exitCode = 0 ∧
      Passed options.diagnosticOnly (history before)

/-- The driver exits with zero only if all phases have passed, in their order, nothing of theirs is
    left and the runtime is as it should be. -/
theorem zero_passes : ZeroPasses args ((main env args).exec []) := by
  intro hzero
  cases hargs : parseArguments .initial args with
  | none =>
    rw [main, hargs] at hzero
    cases hzero
  | some options =>
    have hends := main_leads env hargs [] rfl
    obtain ⟨h, hlog, hreported⟩ := hends.error (Prod.ext hzero rfl)
    obtain ⟨r, hr, hcode⟩ := hreported rfl
    obtain ⟨before, n, after, hmem⟩ := reported_mem hlog hr
    obtain ⟨options', hargs', hmay⟩ := ran_allowed env args hmem
    obtain rfl : options = options' := Option.some.inj (hargs.symm.trans hargs')
    exact ⟨options, rfl, before, r, n, after, hmem, hcode, hmay.2.passed_zero hcode⟩

/-- A system on which all goes well: no command fails, no unit stays, no signal comes. -/
def calm : Env where
  status c _ := match c with
    | .isActive _ | .other "response has a cross" | .other "[[ -e cgroup.events ]]" => 1
    | _ => 0
  signal _ := none
  session := "cerynth-validation"
  schedExt _ := "disabled"
  rulePresent _ := false
  controlGroup _ _ := ""
  setting _ := "0"
  settingBackup _ := "0"

/-- Such a session passes. -/
example : ((main calm ["--source", "/src", "--run-user", "dev", "--baseline", "/old"]).exec []).1 =
    .error 0 := by decide +kernel

/-- What puts the new runtime into use. -/
def Command.starts : Command → Bool
  | install _ | deploy _ | startServices | launch _ | placeRule => true
  | _ => false

/-- What puts the old runtime back. -/
def Command.restores : Command → Bool
  | fetch _ | putBack _ | restoreConfig | restoreState | removeState | killDaemon => true
  | _ => false

/-- A command has its place in the session. -/
structure InPlace (h : History) (c : Command) : Prop where
  starts : c.starts = true → h.cleaning = false ∧ h.running = []
  restores : c.restores = true → h.cleaning = true ∧ h.vars.mutated = true ∧ h.running = []
  removed : c = .removeRule → h.running = []
  placed : c = .placeRule → h.rule = false
  unprivileged : c = .launch .adaptive → h.rule = false

def Disciplined (log : Log) : Prop := ∀ before c n after,
  log = before ++ .ran c n :: after → InPlace (history before) c

/-- In no session is anything installed, started, launched or handed out once the driver cleans up,
    or while a unit runs; and every unit is asked to stop before the rule is taken back or a file of
    the old runtime is. The phase that needs no rule runs without one. -/
theorem commands_disciplined : Disciplined ((main env args).exec []).2 := by
  intro before c n after h
  obtain ⟨options, -, hmay⟩ := ran_allowed env args h
  cases c with
  | install b | deploy b | startServices =>
    exact ⟨fun _ => ⟨hmay.1, hmay.2.2⟩, by rintro ⟨⟩, by rintro ⟨⟩, by rintro ⟨⟩, by rintro ⟨⟩⟩
  | launch p =>
    refine ⟨fun _ => ⟨hmay.1, hmay.2.2.1⟩, by rintro ⟨⟩, by rintro ⟨⟩, by rintro ⟨⟩, ?_⟩
    rintro ⟨⟩
    exact hmay.2.2.2.2 rfl
  | placeRule =>
    exact ⟨fun _ => ⟨hmay.1, hmay.2.1⟩, by rintro ⟨⟩, by rintro ⟨⟩, fun _ => hmay.2.2,
      by rintro ⟨⟩⟩
  | removeRule => exact ⟨by rintro ⟨⟩, by rintro ⟨⟩, fun _ => hmay, by rintro ⟨⟩, by rintro ⟨⟩⟩
  | fetch b | putBack b | restoreConfig | restoreState | removeState | killDaemon =>
    exact ⟨by rintro ⟨⟩, fun _ => hmay, by rintro ⟨⟩, by rintro ⟨⟩, by rintro ⟨⟩⟩
  | _ => exact ⟨by rintro ⟨⟩, by rintro ⟨⟩, by rintro ⟨⟩, by rintro ⟨⟩, by rintro ⟨⟩⟩

end

end CerynthOS.Tools.Driver
