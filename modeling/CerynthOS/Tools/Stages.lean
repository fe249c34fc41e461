import CerynthOS.Tools.Stability

/-! The stages of a session of the stability tool.

    The protocol says what the tool may do when: it switches the scheduler only between workloads,
    starts it only when Linux is back, and does nothing to it after a failure. What the protocol
    allows says a lot about the log that has led there. -/

namespace CerynthOS.Tools.Stability
open Bench Logging

/-! ### The protocol -/

/-- Where a phase is. -/
inductive Mode where
  | between
  | enabled
  | fallenBack
  | known (pid : ℕ)
  | stopped (pid : ℕ)
  | clean
  | detached
  | loaded
  | selected
  | started
  | healthy (pid : ℕ)
  | busy (pid : ℕ)
  | exited (pid : ℕ)
  | evident (pid : ℕ)
  | passed
  deriving DecidableEq

/-- `k` phases are completed, or something has gone wrong. -/
inductive Stage where
  | on (k : ℕ) (mode : Mode)
  | failed
  deriving DecidableEq

/-- What is allowed in a phase, and what follows. -/
def Mode.next (total k : ℕ) : Mode → Deed → Option Stage
  | _, .call => none
  | between, .reads state =>
    if state = "enabled" then some (.on k enabled)
    else if state = "disabled" then some (.on k (if k = 0 then detached else fallenBack))
    else some .failed
  | enabled, .looksUp pid => some (.on k (known pid))
  | known pid, .controls .stop => some (.on k (stopped pid))
  | stopped pid, .records record =>
    some (if checkCleanStop record (some pid) then .on k clean else .failed)
  | clean, .reads state => some (if state = "disabled" then .on k detached else .failed)
  | detached, .reads state => some (if state = "disabled" then .on k detached else .failed)
  | detached, .loads => some (.on k loaded)
  | loaded, .reads state => some (if state = "disabled" then .on k loaded else .failed)
  | loaded, .exits code => some (if code = 0 then .on k detached else .failed)
  | detached, .controls (.profileSet profile) =>
    if profiles[k % 6]? = some profile then some (.on k selected) else none
  | selected, .controls .start => some (.on k started)
  | started, .checks pid => some (.on k (healthy pid))
  | healthy pid, .loads => some (.on k (busy pid))
  | busy pid, .exits code => some (if code = 0 then .on k (exited pid) else .failed)
  | exited pid, .finishes final =>
    some (if allCompleted final then .on k (evident pid) else .failed)
  | evident pid, .completes phase =>
    if profiles[k % 6]? = some phase.profile ∧ phase.round = k / 6 + 1 ∧ phase.pid = pid then
      some (.on (k + 1) between) else none
  | between, .saves .result => if k = total then some (.on k passed) else none
  | _, .saves .result => none
  | mode, .saves _ => some (.on k mode)
  | loaded, .terminates => some .failed
  | busy _, .terminates => some .failed
  | mode, .terminates => some (.on k mode)
  | mode, .checks _ => some (.on k mode)
  | _, _ => none

def Stage.next (total : ℕ) : Stage → Deed → Option Stage
  | _, .catches => some .failed
  | stage, .call => some stage
  | stage, .polls rows => some (if (watchdogRows rows).isEmpty then stage else .failed)
  | .on k mode, d => mode.next total k d
  | .failed, .saves file => if file = .result then none else some .failed
  | .failed, .terminates => some .failed
  | .failed, _ => none

/-- The stages of a session. -/
def protocol (total : ℕ) : Protocol Deed Stage := ⟨.on 0 .between, Stage.next total⟩

/-! ### What the protocol guarantees -/

/-- What is known of the history in each mode of the phase after `k`. -/
def Mode.Holds (k : ℕ) (h : History) : Mode → Prop
  | between => h.running = false ∧ (k = 0 → h.attached = false)
  | enabled => h.running = false
  | known pid => h.running = false ∧ h.pid = some pid
  | stopped pid => h.running = false ∧ h.pid = some pid
  | clean => h.running = false ∧ h.attached = false
  | detached => h.running = false ∧ h.attached = false ∧ h.schedExt = some "disabled"
  | loaded => h.attached = false ∧ h.schedExt = some "disabled"
  | selected => h.running = false ∧ h.attached = false ∧ h.schedExt = some "disabled" ∧
    ∃ profile, profiles[k % 6]? = some profile ∧ h.command = some (.profileSet profile)
  | busy _ => True
  | passed => h.running = false ∧ h.saved = true
  | _ => h.running = false

def Mode.finals : Mode → ℕ
  | evident _ => 1
  | _ => 0

/-- Nothing has gone wrong, and `k` phases are completed, in their order and by all workers. -/
structure Facts (k : ℕ) (mode : Mode) (h : History) : Prop where
  quiet : h.quiet = true
  uncaught : h.caught = false
  length : h.completed.length = k
  inOrder : ∀ i phase, h.completed[i]? = some phase →
    profiles[i % 6]? = some phase.profile ∧ phase.round = i / 6 + 1
  evidence : h.finals.length = k + mode.finals ∧ ∀ final ∈ h.finals, allCompleted final = true
  holds : mode.Holds k h

def Stage.Facts (h : History) : Stage → Prop
  | on k mode => Stability.Facts k mode h
  | failed => True

theorem history_concat (log : Log) (d : Deed) : history (log ++ [d]) = (history log).add d := by
  rw [history, List.foldl_append]
  rfl

namespace Facts

variable {total k : ℕ} {mode mode' : Mode} {h h' : History} {stage : Stage}

/-- Nothing is completed. -/
theorem move (hf : Facts k mode h)
    (hbook : h'.quiet = h.quiet ∧ h'.caught = h.caught ∧ h'.completed = h.completed ∧
      h'.finals = h.finals)
    (hfinals : mode'.finals = mode.finals) (hholds : mode'.Holds k h') : Facts k mode' h' := by
  obtain ⟨hquiet, hcaught, hcompleted, hall⟩ := hbook
  exact ⟨hquiet.trans hf.quiet, hcaught.trans hf.uncaught, by rw [hcompleted, hf.length],
    by rw [hcompleted]; exact hf.inOrder, by rw [hall, hfinals]; exact hf.evidence, hholds⟩

theorem reads (hf : Facts k mode h) {state : String}
    (hd : mode.next total k (.reads state) = some stage) : stage.Facts (h.add (.reads state)) := by
  have hholds := hf.holds
  cases mode with
  | between =>
    obtain ⟨hrunning, hattached⟩ := hholds
    simp only [Mode.next] at hd
    split_ifs at hd with henabled hdisabled hk
    · obtain rfl := Option.some.inj hd
      exact hf.move ⟨rfl, rfl, rfl, rfl⟩ rfl hrunning
    · obtain rfl := Option.some.inj hd
      exact hf.move ⟨rfl, rfl, rfl, rfl⟩ rfl ⟨hrunning, hattached hk, congrArg some hdisabled⟩
    · obtain rfl := Option.some.inj hd
      exact hf.move ⟨rfl, rfl, rfl, rfl⟩ rfl hrunning
    · obtain rfl := Option.some.inj hd
      exact trivial
  | clean =>
    obtain ⟨hrunning, hattached⟩ := hholds
    obtain rfl := Option.some.inj hd
    split_ifs with hdisabled
    · exact hf.move ⟨rfl, rfl, rfl, rfl⟩ rfl ⟨hrunning, hattached, congrArg some hdisabled⟩
    · exact trivial
  | detached =>
    obtain ⟨hrunning, hattached, -⟩ := hholds
    obtain rfl := Option.some.inj hd
    split_ifs with hdisabled
    · exact hf.move ⟨rfl, rfl, rfl, rfl⟩ rfl ⟨hrunning, hattached, congrArg some hdisabled⟩
    · exact trivial
  | loaded =>
    obtain ⟨hattached, -⟩ := hholds
    obtain rfl := Option.some.inj hd
    split_ifs with hdisabled
    · exact hf.move ⟨rfl, rfl, rfl, rfl⟩ rfl ⟨hattached, congrArg some hdisabled⟩
    · exact trivial
  | _ => cases hd

theorem controls (hf : Facts k mode h) {command : Command}
    (hd : mode.next total k (.controls command) = some stage) :
    stage.Facts (h.add (.controls command)) := by
  have hholds := hf.holds
  cases mode with
  | known pid =>
    cases command with
    | stop =>
      obtain rfl := Option.some.inj hd
      exact hf.move ⟨rfl, rfl, rfl, rfl⟩ rfl hholds
    | _ => cases hd
  | detached =>
    cases command with
    | profileSet profile =>
      obtain ⟨hrunning, hattached, hdisabled⟩ := hholds
      simp only [Mode.next] at hd
      split_ifs at hd with hprofile
      obtain rfl := Option.some.inj hd
      exact hf.move ⟨rfl, rfl, rfl, rfl⟩ rfl
        ⟨hrunning, by simp [History.add, hattached], hdisabled, profile, hprofile, rfl⟩
    | _ => cases hd
  | selected =>
    cases command with
    | start =>
      obtain rfl := Option.some.inj hd
      exact hf.move ⟨rfl, rfl, rfl, rfl⟩ rfl hholds.1
    | _ => cases hd
  | _ => cases command <;> cases hd

theorem records (hf : Facts k mode h) {record : SchedulerRecord}
    (hd : mode.next total k (.records record) = some stage) :
    stage.Facts (h.add (.records record)) := by
  have hholds := hf.holds
  cases mode with
  | stopped pid =>
    obtain ⟨hrunning, hpid⟩ := hholds
    obtain rfl := Option.some.inj hd
    split_ifs with hclean
    · refine hf.move ⟨rfl, rfl, rfl, rfl⟩ rfl ⟨hrunning, ?_⟩
      simp [History.add, hpid, hclean]
    · exact trivial
  | _ => cases hd

theorem exits (hf : Facts k mode h) {code : ℤ}
    (hd : mode.next total k (.exits code) = some stage) : stage.Facts (h.add (.exits code)) := by
  have hholds := hf.holds
  cases mode with
  | loaded =>
    obtain rfl := Option.some.inj hd
    split_ifs
    · exact hf.move ⟨rfl, rfl, rfl, rfl⟩ rfl ⟨rfl, hholds⟩
    · exact trivial
  | busy pid =>
    obtain rfl := Option.some.inj hd
    split_ifs
    · exact hf.move ⟨rfl, rfl, rfl, rfl⟩ rfl rfl
    · exact trivial
  | _ => cases hd

theorem finishes (hf : Facts k mode h) {final : BurstRecord}
    (hd : mode.next total k (.finishes final) = some stage) :
    stage.Facts (h.add (.finishes final)) := by
  have hholds := hf.holds
  obtain ⟨hlength, hall⟩ := hf.evidence
  cases mode with
  | exited pid =>
    obtain rfl := Option.some.inj hd
    split_ifs with hfinal
    · refine ⟨hf.quiet, hf.uncaught, hf.length, hf.inOrder, ⟨?_, fun other hother => ?_⟩, hholds⟩
      · simp [History.add, hlength, Mode.finals]
      · rcases List.mem_append.mp hother with hother | hother
        · exact hall other hother
        · rw [List.mem_singleton.mp hother]
          exact hfinal
    · exact trivial
  | _ => cases hd

theorem completes (hf : Facts k mode h) {phase : Phase}
    (hd : mode.next total k (.completes phase) = some stage) :
    stage.Facts (h.add (.completes phase)) := by
  have hholds := hf.holds
  obtain ⟨hlength, hall⟩ := hf.evidence
  cases mode with
  | evident pid =>
    simp only [Mode.next] at hd
    split_ifs at hd with hphase
    obtain rfl := Option.some.inj hd
    refine ⟨hf.quiet, hf.uncaught, ?_, fun i other hother => ?_, ⟨hlength, hall⟩, hholds, ?_⟩
    · simp [History.add, hf.length]
    · have hother : (h.completed ++ [phase])[i]? = some other := hother
      rcases lt_or_ge i h.completed.length with hlt | hge
      · rw [List.getElem?_append_left hlt] at hother
        exact hf.inOrder i other hother
      · rw [List.getElem?_append_right hge, List.getElem?_singleton] at hother
        split_ifs at hother with hi
        obtain rfl := Option.some.inj hother
        obtain rfl : i = k := by rw [← hf.length]; omega
        exact ⟨hphase.1, hphase.2.1⟩
    · exact fun hk => absurd hk (Nat.succ_ne_zero k)
  | _ => cases hd

theorem next (hf : Facts k mode h) {d : Deed} (hd : mode.next total k d = some stage) :
    stage.Facts (h.add d) := by
  have hholds := hf.holds
  cases d with
  | call => cases mode <;> cases hd
  | polls rows => cases mode <;> cases hd
  | reads state => exact hf.reads hd
  | looksUp pid =>
    cases mode with
    | enabled =>
      obtain rfl := Option.some.inj hd
      exact hf.move ⟨rfl, rfl, rfl, rfl⟩ rfl ⟨hholds, rfl⟩
    | _ => cases hd
  | controls command => exact hf.controls hd
  | records record => exact hf.records hd
  | loads =>
    cases mode with
    | detached =>
      obtain rfl := Option.some.inj hd
      exact hf.move ⟨rfl, rfl, rfl, rfl⟩ rfl hholds.2
    | healthy pid =>
      obtain rfl := Option.some.inj hd
      exact hf.move ⟨rfl, rfl, rfl, rfl⟩ rfl trivial
    | _ => cases hd
  | exits code => exact hf.exits hd
  | checks pid =>
    cases mode with
    | started =>
      obtain rfl := Option.some.inj hd
      exact hf.move ⟨rfl, rfl, rfl, rfl⟩ rfl hholds
    | _ =>
      obtain rfl := Option.some.inj hd
      exact hf
  | finishes final => exact hf.finishes hd
  | completes phase => exact hf.completes hd
  | saves file =>
    cases file with
    | result =>
      cases mode with
      | between =>
        simp only [Mode.next] at hd
        split_ifs at hd
        obtain rfl := Option.some.inj hd
        exact hf.move ⟨rfl, rfl, rfl, rfl⟩ rfl ⟨hholds.1, rfl⟩
      | _ => cases hd
    | _ =>
      have hsame : stage = .on k mode := by cases mode <;> exact (Option.some.inj hd).symm
      rw [hsame]
      exact hf
  | terminates =>
    cases mode with
    | loaded =>
      obtain rfl := Option.some.inj hd
      exact trivial
    | busy pid =>
      obtain rfl := Option.some.inj hd
      exact trivial
    | _ =>
      obtain rfl := Option.some.inj hd
      exact hf
  | catches => cases mode <;> cases hd

end Facts

theorem Stage.Facts.next {total : ℕ} {stage stage' : Stage} {h : History} (hf : stage.Facts h)
    {d : Deed} (hd : stage.next total d = some stage') : stage'.Facts (h.add d) := by
  cases stage with
  | failed =>
    cases d with
    | polls rows =>
      simp only [Stage.next] at hd
      split_ifs at hd <;> obtain rfl := Option.some.inj hd <;> exact trivial
    | saves file =>
      simp only [Stage.next] at hd
      split_ifs at hd
      obtain rfl := Option.some.inj hd
      exact trivial
    | call | terminates | catches =>
      obtain rfl := Option.some.inj hd
      exact trivial
    | _ => cases hd
  | on k mode =>
    have hf : Stability.Facts k mode h := hf
    cases d with
    | catches =>
      obtain rfl := Option.some.inj hd
      exact trivial
    | call =>
      obtain rfl := Option.some.inj hd
      exact hf
    | polls rows =>
      obtain rfl := Option.some.inj hd
      split_ifs with hrows
      · refine ⟨?_, hf.uncaught, hf.length, hf.inOrder, hf.evidence, ?_⟩
        · simp [History.add, hf.quiet, hrows]
        · cases mode <;> exact hf.holds
      · exact trivial
    | _ => exact hf.next hd

/-- What the stage tells holds of the log that leads to it. -/
theorem facts {total : ℕ} {log : Log} {stage : Stage}
    (h : (protocol total).after log = some stage) : stage.Facts (history log) := by
  refine Protocol.after_induction (I := fun stage log => stage.Facts (history log)) _ ?_ ?_ h
  · exact ⟨rfl, rfl, rfl, by simp [history, History.empty], ⟨rfl, by simp [history, History.empty]⟩,
      rfl, fun _ => rfl⟩
  · intro stage log d stage' hf hd
    rw [history_concat]
    exact hf.next hd

end CerynthOS.Tools.Stability
