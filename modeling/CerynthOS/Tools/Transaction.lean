import CerynthOS.Tools.Driver

/-! What a session of the validation driver comes to.

    The guard of a deed says what the driver must not do: hand out the rule of sudo while a unit
    runs, put files back before the units are stopped, or start anything once it cleans up. Every
    piece of the script keeps to that, however it ends; and a report that is written is true. -/

namespace CerynthOS.Tools.Driver
open Shell Logging

/-! ### Histories -/

/-- What a file of the runtime holds, compared with the backup and with what was built. -/
inductive Version where
  | previous
  | updated
  | unknown
  deriving DecidableEq

/-- What is installed. -/
structure Files where
  binary : Binary → Version
  config : Version

namespace Files

/-- A comparison or a copy that has failed says nothing of the file. -/
def ran (files : Files) : Command → ℕ → Files
  | .deploy b, n => { files with
      binary := Function.update files.binary b (if n = 0 then .updated else .unknown) }
  | .putBack b, _ => { files with binary := Function.update files.binary b .unknown }
  | .compare b, n => { files with
      binary := Function.update files.binary b (if n = 0 then .previous else .unknown) }
  | .restoreConfig, _ => { files with config := .unknown }
  | .compareConfig, n => { files with config := if n = 0 then .previous else .unknown }
  | _, _ => files

/-- The binaries and the configuration are as they were. -/
structure Previous (files : Files) : Prop where
  binary : ∀ b, files.binary b = .previous
  config : files.config = .previous

/-- The new binaries are in place, with the configuration as it was. -/
structure Updated (files : Files) : Prop where
  binary : ∀ b, files.binary b = .updated
  config : files.config = .previous

end Files

/-- What the state file holds, which is the daemon's own, and whether the daemon may be running. -/
structure Saved where
  state : Version
  daemon : Bool

namespace Saved

/-- The daemon saves its state for every request. -/
def requested (saved : Saved) : Saved :=
  if saved.daemon then { saved with state := .unknown } else saved

/-- A unit makes requests of its own. The file is restored either by a copy or by taking it away,
    which lasts only if the daemon is stopped. -/
def ran (stateExisted : Bool) (saved : Saved) : Command → ℕ → Saved
  | .request _, _ | .launch _, _ => saved.requested
  | .stopServices, n => { saved with daemon := saved.daemon && n != 0 }
  | .startServices, _ => ⟨.unknown, true⟩
  | .restoreState, n => { saved with
      state := if n = 0 ∧ stateExisted = true ∧ saved.daemon = false then .previous
        else .unknown }
  | .removeState, n => { saved with
      state := if n = 0 ∧ stateExisted = false ∧ saved.daemon = false then .previous
        else .unknown }
  | _, _ => saved

/-- The state file is as it was, and the daemon is stopped. -/
structure Restored (saved : Saved) : Prop where
  state : saved.state = .previous
  stopped : saved.daemon = false

/-- Nobody answers a request. -/
theorem Restored.requested {saved : Saved} (h : saved.Restored) : saved.requested = saved := by
  simp [Saved.requested, h.stopped]

end Saved

/-- What the driver has done so far. `rule` is whether the rule of sudo may be there, `running` are
    the units that were not asked to stop since they were launched, `active` those not found
    inactive since, and `off` is whether sched_ext was found off since the configuration was last
    compared. -/
structure History where
  vars : Vars
  files : Files
  saved : Saved
  rule : Bool
  running : List Phase
  active : List Phase
  off : Bool
  healthy : Bool
  baseline : Bool
  cleaning : Bool
  milestones : List (Command × ℕ)
  reported : Option Report

namespace History

def initial : History :=
  ⟨.initial, ⟨fun _ => .previous, .previous⟩, ⟨.unknown, true⟩, true, [], [], false, false, false,
    false, [], none⟩

/-- What a command changes beside the files and the daemon. -/
def note (h : History) : Command → ℕ → History
  | .healthy, n => { h with healthy := n == 0 }
  | .compareConfig, _ => { h with off := false }
  | .compareBaseline, n => { h with baseline := n == 0 }
  | .readState state, _ => { h with off := h.off || state == "disabled" }
  | .launch p, _ => { h with running := p :: h.running, active := p :: h.active }
  | .stopUnit p, _ => { h with running := h.running.filter (· ≠ p) }
  | .isActive p, n => { h with active := if n = 0 then h.active else h.active.filter (· ≠ p) }
  | .placeRule, _ => { h with rule := true }
  | .removeRule, n => { h with rule := h.rule && n != 0 }
  | .seeRule present, _ => { h with rule := present }
  | .report r, _ => { h with reported := some r }
  | .wait p, n => { h with milestones := h.milestones ++ [(.wait p, n)] }
  | .verify p, n => { h with milestones := h.milestones ++ [(.verify p, n)] }
  | .smokeGate, n => { h with milestones := h.milestones ++ [(.smokeGate, n)] }
  | .stabilityGates, n => { h with milestones := h.milestones ++ [(.stabilityGates, n)] }
  | .observe, n => { h with milestones := h.milestones ++ [(.observe, n)] }
  | _, _ => h

def ran (h : History) (c : Command) (n : ℕ) : History :=
  { h.note c n with files := h.files.ran c n, saved := h.saved.ran h.vars.stateExisted c n }

def add (h : History) : Deed → History
  | .ran c n => h.ran c n
  | .sets v => { h with vars := v }
  | .exits _ => { h with cleaning := true }

end History

def history (log : Log) : History := log.foldl History.add .initial

/-! ### Guards -/

def passed (p : Phase) : List (Command × ℕ) := [(.wait p, 0), (.verify p, 0)]

/-- What a session has to achieve, in this order. -/
def milestones : Bool → List (Command × ℕ)
  | true => passed .diagnostic
  | false => passed .smoke ++ [(.smokeGate, 0)] ++ passed .stability ++ [(.stabilityGates, 0)] ++
      passed .adaptive ++ passed .matrix ++ [(.observe, 0)]

/-- What is said to have become of the runtime has become of it. -/
def Recovery.Holds (code : ℕ) (h : History) : Recovery → Prop
  | unchanged => h.vars.mutated = false ∧ h.files.Previous
  | updatedDaemonBalanced => h.files.Updated ∧ h.healthy = true
  | previousFilesLinuxDefault => h.files.Previous ∧ h.saved.Restored ∧ h.off = true
  | linuxDefaultRestoreFailed | failed => code ≠ 0

/-- A report is true, and says that all went well only if it did. -/
structure Report.Truthful (diagnosticOnly : Bool) (h : History) (r : Report) : Prop where
  stopped : h.running = []
  workloads : r.workloadsOk = true → h.active = []
  rule : r.ruleAbsent = !h.rule
  baseline : r.baselineUnchanged = h.baseline
  recovery : r.recovery.Holds r.exitCode h
  passed : r.exitCode = 0 → r.workloadsOk = true ∧ r.ruleAbsent = true ∧
    r.baselineUnchanged = true ∧ h.milestones = milestones diagnosticOnly ∧
    r.recovery = if diagnosticOnly then .previousFilesLinuxDefault else .updatedDaemonBalanced

/-- The driver may run this command. -/
def History.MayRun (diagnosticOnly : Bool) (h : History) : Command → Prop
  | .startServices | .install _ | .deploy _ =>
    h.cleaning = false ∧ h.vars.mutated = true ∧ h.running = []
  | .launch p => h.cleaning = false ∧ h.vars.mutated = true ∧ h.running = [] ∧ p ∈ h.vars.units ∧
      (p.controls = false → h.rule = false)
  | .placeRule => h.cleaning = false ∧ h.running = [] ∧ h.rule = false
  | .removeRule => h.running = []
  | .stopServices => h.vars.mutated = true ∧ h.running = []
  | .killDaemon | .fetch _ | .putBack _ | .restoreConfig | .restoreState | .removeState =>
    h.cleaning = true ∧ h.vars.mutated = true ∧ h.running = []
  | .compare _ | .compareConfig => h.cleaning = true ∧ h.vars.mutated = true
  | .report r => h.cleaning = true ∧ r.Truthful diagnosticOnly h
  | _ => True

/-- No unit is forgotten, and what is changed stays so. -/
def History.Allows (diagnosticOnly : Bool) (h : History) : Deed → Prop
  | .ran c _ => h.MayRun diagnosticOnly c
  | .sets v => h.vars.units ⊆ v.units ∧ (h.vars.mutated = true → v.mutated = true)
  | .exits _ => True

noncomputable def protocol (diagnosticOnly : Bool) : Protocol Deed History :=
  .guarded .initial History.add (History.Allows diagnosticOnly)

/-- What holds of every history. -/
structure History.Sound (h : History) : Prop where
  running : h.running ⊆ h.vars.units
  active : h.active ⊆ h.vars.units
  untouched : h.vars.mutated = false → h.files.Previous

variable {diagnosticOnly : Bool}

theorem ran_sound {h : History} {c : Command} {n : ℕ} (hs : h.Sound)
    (hc : h.MayRun diagnosticOnly c) : (h.ran c n).Sound := by
  obtain ⟨hrunning, hactive, huntouched⟩ := hs
  cases c with
  | launch p =>
    exact ⟨List.cons_subset.mpr ⟨hc.2.2.2.1, hrunning⟩, List.cons_subset.mpr ⟨hc.2.2.2.1, hactive⟩,
      huntouched⟩
  | stopUnit p => exact ⟨fun q hq => hrunning (List.mem_of_mem_filter hq), hactive, huntouched⟩
  | isActive p =>
    refine ⟨hrunning, fun q hq => hactive ?_, huntouched⟩
    simp only [History.ran, History.note] at hq
    split_ifs at hq with hn
    · exact hq
    · exact List.mem_of_mem_filter hq
  | deploy b => exact ⟨hrunning, hactive, fun h => absurd (hc.2.1.symm.trans h) (by simp)⟩
  | putBack b | restoreConfig | restoreState | removeState =>
    exact ⟨hrunning, hactive, fun h => absurd (hc.2.1.symm.trans h) (by simp)⟩
  | compare b | compareConfig =>
    exact ⟨hrunning, hactive, fun h => absurd (hc.2.symm.trans h) (by simp)⟩
  | _ => exact ⟨hrunning, hactive, huntouched⟩

theorem sound (log : Log) (h : History) (hlog : (protocol diagnosticOnly).after log = some h) :
    h.Sound := by
  refine Protocol.after_induction _ (I := fun h _ => h.Sound) ?_ ?_ hlog
  · exact ⟨List.Subset.refl _, List.Subset.refl _, fun _ => ⟨fun _ => rfl, rfl⟩⟩
  · intro h log d h' hs hnext
    obtain ⟨hallowed, rfl⟩ := Protocol.guarded_next_iff.mp hnext
    cases d with
    | ran c n => exact ran_sound hs hallowed
    | sets v =>
      refine ⟨List.Subset.trans hs.running hallowed.1, List.Subset.trans hs.active hallowed.1,
        fun hv => ?_⟩
      cases hm : h.vars.mutated with
      | false => exact hs.untouched hm
      | true => exact absurd ((hallowed.2 hm).symm.trans hv) (by simp)
    | exits n => exact ⟨hs.running, hs.active, hs.untouched⟩

theorem vars_eq (log : Log) : vars log = (history log).vars := by
  induction log using List.reverseRecOn with
  | nil => rfl
  | append_singleton log d ih =>
    rw [vars, history, List.foldl_concat, List.foldl_concat]
    cases d with
    | sets v => rfl
    | exits n => exact ih
    | ran c n =>
      refine ih.trans ?_
      cases c <;> rfl

end CerynthOS.Tools.Driver
