import CerynthOS.Schemes.Shell

/-! The validation driver: a transaction on the runtime that is installed.

    The driver installs the new daemon and the new scheduler, runs the phases of the validation under
    an account without privileges, which a temporary rule of sudo lets control the scheduler, and at
    the end keeps the new files or puts the old ones back. Any command may fail and a signal may come
    at any of them; what the system answers may depend on everything done before. -/

namespace CerynthOS.Tools.Driver
open Shell Logging

inductive Phase where
  | smoke
  | stability
  | diagnostic
  | adaptive
  | matrix
  deriving DecidableEq

namespace Phase

def name : Phase → String
  | smoke => "smoke"
  | stability => "stability"
  | diagnostic => "diagnostic"
  | adaptive => "adaptive"
  | matrix => "matrix"

/-- The phases that control the scheduler themselves. -/
def controls : Phase → Bool
  | adaptive => false
  | _ => true

/-- The phases that the stack sampler watches. -/
def sampled : Phase → Bool
  | smoke | stability | diagnostic => true
  | _ => false

end Phase

/-- The two binaries that are replaced. -/
inductive Binary where
  | cerynthd
  | cerynthScx
  deriving DecidableEq

inductive Recovery where
  | unchanged
  | updatedDaemonBalanced
  | previousFilesLinuxDefault
  | linuxDefaultRestoreFailed
  | failed
  deriving DecidableEq

/-- `cleanup-result.json`. -/
structure Report where
  exitCode : ℕ
  workloadsOk : Bool
  recovery : Recovery
  ruleAbsent : Bool
  baselineUnchanged : Bool

/-- The commands, with what they have found out. `install` and `fetch` write a temporary file next to
    the binary, which `deploy` and `putBack` move into its place; `request` is a call of the CLI. -/
inductive Command where
  | other (line : String)
  | request (words : String)
  | healthy
  | stopServices
  | startServices
  | killDaemon
  | install (binary : Binary)
  | deploy (binary : Binary)
  | fetch (binary : Binary)
  | putBack (binary : Binary)
  | restoreConfig
  | restoreState
  | removeState
  | compare (binary : Binary)
  | compareConfig
  | compareBaseline
  | readState (state : String)
  | launch (phase : Phase)
  | wait (phase : Phase)
  | stopUnit (phase : Phase)
  | isActive (phase : Phase)
  | verify (phase : Phase)
  | smokeGate
  | stabilityGates
  | observe
  | placeRule
  | removeRule
  | seeRule (present : Bool)
  | report (report : Report)

/-- The variables of the script. -/
structure Vars where
  mutated : Bool
  stateExisted : Bool
  ruleCreated : Bool
  ruleTemp : Bool
  launcher : Bool
  sampler : Bool
  units : List Phase

def Vars.initial : Vars := ⟨false, false, false, false, false, false, []⟩

abbrev Deed := Act Command Vars

abbrev Log := List Deed

abbrev Script (α : Type) := Shell.Script Command Vars α

/-- What the commands print, empty if they fail: the state of sched_ext, the cgroup of a unit, the
    setting of the memory allocator and its backup. `session` names the units. -/
structure Env extends World Command Vars where
  session : String
  schedExt : Log → String
  rulePresent : Log → Bool
  controlGroup : Phase → Log → String
  setting : Log → String
  settingBackup : Log → String

/-- `trap '' INT TERM HUP`. -/
def Env.ignoring (env : Env) : Env := { env with toWorld := env.toWorld.ignoring }

/-- What the log has last set the variables to. -/
def vars (log : Log) : Vars :=
  log.foldl (fun vars deed => match deed with
    | .sets vars => vars
    | _ => vars) .initial

def setVars (f : Vars → Vars) : Script Unit := do
  let v ← ask vars
  did (.sets (f v))

section
variable (env : Env)

def run (command : Command) : Script ℕ := Shell.run env.toWorld command

def test (command : Command) : Script Bool := Shell.test env.toWorld command

def anyway (command : Command) : Script Unit := Shell.anyway env.toWorld command

def must (command : Command) : Script Unit := Shell.must env.toWorld command

/-- A function whose output goes to a file, which may fail to open. -/
def redirected (file : String) (x : Script Bool) : Script Bool := both (test env (.other file)) x

/-- A function under `set -e`. -/
def succeed (x : Script Bool) : Script Unit := do
  leaveIf (if ← x then 0 else 1)

/-! ### Looking at the system -/

/-- `cat /sys/kernel/sched_ext/state` is `disabled`. -/
def disabled : Script Bool := do
  let state ← ask env.schedExt
  anyway env (.readState state)
  return state == "disabled"

/-- `[[ -e "$RULE" || -L "$RULE" ]]`. -/
def seeRule : Script Bool := do
  let present ← ask env.rulePresent
  anyway env (.seeRule present)
  return present

/-- `ctl`; the CLI may exit with zero although the daemon has refused. -/
def ctl (print : Command → Script Unit) (words : String) : Script Bool := do
  let answered ← test env (.request words)
  print (.other "printf response")
  let refused ← test env (.other "response has a cross")
  return answered && !refused

/-- `healthy`. -/
def healthy : Script Bool :=
  Shell.chain env.toWorld [.other "systemctl show cerynthd -p MainPID --value", .healthy]

/-- `wait_healthy`. -/
def waitHealthy : Script Bool := do
  let answer ← Prog.retry (do
    if ← redirected env "health-checks.log" (healthy env) then return some ()
    else do
      must env (.other "sleep 1")
      return none) 20
  return answer.isSome

/-! ### Workload units -/

/-- `cg=$(systemctl show "$unit" -p ControlGroup --value 2>/dev/null) || cg=''`. -/
def controlGroup (unit : Phase) : Script String := do
  let cg ← ask (env.controlGroup unit)
  if ← test env (.other "systemctl show ControlGroup") then return cg else return ""

/-- The cgroup that systemd gives to the unit of a phase. -/
def Env.ownGroup (unit : Phase) : String :=
  "/system.slice/" ++ env.session ++ "-" ++ unit.name ++ ".service"

/-- `[[ -e "$path/cgroup.events" ]] && grep -q '^populated 1$' "$path/cgroup.events"`. -/
def populated : Script Bool :=
  Shell.chain env.toWorld [.other "[[ -e cgroup.events ]]", .other "grep -q '^populated 1$'"]

/-- Whoever is left in the cgroup of a unit is killed. -/
def killGroup : Script Unit := do
  if ← populated env then
    anyway env (.other "systemctl kill --kill-whom=all --signal=SIGKILL unit")
    if ← test env (.other "[[ -w cgroup.kill ]]") then anyway env (.other "printf 1 > cgroup.kill")
    else pure ()
  else pure ()

/-- The loop that waits for an empty cgroup. -/
def awaitEmpty : Script Unit := do
  let _ ← Prog.retry (do
    if ← populated env then
      anyway env (.other "sleep 1")
      return none
    else return some ()) 10

/-- A round of the loop of `stop_validation_units`; it answers whether the unit is gone. -/
def stopUnit (unit : Phase) : Script Bool := do
  let known ← test env (.other "systemctl show LoadState")
  let cg ← controlGroup env unit
  anyway env (.other "printf 'Draining unit'")
  anyway env (.stopUnit unit)
  if cg = "" then
    let active ← test env (.isActive unit)
    return known && !active
  else if cg ≠ env.ownGroup unit then
    anyway env (.other "printf 'Unexpected cgroup'")
    return false
  else
    killGroup env
    awaitEmpty env
    let left ← populated env
    let active ← test env (.isActive unit)
    return known && !left && !active

def stopUnits : List Phase → Script Bool
  | [] => pure true
  | unit :: units => do
    let gone ← stopUnit env unit
    let rest ← stopUnits units
    return gone && rest

/-- `stop_validation_units`. -/
def stopValidationUnits : Script Bool := do
  onlyIf (← ask vars).launcher do
    anyway env (.other "kill -TERM launcher")
    anyway env (.other "wait launcher")
    setVars ({ · with launcher := false })
  let gone ← stopUnits env (← ask vars).units
  anyway env (.other "printf 'Workload cgroup cleanup result'")
  return gone

/-! ### Going back -/

/-- `linux_fallback`. -/
def linuxFallback : Script Bool := do
  anyway env .stopServices
  let off ← disabled env
  onlyIf (!off) (anyway env .killDaemon)
  let answer ← Prog.retry (do
    if ← disabled env then return some ()
    else do
      anyway env (.other "sleep .1")
      return none) 20
  return answer.isSome

/-- `restore_previous_runtime`. -/
def restorePreviousRuntime : Script Bool := do
  let existed := (← ask vars).stateExisted
  both (Shell.chain env.toWorld [.stopServices, .fetch .cerynthd, .putBack .cerynthd,
    .fetch .cerynthScx, .putBack .cerynthScx, .restoreConfig,
    if existed then .restoreState else .removeState,
    .compare .cerynthd, .compare .cerynthScx, .compareConfig]) (disabled env)

/-- `[[ ! -f file ]] || cp -p file evidence`. -/
def captureFile (name : String) : Script Unit := do
  let found ← test env (.other ("[[ -f " ++ name ++ " ]]"))
  onlyIf found (anyway env (.other ("cp -p " ++ name)))

/-- `capture_failure`. -/
def captureFailure : Script Unit := do
  anyway env (.other "mkdir -p failure-evidence")
  anyway env (.other "journalctl -u cerynthd > daemon.jsonl")
  anyway env (.other "journalctl -k > kernel.jsonl")
  captureFile env "scheduler.json"
  captureFile env "scheduler-stats.json"
  captureFile env "policy.json"
  anyway env (.other "cat /sys/kernel/sched_ext/state > kernel-state.txt")

/-! ### The temporary rule -/

/-- `create_control_rule`. -/
def createControlRule : Script Unit := do
  must env (.other "mktemp /etc/sudoers.d/.cerynth-validation.XXXXXX")
  setVars ({ · with ruleTemp := true })
  must env (.other "sudo_rule > RULE_TEMP")
  must env (.other "chmod 0440 RULE_TEMP")
  must env (.other "visudo -cf RULE_TEMP")
  setVars ({ · with ruleCreated := true })
  must env .placeRule
  if ← test env (.other "[[ ! -e RULE_TEMP ]]") then setVars ({ · with ruleTemp := false })
  else do
    setVars ({ · with ruleCreated := false })
    throw 1

/-- `remove_control_rule`. -/
def removeControlRule : Script Bool := do
  onlyIf (← ask vars).ruleCreated do
    anyway env .removeRule
    setVars ({ · with ruleCreated := false })
  if ← seeRule env then return false
  else do
    anyway env (.other "printf 'temporary-rule-absent: verified'")
    test env (.other "visudo -c")

/-! ### The stack sampler -/

/-- `stop_sampler`. -/
def stopSampler : Script Unit := do
  onlyIf (← ask vars).sampler do
    anyway env (.other "kill -TERM sampler")
    anyway env (.other "wait sampler")
    setVars ({ · with sampler := false })

/-- `start_sampler`. -/
def startSampler : Script Bool := do
  anyway env (.other "python3 tools/sample-scheduler-stacks.py &")
  setVars ({ · with sampler := true })
  let answer ← Prog.retry (do
    if ← test env (.other "[[ -f stack-sampler-ready.json ]]") then return some true
    else if ← test env (.other "kill -0 sampler") then do
      must env (.other "sleep .1")
      return none
    else return some false) 40
  return answer.getD false

/-- The sampler still runs. -/
def samplerAlive : Script Bool := do
  if (← ask vars).sampler then test env (.other "kill -0 sampler") else return false

/-- A phase that the sampler watches needs it to the end. -/
def checkSampler (name : Phase) : Script Bool :=
  if name.sampled then samplerAlive env else pure true

/-! ### A phase -/

/-- `phase`. The files of a phase decide, beside the status of its unit. -/
def phase (name : Phase) : Script Unit := do
  onlyIf name.controls (createControlRule env)
  setVars fun v => { v with units := v.units ++ [name] }
  must env (.other "printf unit >> workload-units.txt")
  anyway env (.launch name)
  setVars ({ · with launcher := true })
  let status ← run env (.wait name)
  setVars ({ · with launcher := false })
  let sampled ← checkSampler env name
  let gone ← stopValidationUnits env
  let revoked ← redirected env "sudoers-cleanup.txt" (removeControlRule env)
  let verified ← test env (.verify name)
  leaveIf (if sampled && gone && revoked && verified then status else 1)

/-- What the driver does under its traps. -/
def transaction (diagnosticOnly : Bool) : Script Unit := do
  let _ ← redirected env "initial-health-check.txt" (healthy env)
  must env (.other "printf > initial-runtime-state.txt")
  setVars ({ · with mutated := true })
  Shell.mustAll env.toWorld [.stopServices, .install .cerynthd, .deploy .cerynthd,
    .install .cerynthScx, .deploy .cerynthScx, .startServices]
  succeed (startSampler env)
  succeed (waitHealthy env)
  succeed (ctl env (must env) "adaptation pause")
  Shell.mustAll env.toWorld [.other "sha256sum previous cerynthd",
    .other "sha256sum installed cerynthd", .other "sha256sum previous cerynth-scx",
    .other "sha256sum installed cerynth-scx", .other "chown RESULT"]
  if diagnosticOnly then phase env .diagnostic
  else do
    phase env .smoke
    must env .smokeGate
    phase env .stability
    must env .stabilityGates
    stopSampler env
    phase env .adaptive
    phase env .matrix
    must env .observe

/-! ### The end -/

/-- What becomes of the runtime, and of the exit code. -/
def recover (diagnosticOnly : Bool) (code : ℕ) : Script (ℕ × Recovery) := do
  if !(← ask vars).mutated then return (code, .unchanged)
  else if ← both (pure (code == 0 && !diagnosticOnly))
      (redirected env "health-checks.log" (healthy env)) then
    return (code, .updatedDaemonBalanced)
  else do
    captureFailure env
    if ← linuxFallback env then
      if ← restorePreviousRuntime env then
        return (if !diagnosticOnly && code == 0 then 1 else code, .previousFilesLinuxDefault)
      else return (1, .linuxDefaultRestoreFailed)
    else return (1, .failed)

/-- The setting is written only where it differs. -/
def writeSetting (observed expected : String) : Script Bool :=
  if observed ≠ expected then test env (.other "printf expected > setting") else pure true

/-- `restore_allocator_setting`. -/
def restoreAllocatorSetting (expected : String) : Script Bool := do
  if expected = "0" ∨ expected = "1" then
    let observed ← ask env.setting
    anyway env (.other "cat setting")
    if ← writeSetting env observed expected then
      let observed ← ask env.setting
      anyway env (.other "cat setting")
      return observed == expected
    else return false
  else return false

/-- The setting of the memory allocator is what it must be. -/
def checkAllocator : Script Bool := do
  if ← test env (.other "[[ -f compact_unevictable_allowed ]]") then
    let observed ← ask env.setting
    anyway env (.other "cat setting")
    let expected ← ask env.settingBackup
    anyway env (.other "cat backup")
    if ← disabled env then
      let restored ← restoreAllocatorSetting env expected
      let observed ← ask env.setting
      anyway env (.other "cat setting")
      anyway env (.other "printf > allocator-vm-setting-check.txt")
      return restored && observed == expected
    else
      anyway env (.other "printf > allocator-vm-setting-check.txt")
      return observed == "0"
  else return true

/-- The rule is taken back, if it is there; the answer says whether it is gone. -/
def revoke : Script Bool := do
  onlyIf (← ask vars).ruleCreated (anyway env .removeRule)
  onlyIf (← ask vars).ruleTemp (anyway env (.other "rm -f RULE_TEMP"))
  let present ← seeRule env
  return !present

/-- The part of `cleanup` that no signal interrupts; it answers the exit code. -/
def cleanupIgnoring (diagnosticOnly : Bool) (code : ℕ) : Script ℕ := do
  onlyIf (code ≠ 0 && (← ask vars).mutated) (captureFailure env)
  let gone ← stopValidationUnits env
  stopSampler env
  anyway env (.other "runuser validation_manifest.py > baseline-after.json")
  let unchanged ← test env .compareBaseline
  let (code, recovery) ← recover env diagnosticOnly (if gone && unchanged then code else 1)
  let fits ← checkAllocator env
  let _ ← redirected env "final-runtime-status.txt" (ctl env (anyway env) "status")
  anyway env (.other "systemctl is-active cerynthd cerynth-policy-live")
  anyway env (.other "cat /sys/kernel/sched_ext/state > final-kernel-state.txt")
  let absent ← revoke env
  anyway env (.other "rm -f INSTALL_TEMP")
  anyway env (.other "rm -f RESTORE_TEMP")
  anyway env (.other "rm -f INSTALL_SCX_TEMP")
  anyway env (.other "rm -f RESTORE_SCX_TEMP")
  let valid ← test env (.other "visudo -c > sudoers-check.txt")
  let code := if fits && absent && valid then code else 1
  anyway env (.report ⟨code, gone, recovery, absent, unchanged⟩)
  anyway env (.other "chown -hR RESULT")
  anyway env (.other "printf 'Validation exit'")
  return code

/-- `cleanup`. A signal that comes before the traps are off ends the shell. -/
def cleanup (diagnosticOnly : Bool) (code : ℕ) : Script Unit := do
  takeSignal env.toWorld
  throw (← cleanupIgnoring env.ignoring diagnosticOnly code)

/-! ### The whole driver -/

structure Options where
  diagnosticOnly : Bool
  source : String
  runUser : String
  oldMatrix : String

def Options.initial : Options := ⟨false, "", "", ""⟩

/-- A value may not be missing, empty or another option. -/
def isValue (value : String) : Bool := value ≠ "" && !("--".isPrefixOf value)

/-- The loop of `configure_validation`. -/
def parseArguments (options : Options) : List String → Option Options
  | [] => some options
  | "--diagnostic-only" :: rest => parseArguments { options with diagnosticOnly := true } rest
  | "--source" :: value :: rest =>
    if isValue value then parseArguments { options with source := value } rest else none
  | "--run-user" :: value :: rest =>
    if isValue value then parseArguments { options with runUser := value } rest else none
  | "--baseline" :: value :: rest =>
    if isValue value then parseArguments { options with oldMatrix := value } rest else none
  | _ => none

/-- `^[a-z_][a-z0-9_-]*[$]?$`. -/
def isAccount (user : String) : Bool :=
  match user.toList with
  | [] => false
  | c :: cs =>
    let body := if cs.getLast? = some '$' then cs.dropLast else cs
    (('a' ≤ c && c ≤ 'z') || c == '_') &&
      body.all fun c => ('a' ≤ c && c ≤ 'z') || ('0' ≤ c && c ≤ '9') || c == '_' || c == '-'

/-- `configure_validation`; it answers whether the options will do. -/
def configureValidation (options : Options) : Script Bool :=
  if "/".isPrefixOf options.source && "/".isPrefixOf options.oldMatrix then
    both (Shell.chain env.toWorld [.other "[[ -d SOURCE ]]", .other "[[ -d OLD_MATRIX ]]"])
      (if isAccount options.runUser then
        Shell.chain env.toWorld [.other "id -u RUN_USER", .other "[[ uid != 0 ]]",
          .other "getpwnam RUN_USER", .other "[[ RUN_HOME == /* ]]", .other "[[ -d RUN_HOME ]]"]
      else pure false)
  else pure false

/-- What the driver does before its traps are set. -/
def prepare (diagnosticOnly : Bool) : Script Unit := do
  must env (.other "[[ EUID -eq 0 ]]")
  let present ← seeRule env
  leaveIf (if present then 1 else 0)
  Shell.mustAll env.toWorld [.other "command -v systemctl", .other "command -v systemd-run",
    .other "command -v timeout", .other "command -v runuser", .other "command -v python3",
    .other "command -v visudo", .other "command -v sha256sum", .other "command -v flock",
    .other "test -x target/release/cerynthd", .other "test -x target/release/cerynth-scx",
    .other "test -x /usr/bin/cerynthctl", .other "test -x tools/validation-ctl",
    .other "test -f OLD_MATRIX/plan.json", .other "test -f /sys/fs/cgroup/cgroup.controllers",
    .other "stability_source.py verify"]
  onlyIf (!diagnosticOnly) (must env (.other "stability_source.py quarantine"))
  must env (.other "exec 9>/run/cerynth/validation.lock")
  succeed (test env (.other "flock -n 9"))
  Shell.mustAll env.toWorld [.other "date -u", .other "mkdir RESULT", .other "mkdir -m 0700 BACKUP"]
  setVars fun _ => .initial
  Shell.mustAll env.toWorld [.other "journalctl -n 1", .other "cp source-revision.json",
    .other "uname -a > kernel.txt", .other "validation_manifest.py > baseline-before.json",
    .other "cp -p cerynthd BACKUP", .other "cp -p cerynth-scx BACKUP",
    .other "cp -p cerynth.toml BACKUP", .other "cat compact_unevictable_allowed > BACKUP"]
  if ← test env (.other "[[ -e state.json ]]") then do
    must env (.other "cp -p state.json BACKUP")
    setVars ({ · with stateExisted := true })
  else pure ()

/-- `main`. -/
def main (args : List String) : Script Unit := do
  match parseArguments .initial args with
  | none => throw 1
  | some options =>
    succeed (configureValidation env options)
    prepare env options.diagnosticOnly
    onExit (transaction env options.diagnosticOnly) (cleanup env options.diagnosticOnly)

end

end CerynthOS.Tools.Driver
