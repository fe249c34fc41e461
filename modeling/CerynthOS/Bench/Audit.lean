import CerynthOS.Schemes.Lines
import CerynthOS.Schemes.Python

/-! The audit log, followed while a workload runs.

    The log grows in chunks that need not end with a line, and it may be replaced or truncated. Each
    poll takes the lines that are complete and keeps where it stopped, so in the end there is one
    event for each complete line, as long as no line makes `json.loads` fail in a way that is not
    caught. -/

namespace CerynthOS.Bench
open Lines

def newline : UInt8 := 10

/-- An audit log: its inode, and the bytes it holds. -/
structure AuditFile where
  inode : ℕ
  bytes : List UInt8
  deriving DecidableEq

/-- What `json.loads` may raise: a `ValueError`, which is caught, or something else, such as the
    `RecursionError` of a line that is nested too deeply. -/
inductive Raised where
  | valueError
  | other

/-- What is left open of the library: `json.loads` and `bytes.decode`. -/
structure Reader where
  loads : List UInt8 → Except Raised Python.Value
  decode : List UInt8 → String

/-- What is collected of a line, unless the error escapes. -/
def Reader.event (reader : Reader) (line : List UInt8) : Option Python.Value :=
  match reader.loads line with
  | .ok v => some v
  | .error .valueError => some (.dict [("observation_error", .str "malformed audit line"),
      ("raw", .str (reader.decode line))])
  | .error .other => none

/-- What `collect_audit` changes. -/
structure Collector where
  auditOffset : ℕ
  auditInode : Option ℕ
  auditEvents : List Python.Value

namespace Collector

/-- The collector when the workload starts: what the log holds then is passed over. -/
def start : Option AuditFile → Collector
  | none => ⟨0, none, []⟩
  | some audit => ⟨audit.bytes.length, some audit.inode, []⟩

/-- The loop over the lines, and whether an error escapes from it. It stops at a line that is not
    complete. The offset has moved past a line when the line is parsed. -/
def read (reader : Reader) : List (List UInt8) → Collector → Collector × Bool
  | [], c => (c, false)
  | line :: rest, c =>
    if line.getLast? = some newline then
      let c := { c with auditOffset := c.auditOffset + line.length }
      match reader.event line with
      | some event => read reader rest { c with auditEvents := c.auditEvents ++ [event] }
      | none => (c, true)
    else (c, false)

/-- `collect_audit`, and whether it raises. Something may be appended to the log between `stat` and
    the end of reading. -/
def collectAudit (reader : Reader) (audit : Option AuditFile) (late : List UInt8)
    (c : Collector) : Collector × Bool :=
  match audit with
  | none => (c, false)
  | some audit =>
    let auditOffset :=
      if some audit.inode ≠ c.auditInode ∨ audit.bytes.length < c.auditOffset then 0
      else c.auditOffset
    read reader (lines newline ((audit.bytes ++ late).drop auditOffset))
      { c with auditOffset, auditInode := some audit.inode }

end Collector

/-! ### The log -/

/-- What happens to the log. A poll may overlap with an append. -/
inductive Step where
  | append (chunk : List UInt8)
  | rotate (inode : ℕ)
  | truncate (size : ℕ)
  | remove
  | poll (late : List UInt8)

/-- What a step appends to the file that is there. -/
def Step.chunk : Step → List UInt8
  | .append chunk | .poll chunk => chunk
  | _ => []

/-- The log: its file, the complete lines appended to earlier files, how many of the complete lines
    of the file are not counted, how much of it the latest poll has found, and whether it has been
    replaced since. -/
structure Log where
  file : Option AuditFile
  past : List (List UInt8)
  old : ℕ
  polled : ℕ
  replaced : Bool

namespace Log

def start (file : Option AuditFile) : Log where
  file := file
  past := []
  old := (file.elim [] fun f => complete newline f.bytes).length
  polled := file.elim 0 (·.bytes.length)
  replaced := file.isNone

/-- The complete lines that have been appended since the start. -/
def appended (log : Log) : List (List UInt8) :=
  log.past ++ log.file.elim [] fun f => (complete newline f.bytes).drop log.old

/-- The file becomes another one, of whose complete lines `old` do not count. -/
def replace (log : Log) (file : Option AuditFile) (old : ℕ) : Log where
  file := file
  past := log.appended
  old := old
  polled := 0
  replaced := true

/-- One step. `again` says whether the lines that a truncation leaves count as appended again. -/
def step (again : Bool) (log : Log) : Step → Log
  | .append chunk => { log with file := log.file.map fun f => { f with bytes := f.bytes ++ chunk } }
  | .rotate inode => log.replace (some ⟨inode, []⟩) 0
  | .remove => log.replace none 0
  | .truncate size =>
    match log.file with
    | none => log
    | some f =>
      let bytes := f.bytes.take size
      log.replace (some { f with bytes }) (if again then 0 else (complete newline bytes).length)
  | .poll late =>
    match log.file with
    | none => log
    | some f =>
      let bytes := f.bytes ++ late
      { log with file := some { f with bytes }, polled := bytes.length, replaced := false }

/-- No line has been completed since the latest poll. -/
def Polled (log : Log) : Prop := ∀ f ∈ log.file, newline ∉ f.bytes.drop log.polled

instance (log : Log) : Decidable log.Polled := inferInstanceAs (Decidable (∀ _ ∈ _, _))

variable {log : Log} {f : AuditFile} {line : List UInt8}

theorem mem_appended_replace (h : line ∈ log.appended) (file : Option AuditFile) (old : ℕ) :
    line ∈ (log.replace file old).appended :=
  List.mem_append_left _ h

/-- What is written to the file leaves the lines that have been appended to it. -/
theorem mem_appended_chunk (hfile : log.file = some f) (h : line ∈ log.appended)
    (chunk : List UInt8) {log' : Log} (hlog : log'.past = log.past ∧ log'.old = log.old ∧
      log'.file = some { f with bytes := f.bytes ++ chunk }) : line ∈ log'.appended := by
  obtain ⟨hpast, hold, hfile'⟩ := hlog
  rw [appended, hfile, List.mem_append] at h
  rw [appended, hpast, hold, hfile', List.mem_append]
  exact h.imp_right fun h => ((complete_isPrefix f.bytes chunk).drop log.old).subset h

/-- No step takes back a line that has been appended. -/
theorem mem_appended_step (h : line ∈ log.appended) (again : Bool) (step : Step) :
    line ∈ (log.step again step).appended := by
  cases step with
  | rotate inode => exact mem_appended_replace h _ _
  | remove => exact mem_appended_replace h _ _
  | truncate size =>
    rw [Log.step]
    split
    · exact h
    · exact mem_appended_replace h _ _
  | append chunk =>
    cases hfile : log.file with
    | none => simpa [Log.step, appended, hfile] using h
    | some f => exact mem_appended_chunk hfile h chunk ⟨rfl, rfl, by rw [Log.step, hfile]; rfl⟩
  | poll late =>
    cases hfile : log.file with
    | none => simpa [Log.step, hfile] using h
    | some f =>
      rw [Log.step, hfile]
      exact mem_appended_chunk hfile h late ⟨rfl, rfl, rfl⟩

end Log

/-! ### Runs -/

/-- The log and the collector. -/
structure Following where
  log : Log
  collector : Collector

namespace Following

def start (file : Option AuditFile) : Following := ⟨.start file, .start file⟩

/-- One step. A poll that raises is not the last one: `run_workload` polls once more before it hands
    the error on. -/
def step (reader : Reader) (again : Bool) (s : Following) (step : Step) : Following where
  log := s.log.step again step
  collector := match step with
    | .poll late => (s.collector.collectAudit reader s.log.file late).1
    | _ => s.collector

def run (reader : Reader) (again : Bool) (s : Following) (steps : List Step) : Following :=
  steps.foldl (step reader again) s

/-- A file is polled to its end before it is replaced or truncated, and the next poll finds another
    inode or a file that is shorter than the offset. -/
def Noticed (s : Following) : Step → Prop
  | .append _ => True
  | .rotate _ | .truncate _ | .remove => s.log.Polled
  | .poll _ => s.log.replaced = true → ∀ f ∈ s.log.file,
      some f.inode ≠ s.collector.auditInode ∨ f.bytes.length < s.collector.auditOffset

instance (s : Following) : (step : Step) → Decidable (s.Noticed step)
  | .append _ => inferInstanceAs (Decidable True)
  | .rotate _ | .truncate _ | .remove => inferInstanceAs (Decidable s.log.Polled)
  | .poll _ => inferInstanceAs (Decidable (_ → ∀ _ ∈ _, _ ∨ _))

/-- This holds before every step of a run. -/
def AllNoticed (reader : Reader) (again : Bool) : Following → List Step → Prop
  | _, [] => True
  | s, step :: steps => s.Noticed step ∧ AllNoticed reader again (s.step reader again step) steps

instance decidableAllNoticed (reader : Reader) (again : Bool) :
    (s : Following) → (steps : List Step) → Decidable (AllNoticed reader again s steps)
  | _, [] => inferInstanceAs (Decidable True)
  | s, step :: steps =>
    let := decidableAllNoticed reader again (s.step reader again step) steps
    inferInstanceAs (Decidable (_ ∧ _))

/-! ### What the collector has seen -/

/-- The collector has taken the first lines of the file, and the latest poll has seen what follows
    them up to `fresh`. -/
structure Tracks (reader : Reader) (s : Following) (f : AuditFile) (taken : List (List UInt8))
    (seen fresh : List UInt8) : Prop where
  kept : s.log.replaced = false
  file : s.log.file = some f
  bytes : f.bytes = taken.flatten ++ (seen ++ fresh)
  lines : ∀ line ∈ taken, IsLine newline line
  unended : newline ∉ seen
  polled : s.log.polled = (taken.flatten ++ seen).length
  inode : s.collector.auditInode = some f.inode
  offset : s.collector.auditOffset = taken.flatten.length
  old : s.log.old ≤ taken.length
  events : s.collector.auditEvents = (s.log.past ++ taken.drop s.log.old).filterMap reader.event

/-- The file is another one, of which nothing has been taken. -/
structure Unread (reader : Reader) (s : Following) : Prop where
  replaced : s.log.replaced = true
  old : s.log.old = 0
  polled : s.log.polled = 0
  events : s.collector.auditEvents = s.log.past.filterMap reader.event

/-- The invariant of a run. -/
def Inv (reader : Reader) (s : Following) : Prop :=
  Unread reader s ∨ ∃ f taken seen fresh, Tracks reader s f taken seen fresh

variable {reader : Reader} {again : Bool} {s : Following} {f : AuditFile}
  {taken : List (List UInt8)} {seen fresh : List UInt8}

/-- None of the lines makes the error escape. -/
def Legible (reader : Reader) (lines : List (List UInt8)) : Prop :=
  ∀ line ∈ lines, (reader.event line).isSome

/-- What the loop over the lines does. -/
theorem read_flatten (htaken : ∀ line ∈ taken, IsLine newline line)
    (hlegible : Legible reader taken) (hseen : newline ∉ seen) (c : Collector) :
    Collector.read reader (lines newline (taken.flatten ++ seen)) c = ({ c with
      auditOffset := c.auditOffset + taken.flatten.length
      auditEvents := c.auditEvents ++ taken.filterMap reader.event }, false) := by
  rw [lines_flatten_append htaken]
  induction taken generalizing c with
  | nil =>
    rcases lines_rest hseen with hnil | hone
    · rw [hnil]
      simp [Collector.read]
    · have hlast : seen.getLast? ≠ some newline := fun h => hseen (List.mem_of_getLast? h)
      rw [hone]
      simp [Collector.read, hlast]
  | cons line taken ih =>
    obtain ⟨event, hevent⟩ := Option.isSome_iff_exists.mp (hlegible line List.mem_cons_self)
    rw [List.cons_append, Collector.read, if_pos (getLast?_line (htaken line List.mem_cons_self)),
      hevent]
    dsimp only
    rw [ih (fun l hl => htaken l (List.mem_cons_of_mem _ hl))
      fun l hl => hlegible l (List.mem_cons_of_mem _ hl)]
    simp [hevent, add_assoc]

/-- A poll that starts after lines that have been taken takes all that are complete. -/
theorem inv_poll {rest late : List UInt8} (hfile : s.log.file = some f)
    (hbytes : f.bytes ++ late = taken.flatten ++ rest)
    (htaken : ∀ line ∈ taken, IsLine newline line)
    (hoffset : (if some f.inode ≠ s.collector.auditInode ∨
      f.bytes.length < s.collector.auditOffset then 0 else s.collector.auditOffset) =
        taken.flatten.length)
    (hold : s.log.old ≤ taken.length)
    (hevents : s.collector.auditEvents =
      (s.log.past ++ taken.drop s.log.old).filterMap reader.event)
    (hlegible : Legible reader (s.log.step again (.poll late)).appended) :
    Inv reader (s.step reader again (.poll late)) := by
  obtain ⟨more, seen, rfl, hmore, hseen⟩ := exists_complete newline rest
  have hlines : ∀ line ∈ taken ++ more, IsLine newline line := by
    intro line hl
    exact (List.mem_append.mp hl).elim (htaken line) (hmore line)
  have hlog : s.log.step again (.poll late) = { s.log with
      file := some { f with bytes := f.bytes ++ late }
      polled := (f.bytes ++ late).length
      replaced := false } := by
    rw [Log.step, hfile]
  have hmoreLegible : Legible reader more := by
    intro line hl
    refine hlegible line ?_
    rw [hlog, Log.appended, Option.elim_some, hbytes, ← List.append_assoc,
      ← List.flatten_append, complete_flatten hlines hseen, List.drop_append_of_le_length hold]
    simp [hl]
  have hcollector : (s.collector.collectAudit reader s.log.file late).1 =
      ⟨taken.flatten.length + more.flatten.length, some f.inode,
        s.collector.auditEvents ++ more.filterMap reader.event⟩ := by
    rw [hfile, Collector.collectAudit, hoffset, hbytes, List.drop_left,
      read_flatten hmore hmoreLegible hseen]
  rw [step, hlog]
  dsimp only
  rw [hcollector]
  refine .inr ⟨{ f with bytes := f.bytes ++ late }, taken ++ more, seen, [], rfl, rfl, ?_, hlines,
    hseen, ?_, rfl, ?_, ?_, ?_⟩
  · simp [hbytes]
  · simp [hbytes]
  · simp
  · exact hold.trans (by simp)
  · rw [List.drop_append_of_le_length hold, hevents]
    simp

/-- The lines of a file that has been polled to its end. -/
theorem appended_of_polled (h : Inv reader s) (hp : s.log.Polled) :
    s.collector.auditEvents = s.log.appended.filterMap reader.event := by
  rcases h with h | ⟨f, taken, seen, fresh, h⟩
  · have hcomplete : (s.log.file.elim [] fun f => (complete newline f.bytes).drop s.log.old) =
        [] := by
      cases hf : s.log.file with
      | none => rfl
      | some f =>
        have hnone := hp f hf
        rw [h.polled, List.drop_zero] at hnone
        rw [Option.elim_some, complete_nil_of_notMem hnone, List.drop_nil]
    rw [h.events, Log.appended, hcomplete, List.append_nil]
  · have hfresh := hp f h.file
    rw [h.polled, h.bytes, ← List.append_assoc, List.drop_left] at hfresh
    have hcomplete : complete newline f.bytes = taken := by
      rw [h.bytes]
      exact complete_flatten h.lines (by simp [h.unended, hfresh])
    rw [h.events, Log.appended, h.file, Option.elim_some, hcomplete]

/-- A file that is replaced after it has been polled to its end. -/
theorem inv_replace (h : Inv reader s) (hp : s.log.Polled) (file : Option AuditFile) :
    Inv reader ⟨s.log.replace file 0, s.collector⟩ :=
  .inl ⟨rfl, rfl, rfl, appended_of_polled h hp⟩

theorem inv_append (h : Inv reader s) (chunk : List UInt8) :
    Inv reader (s.step reader again (.append chunk)) := by
  rcases h with h | ⟨f, taken, seen, fresh, h⟩
  · exact .inl ⟨h.replaced, h.old, h.polled, h.events⟩
  · refine .inr ⟨{ f with bytes := f.bytes ++ chunk }, taken, seen, fresh ++ chunk, h.kept, ?_, ?_,
      h.lines, h.unended, h.polled, h.inode, h.offset, h.old, h.events⟩
    · change s.log.file.map _ = _
      rw [h.file]
      rfl
    · simp [h.bytes]

theorem inv_step {step : Step} (h : Inv reader s) (hn : s.Noticed step)
    (hlegible : Legible reader (s.log.step true step).appended) :
    Inv reader (s.step reader true step) := by
  cases step with
  | append chunk => exact inv_append h chunk
  | rotate inode => exact inv_replace h hn _
  | remove => exact inv_replace h hn none
  | truncate size =>
    change Inv reader ⟨s.log.step true (.truncate size), s.collector⟩
    rw [Log.step]
    split
    · exact h
    · exact inv_replace h hn _
  | poll late =>
    cases hf : s.log.file with
    | none =>
      have hsame : s.step reader true (.poll late) = s := by
        rw [Following.step, Log.step, hf]
        rfl
      rwa [hsame]
    | some f =>
      rcases h with h | ⟨f', taken, seen, fresh, h⟩
      · have hbytes : f.bytes ++ late = ([] : List (List UInt8)).flatten ++ (f.bytes ++ late) := rfl
        exact inv_poll hf hbytes (by simp)
          (if_pos (hn h.replaced f hf)) h.old.le (by simpa using h.events) hlegible
      · obtain rfl := Option.some.inj (hf.symm.trans h.file)
        have hbytes : f.bytes ++ late = taken.flatten ++ (seen ++ fresh ++ late) := by
          simp [h.bytes]
        refine inv_poll hf hbytes h.lines ?_ h.old h.events hlegible
        rw [if_neg, h.offset]
        rw [h.inode, h.offset, h.bytes]
        simp

theorem inv_start {file : Option AuditFile}
    (hfile : ∀ f ∈ file, f.bytes.getLast?.all (· = newline)) :
    Inv reader (start file) := by
  cases file with
  | none => exact .inl ⟨rfl, rfl, rfl, rfl⟩
  | some f =>
    have hlast : ∀ b ∈ f.bytes.getLast?, b = newline := by
      simpa [Option.all_eq_true] using hfile f rfl
    have hbytes := flatten_complete hlast
    have hlength := congrArg List.length hbytes
    refine .inr ⟨f, complete newline f.bytes, [], [], rfl, rfl, ?_, ?_, by simp, ?_, rfl, hlength,
      le_rfl, ?_⟩
    · simpa using hbytes
    · exact fun line hl => isLine_complete hl
    · rw [List.append_nil]
      exact hlength
    · simp [start, Log.start, Collector.start]

/-- While the file stays the same, the lines that count are those of all chunks together, however
    these are cut. -/
theorem appended_chunks (hfile : ∀ b ∈ f.bytes.getLast?, b = newline) {steps : List Step}
    (hsteps : ∀ step ∈ steps, step = .append step.chunk ∨ step = .poll step.chunk) :
    ((start (some f)).run reader again steps).log.appended =
      complete newline (steps.flatMap Step.chunk) := by
  have hlog : let log := ((start (some f)).run reader again steps).log
      log.past = [] ∧ log.old = (complete newline f.bytes).length ∧
        log.file = some { f with bytes := f.bytes ++ steps.flatMap Step.chunk } := by
    induction steps using List.reverseRecOn with
    | nil => exact ⟨rfl, rfl, by simp [run, start, Log.start]⟩
    | append_singleton steps step ih =>
      obtain ⟨hpast, hold, hf⟩ := ih fun x hx => hsteps x (List.mem_append_left _ hx)
      have hstep := hsteps step (by simp)
      have hrun : ((start (some f)).run reader again (steps ++ [step])).log =
          ((start (some f)).run reader again steps).log.step again step := by
        rw [run, List.foldl_append]
        rfl
      rw [hrun, List.flatMap_append, List.flatMap_singleton]
      generalize ((start (some f)).run reader again steps).log = log at hpast hold hf
      generalize step.chunk = chunk at hstep
      rcases hstep with rfl | rfl
      · refine ⟨hpast, hold, ?_⟩
        rw [Log.step, hf]
        simp
      · rw [Log.step, hf]
        exact ⟨hpast, hold, by simp⟩
  obtain ⟨hpast, hold, hf⟩ := hlog
  rw [Log.appended, hpast, hold, hf, Option.elim_some, complete_append hfile, List.drop_left,
    List.nil_append]

theorem mem_appended_run {line : List UInt8} (h : line ∈ s.log.appended) (steps : List Step) :
    line ∈ (s.run reader again steps).log.appended := by
  induction steps generalizing s with
  | nil => exact h
  | cons step steps ih => exact ih (Log.mem_appended_step h again step)

theorem inv_run {steps : List Step} (h : Inv reader s) (hn : AllNoticed reader true s steps)
    (hlegible : Legible reader (s.run reader true steps).log.appended) :
    Inv reader (s.run reader true steps) := by
  induction steps generalizing s with
  | nil => exact h
  | cons step steps ih =>
    refine ih (inv_step h hn.1 ?_) hn.2 hlegible
    intro line hl
    exact hlegible line (mem_appended_run (s := s.step reader true step) hl steps)

theorem map_some_events {lines : List (List UInt8)} (h : Legible reader lines) :
    (lines.filterMap reader.event).map some = lines.map reader.event := by
  induction lines with
  | nil => rfl
  | cons line lines ih =>
    obtain ⟨event, hevent⟩ := Option.isSome_iff_exists.mp (h line List.mem_cons_self)
    have hrest := ih fun l hl => h l (List.mem_cons_of_mem _ hl)
    simp [hevent, hrest]

/-- After a run in which no replacement is overlooked, and whose latest poll has come after the last
    complete line, there is one event for each complete line appended since the start, in order, if
    none of these makes the error escape. -/
theorem audit_collected (reader : Reader) (file : Option AuditFile)
    (hfile : ∀ f ∈ file, f.bytes.getLast?.all (· = newline)) (steps : List Step)
    (hnoticed : AllNoticed reader true (start file) steps)
    (hpolled : ((start file).run reader true steps).log.Polled)
    (hlegible : Legible reader ((start file).run reader true steps).log.appended) :
    ((start file).run reader true steps).collector.auditEvents.map some =
      ((start file).run reader true steps).log.appended.map reader.event := by
  rw [appended_of_polled (inv_run (inv_start hfile) hnoticed hlegible) hpolled]
  exact map_some_events hlegible

section Example

/-- A reader that takes no line for JSON. -/
def rawReader : Reader where
  loads _ := .error .valueError
  decode line := .ofList (line.map fun b => Char.ofNat b.toNat)

/-- A log with one line of history. -/
def oneLine : AuditFile := ⟨1, [104, 10]⟩

/-- Two lines in three chunks, one line in another file, and one after a truncation. -/
def rotated : List Step := [
  .append [97], .poll [], .append [10, 98], .poll [10], .rotate 2, .append [99, 10], .poll [],
  .truncate 0, .append [100], .poll [10]]

theorem audit_collected_rotated :
    ((start (some oneLine)).run rawReader true rotated).collector.auditEvents.map some =
      [[97, 10], [98, 10], [99, 10], [100, 10]].map rawReader.event :=
  audit_collected rawReader (some oneLine) (by decide) rotated (by decide +kernel)
    (by decide +kernel) fun _ _ => rfl

/-- Arrays in arrays, never closed. -/
def nestedLine (depth : ℕ) : List UInt8 := List.replicate depth 91 ++ [newline]

theorem isLine_nested (depth : ℕ) : IsLine newline (nestedLine depth) :=
  ⟨List.replicate depth 91, rfl, by simp [newline, List.mem_replicate]⟩

/-- A reader that takes no line for JSON, and has no stack for so many of them. -/
def stackReader (depth : ℕ) : Reader where
  loads line := if line = nestedLine depth then .error .other else .error .valueError
  decode := rawReader.decode

theorem event_nested (depth : ℕ) : (stackReader depth).event (nestedLine depth) = none := by
  simp [Reader.event, stackReader]

/-- A line on which the error escapes is passed over. -/
theorem run_illegible {line : List UInt8} (hline : IsLine newline line)
    (hevent : reader.event line = none) :
    (start (some ⟨1, []⟩)).run reader again [.append line, .poll []] =
      ⟨⟨some ⟨1, line⟩, [], 0, line.length, false⟩, ⟨line.length, some 1, []⟩⟩ := by
  have hlines : lines newline line = [line] := by
    have hone : ∀ l ∈ [line], IsLine newline l := by simpa using hline
    simpa using lines_flatten hone
  simp [run, step, start, Log.start, Collector.start, Log.step, Collector.collectAudit, complete,
    lines, hlines, Collector.read, getLast?_line hline, hevent]

/-- There is one event for each complete line, whatever the lines are. -/
def Collected (reader : Reader) (again : Bool) : Prop :=
  ∀ (file : Option AuditFile) (steps : List Step),
    (∀ f ∈ file, f.bytes.getLast?.all (· = newline)) →
    AllNoticed reader again (start file) steps →
    ((start file).run reader again steps).log.Polled →
    ((start file).run reader again steps).collector.auditEvents.map some =
      ((start file).run reader again steps).log.appended.map reader.event

theorem not_collected {line : List UInt8} (hline : IsLine newline line)
    (hevent : reader.event line = none) : ¬ Collected reader again := by
  intro h
  have hevents := h (some ⟨1, []⟩) [.append line, .poll []] (by simp)
  rw [run_illegible hline hevent] at hevents
  have hcomplete : complete newline line = [line] := by
    have hone : ∀ l ∈ [line], IsLine newline l := by simpa using hline
    simpa using complete_flatten hone (s := []) (by simp)
  have hnoticed : AllNoticed reader again (start (some ⟨1, []⟩)) [.append line, .poll []] :=
    ⟨trivial, fun h => absurd h (by simp [step, start, Log.start, Log.step]), trivial⟩
  have := hevents hnoticed (by simp [Log.Polled])
  simp [Log.appended, hcomplete] at this

/-- A truncation that leaves a line makes it collected, also if it had been there at the start; and
    a line that is nested too deeply is not collected. -/
theorem truncated_again :
    ¬ Collected rawReader false ∧ ¬ Collected (stackReader 100000) false ∧
      ¬ Collected (stackReader 100000) true := by
  refine ⟨?_, not_collected (isLine_nested _) (event_nested _),
    not_collected (isLine_nested _) (event_nested _)⟩
  intro h
  let twoLines : AuditFile := ⟨1, [97, 10, 98, 10]⟩
  have hevents := congrArg List.length (h (some twoLines) [.truncate 2, .poll []]
    (by decide) (by decide) (by decide))
  rw [List.length_map, List.length_map] at hevents
  exact absurd hevents (by decide)

end Example

end Following

end CerynthOS.Bench
