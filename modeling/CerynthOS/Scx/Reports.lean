import CerynthOS.Scx.Reporter

/-! What is reported comes from the scheduler: over every run of the two processes each record in
    `scheduler.json` is one of the snapshots that were sent, in their order and none twice, and
    nothing is written after the stopped record. -/

namespace CerynthOS.Scx

/-! ### The child -/

/-- The snapshot that the child holds and has not put in `scheduler.json`. -/
def ChildPhase.unwritten : ChildPhase → List Datagram
  | .draining latest => latest.toList
  | .drained source | .reporting source _ _ => [source]
  | .counting _ | .exited => []

/-- The snapshot that the child holds and whose counters it has not put in the other file. -/
def ChildPhase.uncounted : ChildPhase → List Datagram
  | .draining latest => latest.toList
  | .drained source | .reporting source _ _ | .counting source => [source]
  | .exited => []

/-- A snapshot is kept in its place: it has been written, or the child holds it, or it is in the
    socket, and what is missing has been passed over. -/
structure Delivered (child : ChildPhase) (queue : List Datagram) (session : Session) : Prop where
  written : (session.written.map Written.source ++ child.unwritten ++ queue).Sublist session.sent
  counted : (session.counted ++ child.uncounted ++ queue).Sublist session.sent
  records : ∀ w ∈ session.written, w.record = observed w.source.snapshot.status w.state
  record : ∀ source state record, child = .reporting source state record →
    record = observed source.snapshot.status state

namespace Delivered

variable {child : ChildPhase} {queue : List Datagram} {session : Session}

theorem empty : Delivered .exited [] .empty where
  written := .slnil
  counted := .slnil
  records _ hw := absurd hw List.not_mem_nil
  record _ _ _ h := by cases h

/-- The child holds less, or forgets what it has. -/
theorem shrink (h : Delivered child queue session) {child' : ChildPhase}
    (hw : child'.unwritten.Sublist child.unwritten)
    (hc : child'.uncounted.Sublist child.uncounted)
    (hr : ∀ source state record, child' = .reporting source state record →
      record = observed source.snapshot.status state) : Delivered child' queue session where
  written := ((hw.append_left _).append_right _).trans h.written
  counted := ((hc.append_left _).append_right _).trans h.counted
  records := h.records
  record := hr

theorem exit (h : Delivered child queue session) : Delivered .exited queue session :=
  h.shrink (List.nil_sublist _) (List.nil_sublist _) fun _ _ _ hr => by cases hr

/-- What is sent joins the queue at its end. -/
theorem send (h : Delivered child queue session) (d : Datagram) :
    Delivered child (queue ++ [d]) { session with sent := session.sent ++ [d] } where
  written := by
    rw [← List.append_assoc]
    exact h.written.append_right [d]
  counted := by
    rw [← List.append_assoc]
    exact h.counted.append_right [d]
  records := h.records
  record := h.record

/-- The first datagram takes the place of the one that the child holds. -/
theorem receive {latest : Option Datagram} {d : Datagram}
    (h : Delivered (.draining latest) (d :: queue) session) :
    Delivered (.draining (some d)) queue session where
  written := by
    refine List.Sublist.trans ?_ h.written
    rw [List.append_assoc, List.append_assoc]
    exact (List.sublist_append_right _ _).append_left _
  counted := by
    refine List.Sublist.trans ?_ h.counted
    rw [List.append_assoc, List.append_assoc]
    exact (List.sublist_append_right _ _).append_left _
  records := h.records
  record _ _ _ hr := by cases hr

theorem putStatus {source : Datagram} {state : String} {record : SchedulerStatus}
    (h : Delivered (.reporting source state record) queue session) :
    Delivered (.counting source) queue
      { session with written := session.written ++ [⟨source, state, record⟩] } where
  written := by
    rw [List.map_append]
    refine List.Sublist.trans (List.Sublist.append_right ?_ _) h.written
    exact List.append_nil _ ▸ List.Sublist.refl _
  counted := h.counted
  records w hw := by
    rcases List.mem_append.mp hw with hw | hw
    · exact h.records w hw
    · obtain rfl := List.mem_singleton.mp hw
      exact h.record source state record rfl
  record _ _ _ hr := by cases hr

theorem putStats {source : Datagram} (h : Delivered (.counting source) queue session) :
    Delivered (.draining none) queue
      { session with counted := session.counted ++ [source] } where
  written := h.written
  counted := by
    refine List.Sublist.trans (List.Sublist.append_right ?_ _) h.counted
    exact List.append_nil _ ▸ List.Sublist.refl _
  records := h.records
  record _ _ _ hr := by cases hr

end Delivered

/-! ### The parent -/

/-- What the place of the parent says about the snapshots sent so far: a new one comes after at
    least one more pass. -/
def ParentPhase.Bound (passes : ℕ) (sent : List Datagram) : ParentPhase → Prop
  | .running fresh => ∀ d ∈ sent, if fresh then d.passes < passes else d.passes ≤ passes
  | .closing _ | .killed _ => True
  | .starting | .attaching | .announcing | .finished | .stopped _ => sent = []

/-- The scheduler runs. -/
def ParentPhase.Active : ParentPhase → Prop
  | .announcing | .running _ => True
  | _ => False

/-- There is no child. -/
def ParentPhase.Alone : ParentPhase → Prop
  | .starting | .finished | .stopped _ => True
  | _ => False

/-- The record that `main` has written. -/
def ParentPhase.last : ParentPhase → List SchedulerStatus
  | .stopped record => record.toList
  | _ => []

/-- Snapshots are numbered by the passes before them. -/
structure Numbered (phase : ParentPhase) (sched : Scheduler) (passes : ℕ)
    (sent : List Datagram) : Prop where
  increasing : sent.Pairwise fun x y => x.passes < y.passes
  progress : ∀ d ∈ sent, d.snapshot.stats.progressSequence = .ofNat d.passes
  bound : phase.Bound passes sent
  current : phase.Active → sched.stats.progressSequence = .ofNat passes

/-- What a session has reported is what it was sent. -/
structure Session.Faithful (session : Session) : Prop where
  written : (session.written.map Written.source).Sublist session.sent
  counted : session.counted.Sublist session.sent
  records : ∀ w ∈ session.written, w.record = observed w.source.snapshot.status w.state
  increasing : session.sent.Pairwise fun x y => x.passes < y.passes
  progress : ∀ d ∈ session.sent, d.snapshot.stats.progressSequence = .ofNat d.passes

/-- The records of a session. -/
def Session.records (session : Session) : List SchedulerStatus :=
  session.written.map Written.record

namespace Reporting

/-- The invariant of the two processes. -/
structure Inv (s : Reporting) : Prop where
  delivered : Delivered s.child s.queue s.session
  numbered : Numbered s.phase s.sched s.passes s.session.sent
  alone : s.phase.Alone → s.child = .exited
  past : ∀ session ∈ s.past, session.Faithful
  writes : s.writes = s.past.flatMap Session.records ++ s.session.records ++ s.phase.last
  stopped : ∀ record ∈ s.phase.last, record.running = false

namespace Inv

theorem boot (pid : UInt32) (profile : Profile) : Inv (boot pid profile) where
  delivered := .empty
  numbered := ⟨.nil, fun _ h => absurd h List.not_mem_nil, rfl, fun h => h.elim⟩
  alone _ := rfl
  past _ h := absurd h List.not_mem_nil
  writes := rfl
  stopped _ h := absurd h List.not_mem_nil

theorem session_faithful {s : Reporting} (h : s.Inv) : s.session.Faithful where
  written := by
    refine List.Sublist.trans ?_ h.delivered.written
    rw [List.append_assoc]
    exact List.sublist_append_left _ _
  counted := by
    refine List.Sublist.trans ?_ h.delivered.counted
    rw [List.append_assoc]
    exact List.sublist_append_left _ _
  records := h.delivered.records
  increasing := h.numbered.increasing
  progress := h.numbered.progress

/-! #### Steps of the child -/

theorem not_alone {s : Reporting} (h : s.Inv) (hc : s.child ≠ .exited) : ¬ s.phase.Alone :=
  fun ha => hc (h.alone ha)

/-- The child moves on in its loop and writes nothing. -/
theorem hold {s : Reporting} (h : s.Inv) {child : ChildPhase} {queue : List Datagram}
    (hd : Delivered child queue s.session) (ha : s.phase.Alone → child = .exited) :
    Inv { s with child := child, queue := queue } where
  delivered := hd
  numbered := h.numbered
  alone := ha
  past := h.past
  writes := h.writes
  stopped := h.stopped

theorem fail {s : Reporting} (h : s.Inv) : Inv { s with child := .exited } :=
  h.hold h.delivered.exit fun _ => rfl

theorem receive {s : Reporting} (h : s.Inv) {latest : Option Datagram}
    (hc : s.child = .draining latest) : Inv (s.receive latest) := by
  have ha := h.not_alone (by rw [hc]; intro hx; cases hx)
  have hd := h.delivered
  rw [hc] at hd
  unfold Reporting.receive
  cases hq : s.queue with
  | cons d queue =>
    rw [hq] at hd
    exact h.hold hd.receive fun hx => absurd hx ha
  | nil =>
    rw [hq] at hd
    cases latest with
    | none => exact h.hold hd fun hx => absurd hx ha
    | some d =>
      have hd' : Delivered (.drained d) [] s.session :=
        hd.shrink (.refl _) (.refl _) fun _ _ _ hr => by cases hr
      exact h.hold hd' fun hx => absurd hx ha

theorem observe {s : Reporting} (h : s.Inv) {source : Datagram} (hc : s.child = .drained source)
    (state : Option String) : Inv (s.observe source state) := by
  have ha := h.not_alone (by rw [hc]; intro hx; cases hx)
  have hd := h.delivered
  rw [hc] at hd
  unfold Reporting.observe
  split
  · exact h.fail
  · cases state with
    | none => exact h.fail
    | some state =>
      refine h.hold (hd.shrink (.refl _) (.refl _) ?_) fun hx => absurd hx ha
      intro _ _ _ hr
      cases hr
      rfl

theorem last_eq_nil {phase : ParentPhase} (h : ¬ phase.Alone) : phase.last = [] := by
  cases phase <;> first | rfl | exact absurd trivial h

theorem putStatus {s : Reporting} (h : s.Inv) {source : Datagram} {state : String}
    {record : SchedulerStatus} (hc : s.child = .reporting source state record) :
    Inv (s.putStatus source state record) where
  delivered := Delivered.putStatus (hc ▸ h.delivered)
  numbered := h.numbered
  alone hx := absurd hx (h.not_alone (by rw [hc]; intro hx; cases hx))
  past := h.past
  writes := by
    have ha := h.not_alone (by rw [hc]; intro hx; cases hx)
    simp [Reporting.putStatus, h.writes, last_eq_nil ha, Session.records]
  stopped := h.stopped

theorem putStats {s : Reporting} (h : s.Inv) {source : Datagram}
    (hc : s.child = .counting source) : Inv (s.putStats source) where
  delivered := Delivered.putStats (hc ▸ h.delivered)
  numbered := h.numbered
  alone hx := absurd hx (h.not_alone (by rw [hc]; intro hx; cases hx))
  past := h.past
  writes := h.writes
  stopped := h.stopped

/-! #### Steps of the parent -/

/-- The parent moves on and neither sends nor writes. -/
theorem goTo {s : Reporting} (h : s.Inv) {phase : ParentPhase}
    (hb : phase.Bound s.passes s.session.sent) (hact : phase.Active → s.phase.Active)
    (ha : phase.Alone → s.child = .exited) (hl : phase.last = s.phase.last) :
    Inv (s.goTo phase) where
  delivered := h.delivered
  numbered :=
    ⟨h.numbered.increasing, h.numbered.progress, hb, fun hx => h.numbered.current (hact hx)⟩
  alone := ha
  past := h.past
  writes := hl ▸ h.writes
  stopped := by
    change ∀ record ∈ phase.last, record.running = false
    exact hl ▸ h.stopped

theorem spawn {s : Reporting} (h : s.Inv) (hp : s.phase = .starting) : Inv s.spawn where
  delivered := by
    have hsent : s.session.sent = [] := by
      have := h.numbered.bound
      rwa [hp] at this
    have hw := h.session_faithful.written
    have hc := h.session_faithful.counted
    rw [hsent, List.sublist_nil] at hw hc
    refine ⟨?_, ?_, h.delivered.records, fun _ _ _ hr => by cases hr⟩
    · simp [Reporting.spawn, hw, ChildPhase.unwritten]
    · simp [Reporting.spawn, hc, ChildPhase.uncounted]
  numbered := by
    have hb := h.numbered.bound
    rw [hp] at hb
    exact ⟨h.numbered.increasing, h.numbered.progress, hb, fun hx => hx.elim⟩
  alone hx := hx.elim
  past := h.past
  writes := by
    have := h.writes
    rwa [hp] at this
  stopped _ hx := absurd hx List.not_mem_nil

theorem attach {s : Reporting} (h : s.Inv) (hp : s.phase = .attaching) (startedAtMs : UInt64) :
    Inv (s.attach startedAtMs) where
  delivered := h.delivered
  numbered := by
    have hb := h.numbered.bound
    rw [hp] at hb
    exact ⟨h.numbered.increasing, h.numbered.progress, hb, fun _ => rfl⟩
  alone hx := hx.elim
  past := h.past
  writes := by
    have := h.writes
    rwa [hp] at this
  stopped _ hx := absurd hx List.not_mem_nil

theorem pass {s : Reporting} (h : s.Inv) {fresh : Bool} (hp : s.phase = .running fresh)
    (rings : Rings) : Inv (s.pass rings) where
  delivered := h.delivered
  numbered := by
    refine ⟨h.numbered.increasing, h.numbered.progress, ?_, fun _ => ?_⟩
    · intro d hd
      have hb := h.numbered.bound
      rw [hp] at hb
      have hd := hb d hd
      change d.passes < s.passes + 1
      split at hd <;> omega
    · have hc := h.numbered.current (hp ▸ trivial)
      change (s.sched.dispatchTasks rings).stats.progressSequence = .ofNat (s.passes + 1)
      rw [Scheduler.dispatchTasks_progress, hc, UInt64.ofNat_add]
      rfl
  alone hx := hx.elim
  past := h.past
  writes := by
    have := h.writes
    rwa [hp] at this
  stopped _ hx := absurd hx List.not_mem_nil

/-- A snapshot is sent before the first pass, or after one more pass than the last that was sent. -/
theorem writeStats {s : Reporting} (h : s.Inv)
    (hp : s.phase = .announcing ∨ s.phase = .running true) (facts : StatsFacts) :
    Inv ((s.writeStats facts).goTo (.running false)) := by
  have hact : s.phase.Active := by rcases hp with hp | hp <;> rw [hp] <;> trivial
  have hlast : s.phase.last = [] := by rcases hp with hp | hp <;> rw [hp] <;> rfl
  have hcur := h.numbered.current hact
  have hb : ∀ d ∈ s.session.sent, d.passes < s.passes := by
    have hb := h.numbered.bound
    rcases hp with hp | hp <;> rw [hp] at hb
    · intro d hd
      rw [show s.session.sent = [] from hb] at hd
      cases hd
    · exact hb
  have hwrites := h.writes
  rw [hlast] at hwrites
  unfold Reporting.writeStats
  by_cases ha : facts.accepted = true
  · rw [if_pos ha]
    refine ⟨h.delivered.send _, ⟨?_, ?_, ?_, fun _ => hcur⟩, fun hx => hx.elim, h.past, hwrites,
      fun _ hx => absurd hx List.not_mem_nil⟩
    · refine List.pairwise_append.mpr ⟨h.numbered.increasing, List.pairwise_singleton _ _, ?_⟩
      intro x hx y hy
      obtain rfl := List.mem_singleton.mp hy
      exact hb x hx
    · intro d hd
      rcases List.mem_append.mp hd with hd | hd
      · exact h.numbered.progress d hd
      · obtain rfl := List.mem_singleton.mp hd
        exact hcur
    · intro d hd
      rcases List.mem_append.mp hd with hd | hd
      · exact (hb d hd).le
      · obtain rfl := List.mem_singleton.mp hd
        exact Nat.le_refl _
  · rw [if_neg ha]
    exact ⟨h.delivered, ⟨h.numbered.increasing, h.numbered.progress, fun d hd => (hb d hd).le,
      fun _ => hcur⟩, fun hx => hx.elim, h.past, hwrites, fun _ hx => absurd hx List.not_mem_nil⟩

theorem reap {s : Reporting} (h : s.Inv) {restart : Bool} (hp : s.phase = .killed restart) :
    Inv (s.reap restart) := by
  have hwrites := h.writes
  rw [hp] at hwrites
  have hl : (s.reap restart).phase.last = [] := by cases restart <;> rfl
  refine ⟨.empty, ?_, fun _ => rfl, ?_, ?_, fun _ hx => ?_⟩
  · refine ⟨.nil, fun _ hd => absurd hd List.not_mem_nil, ?_, ?_⟩
    · cases restart <;> rfl
    · cases restart <;> exact fun hx => hx.elim
  · intro session hs
    rcases List.mem_append.mp hs with hs | hs
    · exact h.past session hs
    · obtain rfl := List.mem_singleton.mp hs
      exact h.session_faithful
  · rw [hl]
    simpa [Reporting.reap, Session.empty, Session.records, ParentPhase.last] using hwrites
  · rw [hl] at hx
    cases hx

theorem writeStopped {s : Reporting} (h : s.Inv) (hp : s.phase = .finished)
    {record : SchedulerStatus} (hr : record.running = false) : Inv (s.writeStopped record) where
  delivered := h.delivered
  numbered := by
    have hb := h.numbered.bound
    rw [hp] at hb
    exact ⟨h.numbered.increasing, h.numbered.progress, hb, fun hx => hx.elim⟩
  alone _ := h.alone (hp ▸ trivial)
  past := h.past
  writes := by
    have hw := h.writes
    rw [hp] at hw
    rw [Reporting.writeStopped, hw]
    exact congrArg (· ++ [record]) (List.append_nil _)
  stopped r hx := by
    obtain rfl : r = record := List.mem_singleton.mp hx
    exact hr

/-! #### Runs -/

theorem step {s : Reporting} (h : s.Inv) (event : Event) : Inv (s.step event) := by
  have hb := h.numbered.bound
  cases event with
  | start ok =>
    rw [Reporting.step]
    split
    next hp =>
      cases ok with
      | true => exact h.spawn hp
      | false =>
        rw [hp] at hb
        exact h.goTo hb (fun hx => hx.elim) (fun _ => h.alone (hp ▸ trivial)) (hp ▸ rfl)
    next => exact h
  | attach ok startedAtMs =>
    rw [Reporting.step]
    split
    next hp =>
      cases ok with
      | true => exact h.attach hp startedAtMs
      | false => exact h.goTo trivial (fun hx => hx.elim) (fun hx => hx.elim) (hp ▸ rfl)
    next => exact h
  | writeStats facts =>
    rw [Reporting.step]
    split
    next hp => exact h.writeStats (.inl hp) facts
    next hp => exact h.writeStats (.inr hp) facts
    next => exact h
  | pass rings =>
    rw [Reporting.step]
    split
    next hp => exact h.pass hp rings
    next => exact h
  | exit restart =>
    rw [Reporting.step]
    split
    next hp => exact h.goTo trivial (fun hx => hx.elim) (fun hx => hx.elim) (hp ▸ rfl)
    next => exact h
  | kill =>
    rw [Reporting.step]
    split
    next hp => exact h.goTo trivial (fun hx => hx.elim) (fun hx => hx.elim) (hp ▸ rfl)
    next => exact h
  | reap =>
    rw [Reporting.step]
    split
    next hp => exact h.reap hp
    next => exact h
  | writeStopped ok state nowSecs exitError =>
    rw [Reporting.step]
    split
    next hp =>
      cases ok with
      | true => exact h.writeStopped hp rfl
      | false =>
        rw [hp] at hb
        exact h.goTo hb (fun hx => hx.elim) (fun _ => h.alone (hp ▸ trivial)) (hp ▸ rfl)
    next => exact h
  | receive =>
    rw [Reporting.step]
    split
    next hc => exact h.receive hc
    next => exact h
  | observe state =>
    rw [Reporting.step]
    split
    next hc => exact h.observe hc state
    next => exact h
  | putStatus ok =>
    rw [Reporting.step]
    split
    next hc =>
      cases ok with
      | true => exact h.putStatus hc
      | false => exact h.fail
    next => exact h
  | putStats ok =>
    rw [Reporting.step]
    split
    next hc =>
      cases ok with
      | true => exact h.putStats hc
      | false => exact h.fail
    next => exact h
  | fail => exact h.fail

theorem run {s : Reporting} (h : s.Inv) (events : List Event) : Inv (s.run events) := by
  induction events generalizing s with
  | nil => exact h
  | cons event events ih => exact ih (h.step event)

/-- After the end of `main` nothing happens any more. -/
theorem stopped_run {s : Reporting} (h : s.Inv) {record : Option SchedulerStatus}
    (hp : s.phase = .stopped record) (events : List Event) :
    (s.run events).writes = s.writes ∧ (s.run events).phase = .stopped record := by
  induction events generalizing s with
  | nil => exact ⟨rfl, hp⟩
  | cons event events ih =>
    have hc : s.child = .exited := h.alone (hp ▸ trivial)
    have hstep : (s.step event).writes = s.writes ∧ (s.step event).phase = .stopped record := by
      cases event <;> simp [Reporting.step, hp, hc]
    obtain ⟨hw, hph⟩ := ih (h.step event) hstep.2
    exact ⟨hw.trans hstep.1, hph⟩

end Inv

/-- `progress_sequence` of a snapshot. -/
def progress (d : Datagram) : UInt64 := d.snapshot.stats.progressSequence

/-- The sequence numbers grow until they wrap. -/
theorem progress_increasing {session : Session} (h : session.Faithful)
    (hlt : ∀ d ∈ session.sent, d.passes < 2 ^ 64) :
    (session.counted.map progress).Pairwise (· < ·) := by
  refine List.pairwise_map.mpr ?_
  refine (h.increasing.sublist h.counted).imp_of_mem ?_
  intro x y hx hy hxy
  have hx := h.counted.subset hx
  have hy := h.counted.subset hy
  rw [progress, progress, h.progress x hx, h.progress y hy]
  rw [UInt64.lt_iff_toNat_lt, UInt64.toNat_ofNat_of_lt' (hlt x hx),
    UInt64.toNat_ofNat_of_lt' (hlt y hy)]
  exact hxy

/-- Whatever the order of the steps, `scheduler.json` gets the records of the reporters one after
    the other and at last the stopped one. Each reporter writes snapshots that it was sent, in the
    order of the passes they were taken after; a record differs from its snapshot in the state of
    sched_ext only, and is healthy only if that was found enabled. The same holds of the counters.
    After the stopped record nothing is written. -/
theorem reported_faithfully (pid : UInt32) (profile : Profile) (events : List Event) :
    let s := (boot pid profile).run events
    s.writes = s.past.flatMap Session.records ++ s.session.records ++ s.phase.last ∧
    (∀ session ∈ s.past ++ [s.session],
      (session.written.map Written.source).Sublist session.sent ∧
      session.counted.Sublist session.sent ∧
      session.sent.Pairwise (fun x y => x.passes < y.passes) ∧
      (∀ w ∈ session.written,
        w.record = { w.source.snapshot.status with
          schedExtState := w.state, healthy := w.record.healthy } ∧
        (w.record.healthy = true → w.state = "enabled")) ∧
      (∀ d ∈ session.sent, progress d = .ofNat d.passes) ∧
      ((∀ d ∈ session.sent, d.passes < 2 ^ 64) →
        (session.counted.map progress).Pairwise (· < ·))) ∧
    ∀ record, s.phase = .stopped (some record) → record.running = false ∧
      ∃ earlier, ∀ later, (s.run later).writes = earlier ++ [record] := by
  intro s
  have hs : s.Inv := (Inv.boot pid profile).run events
  refine ⟨hs.writes, ?_, ?_⟩
  · intro session hsession
    have hf : session.Faithful := by
      rcases List.mem_append.mp hsession with hsession | hsession
      · exact hs.past session hsession
      · obtain rfl := List.mem_singleton.mp hsession
        exact hs.session_faithful
    refine ⟨hf.written, hf.counted, hf.increasing, ?_, hf.progress, progress_increasing hf⟩
    intro w hw
    rw [hf.records w hw]
    exact ⟨rfl, fun hh => by simpa [observed] using hh⟩
  · intro record hp
    have hlast : s.phase.last = [record] := by rw [hp]; rfl
    refine ⟨hs.stopped record (hlast ▸ List.mem_singleton_self _), ?_⟩
    refine ⟨s.past.flatMap Session.records ++ s.session.records, fun later => ?_⟩
    rw [(hs.stopped_run hp later).1, hs.writes, hlast]

/-- What a scheduler finds that has just been attached. -/
def atStart : StatsFacts where
  nowMs := 5000
  uptimeNowMs := 5000
  nowSecs := 5
  kernelQueued := 0
  kernelScheduled := 0
  kernelUserDispatches := 0
  kernelDirectDispatches := 0
  kernelFailedDispatches := 0
  kernelCancelDispatches := 0
  accepted := true

/-- A scheduler that reports once and is unregistered while its child holds a healthy record. -/
def oneReport : List Event :=
  [.start true, .attach true 4900, .writeStats atStart, .receive, .receive, .exit false,
    .observe (some "enabled"), .kill, .putStatus true, .putStats true, .reap,
    .writeStopped true "disabled" 6 none]

/-- Its last record stays the stopped one. -/
theorem oneReport_stopped :
    ((boot 700 .balanced).run oneReport).past.map (fun session => session.counted.length) = [1] ∧
    (∀ session ∈ ((boot 700 .balanced).run oneReport).past ++
      [((boot 700 .balanced).run oneReport).session],
        (session.counted.map progress).Pairwise (· < ·)) ∧
    ∃ earlier, ∀ later, (((boot 700 .balanced).run oneReport).run later).writes =
      earlier ++ [stoppedStatus 700 "disabled" 6 none] := by
  obtain ⟨-, hsessions, hstopped⟩ := reported_faithfully 700 .balanced oneReport
  refine ⟨rfl, fun session hs => (hsessions session hs).2.2.2.2.2 ?_, (hstopped _ rfl).2⟩
  intro d hd
  rcases List.mem_append.mp hs with hs | hs
  · obtain rfl := List.mem_singleton.mp hs
    obtain rfl := List.mem_singleton.mp hd
    exact Nat.zero_lt_succ _
  · obtain rfl := List.mem_singleton.mp hs
    cases hd

end Reporting

end CerynthOS.Scx
