import CerynthOS.Schemes.StableSort
import CerynthOS.Scx.Policy

/-! The order of a batch under Interactive.

    One key holds two groups: the tasks that have waited for the threshold or longer, by their waits,
    and behind them the others, by their run times. Both are measured against the newest task of the
    batch, so that a change of one task can change the waits of all. -/

namespace CerynthOS.Scx
open Machine

/-- How long a task has waited by this time. -/
def waited (now : UInt64) (task : QueuedTask) : ℕ := now.toNat - task.stopTs.toNat

/-- The task has waited for the threshold or longer. -/
def starved (now : UInt64) (task : QueuedTask) : Bool :=
  decide (starvationThresholdNs.toNat ≤ waited now task)

/-- The newest time at which a task of the batch has left a processor. -/
structure IsNewest (now : UInt64) (tasks : List QueuedTask) : Prop where
  mem : ∃ task ∈ tasks, task.stopTs = now
  le : ∀ task ∈ tasks, task.stopTs.toNat ≤ now.toNat

/-- The sort key as a value of a linear order. -/
def rescueLex (now : UInt64) (task : QueuedTask) : ℕ ×ₗ ℕ :=
  toLex ((rescueKey now task).1, (rescueKey now task).2.toNat)

variable {now : UInt64} {tasks : List QueuedTask}

theorem IsNewest.unique {now' : UInt64} (h : IsNewest now tasks) (h' : IsNewest now' tasks) :
    now = now' := by
  obtain ⟨task, hmem, rfl⟩ := h.mem
  obtain ⟨task', hmem', rfl⟩ := h'.mem
  exact UInt64.toNat_inj.mp (le_antisymm (h'.le task hmem) (h.le task' hmem'))

theorem foldl_max_spec (tasks : List QueuedTask) (now : UInt64) :
    (tasks.foldl (fun now t => max now t.stopTs) now = now ∨
      ∃ task ∈ tasks, task.stopTs = tasks.foldl (fun now t => max now t.stopTs) now) ∧
    now.toNat ≤ (tasks.foldl (fun now t => max now t.stopTs) now).toNat ∧
    ∀ task ∈ tasks,
      task.stopTs.toNat ≤ (tasks.foldl (fun now t => max now t.stopTs) now).toNat := by
  induction tasks generalizing now with
  | nil => exact ⟨.inl rfl, le_rfl, fun _ h => absurd h List.not_mem_nil⟩
  | cons task tasks ih =>
    obtain ⟨hwhere, hle, hall⟩ := ih (max now task.stopTs)
    rw [UInt64.toNat_max] at hle
    rw [List.foldl_cons]
    refine ⟨?_, le_trans (le_max_left _ _) hle, fun t ht => ?_⟩
    · obtain hsame | ⟨t, ht, hstop⟩ := hwhere
      · rw [hsame]
        by_cases hmax : now ≤ task.stopTs
        · exact .inr ⟨task, List.mem_cons_self, by simp [max, hmax]⟩
        · exact .inl (by simp [max, hmax])
      · exact .inr ⟨t, List.mem_cons_of_mem _ ht, hstop⟩
    · obtain rfl | ht := List.mem_cons.mp ht
      · exact le_trans (le_max_right _ _) hle
      · exact hall t ht

theorem newestStop_spec (h : newestStop tasks = some now) : IsNewest now tasks := by
  cases tasks with
  | nil => cases h
  | cons task tasks =>
    obtain ⟨hwhere, hle, hall⟩ := foldl_max_spec tasks task.stopTs
    obtain rfl := Option.some.inj h
    refine ⟨?_, fun t ht => ?_⟩
    · obtain hsame | ⟨t, ht, hstop⟩ := hwhere
      · exact ⟨task, List.mem_cons_self, hsame.symm⟩
      · exact ⟨t, List.mem_cons_of_mem _ ht, hstop⟩
    · obtain rfl | ht := List.mem_cons.mp ht
      · exact hle
      · exact hall t ht

theorem newestStop_eq (h : IsNewest now tasks) : newestStop tasks = some now := by
  cases hn : newestStop tasks with
  | none =>
    obtain ⟨task, hmem, -⟩ := h.mem
    cases tasks with
    | nil => exact absurd hmem List.not_mem_nil
    | cons task tasks => cases hn
  | some now' => rw [(newestStop_spec hn).unique h]

/-! ### The key -/

theorem satSub64_stopTs (now : UInt64) (task : QueuedTask) :
    (satSub64 now task.stopTs).toNat = waited now task := satSub64_toNat _ _

theorem rescueKey_starved {task : QueuedTask} (h : starved now task = true) :
    rescueKey now task = (0, 0xFFFFFFFFFFFFFFFF - satSub64 now task.stopTs) := by
  rw [starved, decide_eq_true_eq, ← satSub64_stopTs, ← UInt64.le_iff_toNat_le] at h
  exact if_pos h

theorem rescueKey_other {task : QueuedTask} (h : starved now task = false) :
    rescueKey now task = (1, task.execRuntime) := by
  rw [starved, decide_eq_false_iff_not, ← satSub64_stopTs, ← UInt64.le_iff_toNat_le] at h
  exact if_neg h

/-- The subtraction in the key does not wrap. -/
theorem toNat_complement (x : UInt64) :
    (0xFFFFFFFFFFFFFFFF - x).toNat = 2 ^ 64 - 1 - x.toNat := by
  rw [UInt64.toNat_sub_of_le]
  · rfl
  · rw [UInt64.le_iff_toNat_le]
    exact Nat.le_of_lt_succ x.toNat_lt

theorem rescueLex_starved {task : QueuedTask} (h : starved now task = true) :
    rescueLex now task = toLex (0, 2 ^ 64 - 1 - waited now task) := by
  rw [rescueLex, rescueKey_starved h, toNat_complement, satSub64_stopTs]

theorem rescueLex_other {task : QueuedTask} (h : starved now task = false) :
    rescueLex now task = toLex (1, task.execRuntime.toNat) := by
  rw [rescueLex, rescueKey_other h]

theorem waited_lt (now : UInt64) (task : QueuedTask) : waited now task < 2 ^ 64 :=
  (Nat.sub_le _ _).trans_lt now.toNat_lt

/-- The comparison of the sort is that of the linear order. -/
theorem keyLe_eq (now : UInt64) (a b : QueuedTask) :
    keyLe (rescueKey now a) (rescueKey now b) = StableSort.byKey (rescueLex now) a b := by
  rw [StableSort.byKey, rescueLex, rescueLex, keyLe, Bool.eq_iff_iff, decide_eq_true_eq,
    Prod.Lex.toLex_le_toLex, Bool.or_eq_true, Bool.and_eq_true, decide_eq_true_eq, beq_iff_eq,
    decide_eq_true_eq, UInt64.le_iff_toNat_le]

theorem rescueStarvedTasks_eq (h : IsNewest now tasks) :
    rescueStarvedTasks tasks = tasks.mergeSort (StableSort.byKey (rescueLex now)) := by
  rw [rescueStarvedTasks, newestStop_eq h]
  simp only [keyLe_eq]

theorem starved_lt {a b : QueuedTask} (ha : starved now a = true) (hb : starved now b = false) :
    rescueLex now a < rescueLex now b := by
  rw [rescueLex_starved ha, rescueLex_other hb, Prod.Lex.toLex_lt_toLex]
  exact .inl Nat.one_pos

/-! ### The two groups -/

/-- The tasks that have waited too long are sorted by their waits, the longest first. -/
theorem starved_sorted {ys : List QueuedTask}
    (h : StableSort (rescueLex now) (tasks.filter (starved now)) ys) :
    StableSort (fun task => OrderDual.toDual (waited now task)) (tasks.filter (starved now)) ys := by
  refine h.congr fun a ha b hb => ?_
  rw [rescueLex_starved (List.of_mem_filter ha), rescueLex_starved (List.of_mem_filter hb),
    Prod.Lex.toLex_le_toLex, OrderDual.toDual_le_toDual]
  have := waited_lt now a
  have := waited_lt now b
  simp only [lt_self_iff_false, true_and, false_or]
  omega

/-- The others are sorted by their run times, the shortest first. -/
theorem others_sorted {ys : List QueuedTask}
    (h : StableSort (rescueLex now) (tasks.filter fun task => !starved now task) ys) :
    StableSort (fun task => task.execRuntime.toNat)
      (tasks.filter fun task => !starved now task) ys := by
  refine h.congr fun a ha b hb => ?_
  have ha := List.of_mem_filter ha
  have hb := List.of_mem_filter hb
  rw [Bool.not_eq_true'] at ha hb
  rw [rescueLex_other ha, rescueLex_other hb, Prod.Lex.toLex_le_toLex]
  simp

/-- A batch is dispatched as it has come, or under Interactive first the tasks that have waited too
    long, by their waits, and then the others, by their run times. The differences in the key are
    exact. -/
theorem orderTasks_spec (profile : Profile) (tasks : List QueuedTask) :
    (orderTasks profile tasks).Perm tasks ∧
    (profile ≠ .interactive → orderTasks profile tasks = tasks) ∧
    (profile = .interactive → ∀ now, IsNewest now tasks →
      (∃ rescued others, orderTasks profile tasks = rescued ++ others ∧
        StableSort (fun task => OrderDual.toDual (waited now task))
          (tasks.filter (starved now)) rescued ∧
        StableSort (fun task => task.execRuntime.toNat)
          (tasks.filter fun task => !starved now task) others) ∧
      ∀ task ∈ tasks,
        ((satSub64 now task.stopTs).toNat : ℤ) = now.toNat - task.stopTs.toNat ∧
        ((0xFFFFFFFFFFFFFFFF - satSub64 now task.stopTs).toNat : ℤ) =
          2 ^ 64 - 1 - (satSub64 now task.stopTs).toNat) := by
  refine ⟨orderTasks_perm profile tasks, fun h => ?_, ?_⟩
  · cases profile with
    | interactive => exact absurd rfl h
    | _ => rfl
  · rintro rfl now hnow
    refine ⟨?_, fun task hmem => ⟨?_, ?_⟩⟩
    · have hstarved := StableSort.mergeSort (rescueLex now) (tasks.filter (starved now))
      have hothers := StableSort.mergeSort (rescueLex now)
        (tasks.filter fun task => !starved now task)
      refine ⟨_, _, ?_, starved_sorted hstarved, others_sorted hothers⟩
      rw [orderTasks, rescueStarvedTasks_eq hnow]
      exact (StableSort.mergeSort (rescueLex now) tasks).unique
        (hstarved.append (fun a _ b _ => starved_lt) hothers)
    · rw [satSub64_toNat, Nat.cast_sub (hnow.le task hmem)]
    · have := (satSub64 now task.stopTs).toNat_lt
      rw [toNat_complement]
      omega

/-! ### Places in the order -/

/-- The places in the batch of the tasks, in the order of dispatch. -/
def dispatchOrder : Profile → List QueuedTask → List ℕ
  | .interactive, tasks =>
    match newestStop tasks with
    | none => []
    | some now => StableSort.order (rescueLex now) tasks
  | _, tasks => List.range tasks.length

theorem newestStop_isSome {task : QueuedTask} (h : task ∈ tasks) :
    ∃ now, newestStop tasks = some now := by
  cases tasks with
  | nil => exact absurd h List.not_mem_nil
  | cons task tasks => exact ⟨_, rfl⟩

theorem map_getElem?_range {α : Type} (xs : List α) :
    (List.range xs.length).map (xs[·]?) = xs.map some := by
  refine List.ext_getElem? fun i => ?_
  rw [List.getElem?_map, List.getElem?_map]
  by_cases hi : i < xs.length
  · simp [List.getElem?_range hi, List.getElem?_eq_getElem hi]
  · rw [List.getElem?_eq_none (by simpa using hi), List.getElem?_eq_none (by simpa using hi)]
    rfl

/-- What is dispatched is what stands at these places. -/
theorem dispatchOrder_map (profile : Profile) (tasks : List QueuedTask) :
    (dispatchOrder profile tasks).map (tasks[·]?) = (orderTasks profile tasks).map some := by
  cases profile with
  | interactive =>
    rw [dispatchOrder, orderTasks]
    cases hn : newestStop tasks with
    | none =>
      cases tasks with
      | nil => rw [rescueStarvedTasks]; rfl
      | cons task tasks => cases hn
    | some now =>
      rw [rescueStarvedTasks_eq (newestStop_spec hn)]
      exact StableSort.order_map _ _
  | _ => exact map_getElem?_range tasks

theorem dispatchOrder_perm (profile : Profile) (tasks : List QueuedTask) :
    (dispatchOrder profile tasks).Perm (List.range tasks.length) := by
  cases profile with
  | interactive =>
    rw [dispatchOrder]
    cases hn : newestStop tasks with
    | none =>
      cases tasks with
      | nil => exact .refl _
      | cons task tasks => cases hn
    | some now => exact StableSort.order_perm _ _
  | _ => exact .refl _

/-- Where the task at this place of the batch is dispatched under Interactive. -/
def dispatchPlace (tasks : List QueuedTask) (i : ℕ) : ℕ :=
  (dispatchOrder .interactive tasks).idxOf i

theorem dispatchPlace_eq (h : IsNewest now tasks) (i : ℕ) :
    dispatchPlace tasks i = StableSort.place (rescueLex now) tasks i := by
  rw [dispatchPlace, dispatchOrder, newestStop_eq h]
  rfl

theorem getElem?_dispatchPlace {i : ℕ} (hi : i < tasks.length) :
    (orderTasks .interactive tasks)[dispatchPlace tasks i]? = tasks[i]? := by
  obtain ⟨now, hn⟩ := newestStop_isSome (List.getElem_mem hi)
  have hnow := newestStop_spec hn
  rw [dispatchPlace_eq hnow, orderTasks, rescueStarvedTasks_eq hnow]
  exact StableSort.getElem?_place hi

/-! ### Waiting longer -/

/-- The task as if it had left its processor at another time. -/
def QueuedTask.withStop (task : QueuedTask) (stopTs : UInt64) : QueuedTask :=
  { task with stopTs := stopTs }

/-- The batch in which one task has left its processor at another time. -/
def withStop (tasks : List QueuedTask) (i : ℕ) (stopTs : UInt64) : List QueuedTask :=
  tasks.modify i (·.withStop stopTs)

/-- A task that has waited longer has no greater key. -/
theorem rescueLex_le {a b : QueuedTask} (hw : waited now b ≤ waited now a)
    (he : a.execRuntime = b.execRuntime) : rescueLex now a ≤ rescueLex now b := by
  cases ha : starved now a with
  | true =>
    cases hb : starved now b with
    | true =>
      rw [rescueLex_starved ha, rescueLex_starved hb, Prod.Lex.toLex_le_toLex]
      exact .inr ⟨rfl, Nat.sub_le_sub_left hw _⟩
    | false => exact (starved_lt ha hb).le
  | false =>
    have hb : starved now b = false := by
      rw [starved, decide_eq_false_iff_not] at ha ⊢
      omega
    rw [rescueLex_other ha, rescueLex_other hb, he]

/-- The newest task has not waited. -/
theorem not_starved_newest {task : QueuedTask} (h : task.stopTs = now) :
    starved now task = false := by
  rw [starved, waited, h, Nat.sub_self, decide_eq_false_iff_not]
  decide

/-- A task that is starved against an earlier time is starved. -/
theorem starved_mono {now' : UInt64} {task : QueuedTask} (hle : now'.toNat ≤ now.toNat)
    (h : starved now' task = true) : starved now task = true := by
  rw [starved, waited, decide_eq_true_eq] at h ⊢
  omega

/-- The newest time of a batch in which one task has left its processor earlier: it is the same, or
    that task was the newest. -/
theorem newest_withStop {now' stopTs : UInt64} {i : ℕ} {b : QueuedTask} (hb : tasks[i]? = some b)
    (hstop : stopTs.toNat ≤ b.stopTs.toNat) (hnow : IsNewest now tasks)
    (hnow' : IsNewest now' (withStop tasks i stopTs)) :
    now'.toNat ≤ now.toNat ∧ (now' = now ∨ b.stopTs = now) := by
  have hle : now'.toNat ≤ now.toNat := by
    obtain ⟨task, hmem, rfl⟩ := hnow'.mem
    obtain ⟨j, hj⟩ := List.getElem?_of_mem hmem
    rw [withStop] at hj
    by_cases hij : i = j
    · subst hij
      rw [List.getElem?_modify_eq, hb] at hj
      obtain rfl := Option.some.inj hj
      exact hstop.trans (hnow.le b (List.mem_of_getElem? hb))
    · rw [List.getElem?_modify_ne _ _ hij] at hj
      exact hnow.le task (List.mem_of_getElem? hj)
  refine ⟨hle, ?_⟩
  obtain ⟨task, hmem, htask⟩ := hnow.mem
  obtain ⟨j, hj⟩ := List.getElem?_of_mem hmem
  by_cases hij : i = j
  · subst hij
    rw [hb] at hj
    obtain rfl := Option.some.inj hj
    exact .inr htask
  · have hstill : task ∈ withStop tasks i stopTs := by
      refine List.mem_of_getElem? (i := j) ?_
      rw [withStop, List.getElem?_modify_ne _ _ hij, hj]
    have := hnow'.le task hstill
    rw [htask] at this
    exact .inl (UInt64.toNat_inj.mp (le_antisymm hle this))

/-- What comes before a task that has waited longer came before it already. -/
theorem before_withStop {now' stopTs : UInt64} {i j : ℕ} {b : QueuedTask} (hb : tasks[i]? = some b)
    (hstop : stopTs.toNat ≤ b.stopTs.toNat) (hnow : IsNewest now tasks)
    (hnow' : IsNewest now' (withStop tasks i stopTs))
    (h : StableSort.Before (rescueLex now') (withStop tasks i stopTs) j i) :
    StableSort.Before (rescueLex now) tasks j i := by
  have hij : i ≠ j := by
    rintro rfl
    exact h.asymm h
  obtain ⟨a, b', ha, hb', h⟩ := h
  rw [withStop, List.getElem?_modify_ne _ _ hij] at ha
  rw [withStop, List.getElem?_modify_eq, hb] at hb'
  obtain rfl := Option.some.inj hb'
  refine ⟨a, b, ha, hb, ?_⟩
  obtain ⟨hle, rfl | hnewest⟩ := newest_withStop hb hstop hnow hnow'
  · -- the time of reference is the same, and the task has waited longer
    have hkey : rescueLex now' (b.withStop stopTs) ≤ rescueLex now' b :=
      rescueLex_le (Nat.sub_le_sub_left hstop _) rfl
    obtain h | ⟨h, hji⟩ := h
    · exact .inl (h.trans_le hkey)
    · obtain hlt | heq := (h.trans_le hkey).lt_or_eq
      · exact .inl hlt
      · exact .inr ⟨heq, hji⟩
  · -- the task was the newest, so it was not starved
    have hbnot := not_starved_newest hnewest
    cases hastarved : starved now a with
    | true => exact .inl (starved_lt hastarved hbnot)
    | false =>
      have hanot : starved now' a = false := by
        by_contra hx
        rw [starved_mono hle (Bool.eq_true_of_not_eq_false hx)] at hastarved
        cases hastarved
      have hbnot' : starved now' (b.withStop stopTs) = false := by
        by_contra hx
        have hlt := starved_lt (Bool.eq_true_of_not_eq_false hx) hanot
        obtain h | ⟨h, -⟩ := h
        · exact hlt.asymm h
        · exact hlt.ne' h
      rw [rescueLex_other hanot, rescueLex_other hbnot'] at h
      rw [rescueLex_other hastarved, rescueLex_other hbnot]
      exact h

/-- A task that has waited longer is not dispatched later. -/
theorem dispatchPlace_withStop (tasks : List QueuedTask) (i : Fin tasks.length) (stopTs : UInt64)
    (h : stopTs ≤ tasks[i].stopTs) :
    dispatchPlace (withStop tasks i stopTs) i ≤ dispatchPlace tasks i ∧
    (orderTasks .interactive tasks)[dispatchPlace tasks i]? = some tasks[i] ∧
    (orderTasks .interactive (withStop tasks i stopTs))[dispatchPlace (withStop tasks i stopTs) i]? =
      some (tasks[i].withStop stopTs) := by
  have hlen : (withStop tasks i stopTs).length = tasks.length := List.length_modify _ _ _
  have hb : tasks[i.1]? = some tasks[i] := List.getElem?_eq_getElem i.2
  have hb' : (withStop tasks i stopTs)[i.1]? = some (tasks[i].withStop stopTs) := by
    rw [withStop, List.getElem?_modify_eq, hb]
    rfl
  refine ⟨?_, ?_, ?_⟩
  · obtain ⟨now, hn⟩ := newestStop_isSome (List.mem_of_getElem? hb)
    obtain ⟨now', hn'⟩ := newestStop_isSome (List.mem_of_getElem? hb')
    have hnow := newestStop_spec hn
    have hnow' := newestStop_spec hn'
    rw [dispatchPlace_eq hnow, dispatchPlace_eq hnow']
    exact StableSort.place_le_place i.2 hlen fun j =>
      before_withStop hb (UInt64.le_iff_toNat_le.mp h) hnow hnow'
  · rw [getElem?_dispatchPlace i.2, hb]
  · rw [getElem?_dispatchPlace (by rw [hlen]; exact i.2), hb']

/-- A task with nothing to it but when it left its processor and how long it ran. -/
def taskAt (stopTs execRuntime : UInt64) : QueuedTask where
  pid := 1201
  cpu := 0
  nrCpusAllowed := 4
  flags := 0
  startTs := 0
  stopTs := stopTs
  execRuntime := execRuntime
  weight := 100
  vtime := 0
  enqCnt := 1
  comm := .replicate 16 0

/-- A long task that is the newest of its batch, and the same task with the longest wait. -/
theorem newest_waits :
    dispatchPlace (withStop [taskAt 30000000 5, taskAt 25000000 1] 0 0) 0 ≤
      dispatchPlace [taskAt 30000000 5, taskAt 25000000 1] 0 ∧
    (orderTasks .interactive [taskAt 30000000 5, taskAt 25000000 1])[
      dispatchPlace [taskAt 30000000 5, taskAt 25000000 1] 0]? = some (taskAt 30000000 5) ∧
    (orderTasks .interactive (withStop [taskAt 30000000 5, taskAt 25000000 1] 0 0))[
      dispatchPlace (withStop [taskAt 30000000 5, taskAt 25000000 1] 0 0) 0]? =
      some (taskAt 0 5) :=
  dispatchPlace_withStop [taskAt 30000000 5, taskAt 25000000 1] ⟨0, by decide⟩ 0 (by decide)

end CerynthOS.Scx
