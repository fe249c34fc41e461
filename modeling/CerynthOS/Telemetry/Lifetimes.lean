import CerynthOS.Telemetry.Rates

/-! How long the processes live, over whole runs.

    The source keeps for every process of the last call the instant at which its unbroken presence
    began. A process that comes back after it has left begins anew, so each presence ends once, and
    it is looked at in the call that misses it. -/

namespace CerynthOS.Telemetry
open ProcTelemetrySource Machine

/-- The processes that call `n` finds. -/
def pidsAt (calls : ℕ → Reading) (n : ℕ) : List ℤ := (calls n).pids.getD []

/-- The unbroken presence in which call `n` finds the process began with call `m`. -/
structure Present (calls : ℕ → Reading) (pid : ℤ) (m n : ℕ) : Prop where
  le : m ≤ n
  found : ∀ j, m ≤ j → j ≤ n → pid ∈ pidsAt calls j
  first : ∀ j, j + 1 = m → pid ∉ pidsAt calls j

/-- What the source keeps after call `n`: for each process that the call found, and for no other,
    the instant at which its presence began. -/
structure FirstSeen (calls : ℕ → Reading) (n : ℕ) (firstSeen : List (ℤ × ℚ)) : Prop where
  nodup : (firstSeen.map Prod.fst).Nodup
  mem : ∀ pid t, (pid, t) ∈ firstSeen ↔ ∃ m, Present calls pid m n ∧ t = (calls m).now

/-- A presence from call `m` to call `k` that call `k + 1` finds ended, and short. -/
structure ShortPresence (calls : ℕ → Reading) (pid : ℤ) (m k : ℕ) : Prop where
  present : Present calls pid m k
  gone : pid ∉ pidsAt calls (k + 1)
  short : (calls (k + 1)).now - (calls m).now < 5

variable {source : ProcTelemetrySource} {r : Reading} {clkTck : ℤ} {calls : ℕ → Reading}
  {pid : ℤ} {m m' n : ℕ} {now : ℚ} {firstSeen : List (ℤ × ℚ)} {pids : List ℤ}

/-! ### Presences -/

theorem Present.unique (h : Present calls pid m n) (h' : Present calls pid m' n) : m = m' := by
  have key : ∀ {a b : ℕ}, Present calls pid a n → Present calls pid b n → ¬ a < b := by
    intro a b ha hb hlt
    obtain ⟨j, rfl⟩ := Nat.exists_eq_add_of_le' (Nat.succ_le_of_lt (Nat.zero_lt_of_lt hlt))
    have := hb.le
    exact hb.first j rfl (ha.found j (by omega) (by omega))
  have := key h h'
  have := key h' h
  omega

/-- A presence goes on, or a new one begins. -/
theorem present_succ : Present calls pid m (n + 1) ↔ pid ∈ pidsAt calls (n + 1) ∧
    (Present calls pid m n ∨ (m = n + 1 ∧ pid ∉ pidsAt calls n)) := by
  constructor
  · intro h
    refine ⟨h.found (n + 1) h.le le_rfl, ?_⟩
    rcases Nat.lt_or_eq_of_le h.le with hlt | rfl
    · exact .inl ⟨Nat.le_of_lt_succ hlt, fun j hm hj => h.found j hm (by omega), h.first⟩
    · exact .inr ⟨rfl, h.first n rfl⟩
  · rintro ⟨hpid, h | ⟨rfl, hnot⟩⟩
    · refine ⟨Nat.le_succ_of_le h.le, fun j hm hj => ?_, h.first⟩
      rcases Nat.le_succ_iff.mp hj with hj | rfl
      · exact h.found j hm hj
      · exact hpid
    · refine ⟨le_rfl, fun j hm hj => ?_, fun j hj => ?_⟩
      · obtain rfl := le_antisymm hj hm
        exact hpid
      · obtain rfl := Nat.succ_injective hj
        exact hnot

theorem exists_present (h : pid ∈ pidsAt calls n) : ∃ m, Present calls pid m n := by
  induction n with
  | zero =>
    refine ⟨0, le_rfl, fun j _ hj => ?_, fun j hj => absurd hj (Nat.succ_ne_zero j)⟩
    obtain rfl := Nat.le_zero.mp hj
    exact h
  | succ n ih =>
    by_cases hn : pid ∈ pidsAt calls n
    · obtain ⟨m, hm⟩ := ih hn
      exact ⟨m, present_succ.mpr ⟨h, .inl hm⟩⟩
    · exact ⟨n + 1, present_succ.mpr ⟨h, .inr ⟨rfl, hn⟩⟩⟩

/-! ### One call -/

theorem lookup_isSome : (firstSeen.lookup pid).isSome ↔ pid ∈ firstSeen.map Prod.fst := by
  induction firstSeen with
  | nil => simp
  | cons entry firstSeen ih =>
    obtain ⟨q, t⟩ := entry
    by_cases h : pid = q
    · simp [h]
    · have hne : (pid == q) = false := by simpa using h
      rw [List.lookup_cons, hne, List.map_cons, List.mem_cons, ih]
      exact ⟨.inr, fun hmem => hmem.resolve_left h⟩

/-- The new processes are entered, each once. -/
theorem enter_spec (hnodup : (firstSeen.map Prod.fst).Nodup) (pids : List ℤ) :
    ((enter now firstSeen pids).map Prod.fst).Nodup ∧ ∀ pid t,
      (pid, t) ∈ enter now firstSeen pids ↔ (pid, t) ∈ firstSeen ∨
        (pid ∈ pids ∧ pid ∉ firstSeen.map Prod.fst ∧ t = now) := by
  induction pids generalizing firstSeen with
  | nil => simp [enter, hnodup]
  | cons q pids ih =>
    rw [enter, List.foldl_cons, ← enter]
    by_cases hq : q ∈ firstSeen.map Prod.fst
    · rw [if_pos (lookup_isSome.mpr hq)]
      obtain ⟨hnodup', hmem⟩ := ih hnodup
      refine ⟨hnodup', fun pid t => ?_⟩
      rw [hmem, List.mem_cons]
      have hne : pid ∉ firstSeen.map Prod.fst → pid ≠ q := by
        rintro hpid rfl
        exact hpid hq
      tauto
    · rw [if_neg (mt lookup_isSome.mp hq)]
      obtain ⟨hnodup', hmem⟩ := @ih ((q, now) :: firstSeen)
        (by simpa using ⟨by simpa using hq, hnodup⟩)
      refine ⟨hnodup', fun pid t => ?_⟩
      rw [hmem, List.mem_cons, List.mem_cons, List.map_cons, List.mem_cons, Prod.mk.injEq]
      by_cases hpid : pid = q
      · subst hpid
        tauto
      · tauto

/-- What a call that succeeds keeps and reports of the lifetimes. -/
theorem collect_lifetimes (source : ProcTelemetrySource) (h : r.Succeeds) :
    (source.collect r).1.pidFirstSeen =
      (source.shortLived r.now (r.pids.getD [])).1.pidFirstSeen ∧
    (source.collect r).1.prevSampleAt = some r.now ∧
    ∃ snapshot, (source.collect r).2 = .ok snapshot ∧
      snapshot.shortLivedProcessRate = if 0 < source.elapsedSecs r.now then
        toF64 (source.shortLived r.now (r.pids.getD [])).2 / asSecsF64 (source.elapsedSecs r.now)
        else 0.0 := by
  obtain ⟨now, timestampMs, stat, loadavg, meminfo, state, processes, pids, profile⟩ := r
  obtain ⟨h₁, h₂, h₃, h₄⟩ := h
  obtain ⟨timestampMs, rfl⟩ := Option.isSome_iff_exists.mp h₁
  obtain ⟨stat, rfl⟩ := Option.isSome_iff_exists.mp h₂
  obtain ⟨loadavg, rfl⟩ := Option.isSome_iff_exists.mp h₃
  obtain ⟨mem, rfl⟩ := Option.isSome_iff_exists.mp h₄
  refine ⟨?_, rfl, _, rfl, ?_⟩ <;> cases processes <;> rfl

/-- Those that were kept and are missed now are looked at, and the young among them counted. -/
theorem shortLived_spec (hnodup : (source.pidFirstSeen.map Prod.fst).Nodup) (now : ℚ)
    (pids : List ℤ) :
    ((source.shortLived now pids).1.pidFirstSeen.map Prod.fst).Nodup ∧
    (∀ pid t, (pid, t) ∈ (source.shortLived now pids).1.pidFirstSeen ↔ pid ∈ pids ∧
      ((pid, t) ∈ source.pidFirstSeen ∨
        (pid ∉ source.pidFirstSeen.map Prod.fst ∧ t = now))) ∧
    (source.shortLived now pids).2 = Set.ncard {pid | pid ∉ pids ∧
      ∃ t, (pid, t) ∈ source.pidFirstSeen ∧ now - t < 5} := by
  obtain ⟨hnodup', hmem⟩ := @enter_spec now _ hnodup pids
  refine ⟨?_, fun pid t => ?_, ?_⟩
  · exact hnodup'.sublist (List.Sublist.map _ List.filter_sublist)
  · rw [shortLived, List.mem_filter, hmem, decide_eq_true_eq]
    tauto
  · set young := ((enter now source.pidFirstSeen pids).filter fun entry => entry.1 ∉ pids).filter
      fun entry => max 0 (now - entry.2) < shortLivedThresholdSecs with hyoung
    have hnodup'' : (young.map Prod.fst).Nodup :=
      hnodup'.sublist (List.Sublist.map _ (List.filter_sublist.trans List.filter_sublist))
    have hset : {pid | pid ∉ pids ∧ ∃ t, (pid, t) ∈ source.pidFirstSeen ∧ now - t < 5} =
        ((young.map Prod.fst).toFinset : Set ℤ) := by
      ext pid
      rw [Finset.mem_coe, List.mem_toFinset, List.mem_map, Set.mem_ofPred_eq]
      constructor
      · rintro ⟨hpid, t, ht, hlt⟩
        refine ⟨(pid, t), List.mem_filter.mpr ⟨List.mem_filter.mpr ⟨?_, by simpa using hpid⟩, ?_⟩,
          rfl⟩
        · exact (hmem pid t).mpr (.inl ht)
        · exact decide_eq_true (max_lt (by norm_num [shortLivedThresholdSecs]) hlt)
      · rintro ⟨⟨pid, t⟩, hentry, rfl⟩
        rw [hyoung, List.mem_filter, List.mem_filter, hmem, decide_eq_true_eq,
          decide_eq_true_eq] at hentry
        obtain ⟨⟨hin, hpid⟩, hlt⟩ := hentry
        refine ⟨hpid, t, hin.resolve_right fun hnew => hpid hnew.1, ?_⟩
        exact (le_max_right _ _).trans_lt hlt
    rw [hset, Set.ncard_coe_finset, List.toFinset_card_of_nodup hnodup'', List.length_map,
      hyoung, ← List.countP_eq_length_filter]
    rfl

/-! ### Runs -/

theorem firstSeen_zero (h : (calls 0).Succeeds) :
    FirstSeen calls 0 (before clkTck calls 1).pidFirstSeen ∧
      (before clkTck calls 1).prevSampleAt = some (calls 0).now := by
  obtain ⟨hkept, hsample, -⟩ := collect_lifetimes (before clkTck calls 0) h
  obtain ⟨hnodup, hmem, -⟩ := @shortLived_spec (before clkTck calls 0)
    List.nodup_nil (calls 0).now (pidsAt calls 0)
  refine ⟨⟨by rw [before, hkept]; exact hnodup, fun pid t => ?_⟩, hsample⟩
  rw [before, hkept]
  refine (hmem pid t).trans ?_
  constructor
  · rintro ⟨hpid, hold | ⟨-, rfl⟩⟩
    · exact absurd hold List.not_mem_nil
    · obtain ⟨m, hm⟩ := exists_present hpid
      obtain rfl := Nat.le_zero.mp hm.le
      exact ⟨0, hm, rfl⟩
  · rintro ⟨m, hm, rfl⟩
    obtain rfl := Nat.le_zero.mp hm.le
    exact ⟨hm.found 0 le_rfl le_rfl, .inr ⟨List.not_mem_nil, rfl⟩⟩

theorem FirstSeen.mem_keys (h : FirstSeen calls n firstSeen) :
    pid ∈ firstSeen.map Prod.fst ↔ pid ∈ pidsAt calls n := by
  rw [List.mem_map]
  constructor
  · rintro ⟨⟨pid, t⟩, hentry, rfl⟩
    obtain ⟨m, hm, -⟩ := (h.mem pid t).mp hentry
    exact hm.found n hm.le le_rfl
  · intro hpid
    obtain ⟨m, hm⟩ := exists_present hpid
    exact ⟨(pid, (calls m).now), (h.mem _ _).mpr ⟨m, hm, rfl⟩, rfl⟩

theorem firstSeen_succ (h : FirstSeen calls n (before clkTck calls (n + 1)).pidFirstSeen)
    (hok : (calls (n + 1)).Succeeds) :
    FirstSeen calls (n + 1) (before clkTck calls (n + 2)).pidFirstSeen := by
  obtain ⟨hkept, -⟩ := collect_lifetimes (before clkTck calls (n + 1)) hok
  obtain ⟨hnodup, hmem, -⟩ := shortLived_spec h.nodup (calls (n + 1)).now (pidsAt calls (n + 1))
  refine ⟨by rw [before, hkept]; exact hnodup, fun pid t => ?_⟩
  rw [before, hkept]
  refine (hmem pid t).trans ?_
  rw [h.mem, h.mem_keys]
  simp only [present_succ]
  constructor
  · rintro ⟨hpid, ⟨m, hm, rfl⟩ | ⟨hnew, rfl⟩⟩
    · exact ⟨m, ⟨hpid, .inl hm⟩, rfl⟩
    · exact ⟨n + 1, ⟨hpid, .inr ⟨rfl, hnew⟩⟩, rfl⟩
  · rintro ⟨m, ⟨hpid, hm | ⟨rfl, hnew⟩⟩, rfl⟩
    · exact ⟨hpid, .inl ⟨m, hm, rfl⟩⟩
    · exact ⟨hpid, .inr ⟨hnew, rfl⟩⟩

theorem firstSeen_run (hok : ∀ k ≤ n, (calls k).Succeeds) :
    FirstSeen calls n (before clkTck calls (n + 1)).pidFirstSeen ∧
      (before clkTck calls (n + 1)).prevSampleAt = some (calls n).now := by
  induction n with
  | zero => exact firstSeen_zero (hok 0 le_rfl)
  | succ n ih =>
    obtain ⟨hseen, -⟩ := ih fun k hk => hok k (by omega)
    exact ⟨firstSeen_succ hseen (hok (n + 1) le_rfl),
      (collect_lifetimes (before clkTck calls (n + 1)) (hok (n + 1) le_rfl)).2.1⟩

/-- A rate counts the short presences that ended with the call before. -/
theorem shortLivedProcessRate_eq (hok : ∀ k ≤ n + 1, (calls k).Succeeds)
    (ht : (calls n).now < (calls (n + 1)).now) :
    ∃ snapshot, returned clkTck calls (n + 1) = .ok snapshot ∧ snapshot.shortLivedProcessRate =
      toF64 (Set.ncard {pid | ∃ m, ShortPresence calls pid m n}) /
        asSecsF64 ((calls (n + 1)).now - (calls n).now) := by
  obtain ⟨hseen, hsample⟩ :=
    @firstSeen_run clkTck calls n fun k hk => hok k (Nat.le_succ_of_le hk)
  obtain ⟨-, -, snapshot, hsnapshot, hrate⟩ :=
    collect_lifetimes (before clkTck calls (n + 1)) (hok (n + 1) le_rfl)
  refine ⟨snapshot, hsnapshot, ?_⟩
  have hpos : 0 < (calls (n + 1)).now - (calls n).now := sub_pos.mpr ht
  have helapsed : (before clkTck calls (n + 1)).elapsedSecs (calls (n + 1)).now =
      (calls (n + 1)).now - (calls n).now := by
    rw [elapsedSecs, hsample]
    exact max_eq_right hpos.le
  have hcount := (shortLived_spec hseen.nodup (calls (n + 1)).now (pidsAt calls (n + 1))).2.2
  have hset : {pid | pid ∉ pidsAt calls (n + 1) ∧ ∃ t,
      (pid, t) ∈ (before clkTck calls (n + 1)).pidFirstSeen ∧ (calls (n + 1)).now - t < 5} =
      {pid | ∃ m, ShortPresence calls pid m n} := by
    ext pid
    simp only [Set.mem_ofPred_eq, hseen.mem]
    constructor
    · rintro ⟨hgone, t, ⟨m, hm, rfl⟩, hshort⟩
      exact ⟨m, hm, hgone, hshort⟩
    · rintro ⟨m, hm, hgone, hshort⟩
      exact ⟨hgone, _, ⟨m, hm, rfl⟩, hshort⟩
  rw [hset] at hcount
  rw [hrate, helapsed, if_pos hpos, ← hcount]
  rfl

/-! ### The whole run -/

/-- The short presences that have ended before call `n`. -/
def shortPresences (calls : ℕ → Reading) (n : ℕ) : Set (ℤ × ℕ × ℕ) :=
  {p | p.2.2 < n ∧ ShortPresence calls p.1 p.2.1 p.2.2}

theorem ncard_slice (calls : ℕ → Reading) (n : ℕ) :
    {p : ℤ × ℕ × ℕ | p.2.2 = n ∧ ShortPresence calls p.1 p.2.1 p.2.2}.Finite ∧
    Set.ncard {p : ℤ × ℕ × ℕ | p.2.2 = n ∧ ShortPresence calls p.1 p.2.1 p.2.2} =
      Set.ncard {pid | ∃ m, ShortPresence calls pid m n} := by
  have himage : Prod.fst '' {p : ℤ × ℕ × ℕ | p.2.2 = n ∧ ShortPresence calls p.1 p.2.1 p.2.2} =
      {pid | ∃ m, ShortPresence calls pid m n} := by
    ext pid
    constructor
    · rintro ⟨⟨pid, m, k⟩, ⟨rfl, h⟩, rfl⟩
      exact ⟨m, h⟩
    · rintro ⟨m, h⟩
      exact ⟨(pid, m, n), ⟨rfl, h⟩, rfl⟩
  have hinj : Set.InjOn Prod.fst
      {p : ℤ × ℕ × ℕ | p.2.2 = n ∧ ShortPresence calls p.1 p.2.1 p.2.2} := by
    rintro ⟨pid, m, k⟩ ⟨hk, h⟩ ⟨pid', m', k'⟩ ⟨hk', h'⟩ hpid
    obtain rfl : pid = pid' := hpid
    obtain rfl : k = k' := hk.trans hk'.symm
    obtain rfl : m = m' := h.present.unique h'.present
    rfl
  have hfinite : {pid | ∃ m, ShortPresence calls pid m n}.Finite := by
    refine (pidsAt calls n).toFinset.finite_toSet.subset ?_
    rintro pid ⟨m, h⟩
    exact List.mem_toFinset.mpr (h.present.found n h.present.le le_rfl)
  rw [← himage] at hfinite ⊢
  exact ⟨hfinite.of_finite_image hinj, hinj.ncard_image.symm⟩

theorem shortPresences_succ (calls : ℕ → Reading) (n : ℕ) :
    shortPresences calls (n + 1) = shortPresences calls n ∪
      {p | p.2.2 = n ∧ ShortPresence calls p.1 p.2.1 p.2.2} := by
  ext p
  rw [Set.mem_union, shortPresences, shortPresences, Set.mem_ofPred_eq, Set.mem_ofPred_eq,
    Set.mem_ofPred_eq, Nat.lt_succ_iff_lt_or_eq]
  tauto

/-- Every short presence belongs to the one call that finds it ended. -/
theorem ncard_shortPresences (calls : ℕ → Reading) (n : ℕ) :
    (shortPresences calls n).Finite ∧ Set.ncard (shortPresences calls n) =
      ∑ k ∈ Finset.range n, Set.ncard {pid | ∃ m, ShortPresence calls pid m k} := by
  induction n with
  | zero =>
    have hempty : shortPresences calls 0 = ∅ :=
      Set.eq_empty_of_forall_notMem fun p hp => Nat.not_lt_zero _ hp.1
    rw [hempty, Set.ncard_empty, Finset.sum_range_zero]
    exact ⟨Set.finite_empty, rfl⟩
  | succ n ih =>
    obtain ⟨hfinite, hcard⟩ := ih
    obtain ⟨hslice, hcard'⟩ := ncard_slice calls n
    have hdisjoint : Disjoint (shortPresences calls n)
        {p | p.2.2 = n ∧ ShortPresence calls p.1 p.2.1 p.2.2} :=
      Set.disjoint_left.mpr fun p hp hp' => hp.1.ne hp'.1
    rw [shortPresences_succ, Finset.sum_range_succ, ← hcard, ← hcard',
      Set.ncard_union_eq hdisjoint hfinite hslice]
    exact ⟨hfinite.union hslice, rfl⟩

/-- After every call that succeeded, as all before it at increasing times, the source keeps exactly
    the processes that the call found, each with the instant at which its unbroken presence began.
    Each rate counts the presences under five seconds that ended since the call before, divided by
    the time since that call, so over the run each presence that ended is looked at once. -/
theorem lifetimes (clkTck : ℤ) (calls : ℕ → Reading) (n : ℕ)
    (hok : ∀ k ≤ n, (calls k).Succeeds) (ht : ∀ k < n, (calls k).now < (calls (k + 1)).now) :
    FirstSeen calls n (before clkTck calls (n + 1)).pidFirstSeen ∧
    (∀ pid, pid ∈ (before clkTck calls (n + 1)).pidFirstSeen.map Prod.fst ↔
      pid ∈ pidsAt calls n) ∧
    (∀ k < n, ∃ snapshot, returned clkTck calls (k + 1) = .ok snapshot ∧
      snapshot.shortLivedProcessRate =
        toF64 (Set.ncard {pid | ∃ m, ShortPresence calls pid m k}) /
          asSecsF64 ((calls (k + 1)).now - (calls k).now)) ∧
    ∑ k ∈ Finset.range n, Set.ncard {pid | ∃ m, ShortPresence calls pid m k} =
      Set.ncard (shortPresences calls n) := by
  have hseen := (@firstSeen_run clkTck calls n hok).1
  refine ⟨hseen, fun pid => hseen.mem_keys, fun k hk => ?_, (ncard_shortPresences calls n).2.symm⟩
  exact shortLivedProcessRate_eq (fun j hj => hok j (by omega)) (ht k hk)

/-- A call a second, and a process that every other call misses. -/
def comesAndGoes (n : ℕ) : Reading :=
  { reading n (1000 * n) (100 * n) with pids := some (if n % 2 = 0 then [1, 7] else [1]) }

/-- The process is counted when it is missed, and enters anew when it is back. -/
theorem comesAndGoes_lifetimes :
    FirstSeen comesAndGoes 2 (before 100 comesAndGoes 3).pidFirstSeen ∧
    ∑ k ∈ Finset.range 2, Set.ncard {pid | ∃ m, ShortPresence comesAndGoes pid m k} =
      Set.ncard (shortPresences comesAndGoes 2) := by
  have h := lifetimes 100 comesAndGoes 2 (fun k _ => ⟨rfl, rfl, rfl, rfl⟩)
    fun k _ => Nat.cast_lt.mpr (Nat.lt_succ_self k)
  exact ⟨h.1, h.2.2.2⟩

/-- A process that is gone 1.9 seconds after the first call. -/
def goneSoon : ℕ → Reading
  | 0 => { reading 0 0 0 with pids := some [1, 7] }
  | _ => reading (19 / 10) 0 0

theorem goneSoon_short : {pid | ∃ m, ShortPresence goneSoon pid m 0} = {7} := by
  ext pid
  rw [Set.mem_ofPred_eq, Set.mem_singleton_iff]
  constructor
  · rintro ⟨m, hpresent, hgone, -⟩
    have hin : pid ∈ [1, 7] := hpresent.found 0 hpresent.le le_rfl
    have hout : pid ∉ [1] := hgone
    simp at hin hout
    tauto
  · rintro rfl
    refine ⟨0, ⟨le_rfl, fun j _ hj => ?_, fun j hj => absurd hj (by omega)⟩, ?_, ?_⟩
    · obtain rfl := Nat.le_zero.mp hj
      exact List.mem_cons_of_mem _ List.mem_cons_self
    · decide
    · norm_num [goneSoon, reading]

/-- The rate of the one process that is gone is rounded: times the seconds between the calls it is
    not one, neither exactly nor in doubles. -/
theorem rate_rounded : ¬ ∀ (clkTck : ℤ) (calls : ℕ → Reading) (n : ℕ),
    (∀ k ≤ n, (calls k).Succeeds) → (∀ k < n, (calls k).now < (calls (k + 1)).now) →
    ∀ k < n, ∀ snapshot, returned clkTck calls (k + 1) = .ok snapshot →
      value snapshot.shortLivedProcessRate * ((calls (k + 1)).now - (calls k).now) =
          Set.ncard {pid | ∃ m, ShortPresence calls pid m k} ∨
        snapshot.shortLivedProcessRate * asSecsF64 ((calls (k + 1)).now - (calls k).now) =
          toF64 (Set.ncard {pid | ∃ m, ShortPresence calls pid m k}) := by
  intro h
  have hok : ∀ k ≤ 1, (goneSoon k).Succeeds := by
    intro k _
    cases k <;> exact ⟨rfl, rfl, rfl, rfl⟩
  have ht : ∀ k < 1, (goneSoon k).now < (goneSoon (k + 1)).now := by
    intro k hk
    obtain rfl := Nat.lt_one_iff.mp hk
    norm_num [goneSoon, reading]
  obtain ⟨snapshot, hreturned, hrate⟩ :=
    @shortLivedProcessRate_eq 100 goneSoon 0 hok (ht 0 (by decide))
  have hboth := h 100 goneSoon 1 hok ht 0 (by decide) snapshot hreturned
  have hspan : (goneSoon (0 + 1)).now - (goneSoon 0).now = 19 / 10 := by
    norm_num [goneSoon, reading]
  rw [hrate, goneSoon_short, Set.ncard_singleton, hspan] at hboth
  revert hboth
  decide +kernel

end CerynthOS.Telemetry
