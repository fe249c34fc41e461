import Mathlib

/-! Tasks that share a state under one lock.

    A task has something to do or is refused, waits for the lock, runs its critical section step by
    step and releases the lock. Between two steps of a task all others may take theirs. `inv_run`
    says that every interleaving is the critical sections one after another, in the order in which
    the lock was acquired. -/

namespace Mutex
variable {ι σ τ : Type}

/-- A critical section: steps on the task's own data and the shared state. -/
abbrev Body (σ τ : Type) := List (τ × σ → τ × σ)

/-- The whole critical section. -/
def exec (body : Body σ τ) (x : τ × σ) : τ × σ := body.foldl (fun x f => f x) x

/-- The critical sections of these tasks, one after another. -/
def serial (body : Body σ τ) (order : List (ι × τ)) (shared : σ) : σ :=
  order.foldl (fun shared x => (exec body (x.2, shared)).2) shared

/-- Where a task is. -/
inductive Phase (σ τ : Type) where
  | idle
  | refused
  | waiting (data : τ)
  | inside (data : τ) (rest : Body σ τ)
  | done (data : τ)

/-- The shared state, who holds the lock, and who has acquired it so far, with what to do. -/
structure State (ι σ τ : Type) where
  shared : σ
  holder : Option ι
  phase : ι → Phase σ τ
  order : List (ι × τ)

def init (shared : σ) : State ι σ τ where
  shared := shared
  holder := none
  phase _ := .idle
  order := []

variable [DecidableEq ι] (input : ι → Option τ) (body : Body σ τ)

def State.move (s : State ι σ τ) (i : ι) (p : Phase σ τ) : State ι σ τ :=
  { s with phase := Function.update s.phase i p }

/-- One step of one task. A task that waits while the lock is held stays where it is. -/
def step (s : State ι σ τ) (i : ι) : State ι σ τ :=
  match s.phase i with
  | .idle =>
    match input i with
    | none => s.move i .refused
    | some data => s.move i (.waiting data)
  | .waiting data =>
    if s.holder.isNone then
      { s.move i (.inside data body) with holder := some i, order := s.order ++ [(i, data)] }
    else s
  | .inside data (f :: rest) =>
    let (data, shared) := f (data, s.shared)
    { s.move i (.inside data rest) with shared }
  | .inside data [] => { s.move i (.done data) with holder := none }
  | .refused | .done _ => s

/-- The tasks take steps in this order. -/
def run (schedule : List ι) (s : State ι σ τ) : State ι σ τ := schedule.foldl (step input body) s

/-! ### The invariant -/

/-- What is known of a task in this phase. -/
def Known (s₀ : σ) (s : State ι σ τ) (i : ι) : Phase σ τ → Prop
  | .idle => i ∉ s.order.map (·.1)
  | .refused => i ∉ s.order.map (·.1) ∧ input i = none
  | .waiting data => i ∉ s.order.map (·.1) ∧ input i = some data
  | .inside data rest => s.holder = some i ∧ ∃ before asked, s.order = before ++ [(i, asked)] ∧
    exec rest (data, s.shared) = exec body (asked, serial body before s₀)
  | .done data => ∃ before asked after, s.order = before ++ (i, asked) :: after ∧
    data = (exec body (asked, serial body before s₀)).1

structure Inv (s₀ : σ) (s : State ι σ τ) : Prop where
  nodup : (s.order.map (·.1)).Nodup
  asked : ∀ x ∈ s.order, input x.1 = some x.2
  known : ∀ i, Known input body s₀ s i (s.phase i)
  free : s.holder = none → s.shared = serial body s.order s₀

variable {input body} {s₀ : σ} {s s' : State ι σ τ} {i j : ι} {p : Phase σ τ}

omit [DecidableEq ι] in
theorem inv_init (s₀ : σ) : Inv input body s₀ (init s₀ : State ι σ τ) where
  nodup := List.nodup_nil
  asked _ h := absurd h List.not_mem_nil
  known _ := List.not_mem_nil
  free _ := rfl

omit [DecidableEq ι] in
theorem serial_concat (order : List (ι × τ)) (x : ι × τ) (shared : σ) :
    serial body (order ++ [x]) shared = (exec body (x.2, serial body order shared)).2 := by
  simp [serial]

omit [DecidableEq ι] in
/-- What is known of a task outside stays true while another one takes the lock or has it. -/
theorem Known.other (h : Known input body s₀ s j p) (hj : j ≠ i)
    (hholder : s.holder = none ∨ s.holder = some i)
    (horder : ∃ l, s'.order = s.order ++ l ∧ ∀ x ∈ l, x.1 = i) :
    Known input body s₀ s' j p := by
  obtain ⟨l, hl, hi⟩ := horder
  have hout (h : j ∉ s.order.map (·.1)) : j ∉ s'.order.map (·.1) := by
    intro hmem
    rw [hl, List.map_append] at hmem
    rcases List.mem_append.mp hmem with hmem | hmem
    · exact h hmem
    · obtain ⟨x, hx, rfl⟩ := List.mem_map.mp hmem
      exact hj (hi x hx)
  cases p with
  | idle => exact hout h
  | refused => exact ⟨hout h.1, h.2⟩
  | waiting data => exact ⟨hout h.1, h.2⟩
  | inside data rest =>
    rcases hholder with hh | hh
    · cases hh.symm.trans h.1
    · exact absurd (Option.some.inj (h.1.symm.trans hh)) hj
  | done data =>
    obtain ⟨before, asked, after, horder, hdata⟩ := h
    refine ⟨before, asked, after ++ l, ?_, hdata⟩
    rw [hl, horder, List.append_assoc, List.cons_append]

theorem known_update (hi : Known input body s₀ s' i p)
    (hj : ∀ j, j ≠ i → Known input body s₀ s' j (s.phase j)) :
    ∀ j, Known input body s₀ s' j (Function.update s.phase i p j) := by
  intro j
  rcases eq_or_ne j i with rfl | hne
  · rwa [Function.update_self]
  · rw [Function.update_of_ne hne]
    exact hj j hne

/-- A step of a task that does not touch the lock. -/
theorem Inv.move (h : Inv input body s₀ s) (hi : Known input body s₀ s i p) :
    Inv input body s₀ (s.move i p) where
  nodup := h.nodup
  asked := h.asked
  known := known_update hi fun j _ => h.known j
  free := h.free

theorem inv_step (h : Inv input body s₀ s) (i : ι) : Inv input body s₀ (step input body s i) := by
  have hi := h.known i
  rw [step]
  split
  case h_1 hp =>
    rw [hp] at hi
    split
    · exact h.move ⟨hi, ‹_›⟩
    · exact h.move ⟨hi, ‹_›⟩
  case h_2 data hp =>
    rw [hp] at hi
    split_ifs with hfree
    · have hfree := Option.isNone_iff_eq_none.mp hfree
      have hinside : Known input body s₀ { s with holder := some i, order := s.order ++ [(i, data)] }
          i (.inside data body) := ⟨rfl, s.order, data, rfl, by rw [← h.free hfree]⟩
      exact {
        nodup := by
          rw [List.map_append]
          refine List.nodup_append.mpr ⟨h.nodup, List.nodup_singleton i, fun a ha b hb hab => ?_⟩
          have hai : a = i := hab.trans (List.mem_singleton.mp hb)
          exact hi.1 (hai ▸ ha)
        asked := by
          intro x hx
          rcases List.mem_append.mp hx with hx | hx
          · exact h.asked x hx
          · obtain rfl := List.mem_singleton.mp hx
            exact hi.2
        known := known_update hinside fun j hj =>
          (h.known j).other hj (.inl hfree) ⟨[(i, data)], rfl, by simp⟩
        free := by rintro ⟨⟩ }
    · exact h
  case h_3 data f rest hp =>
    rw [hp] at hi
    obtain ⟨hholder, before, asked, horder, hexec⟩ := hi
    exact {
      nodup := h.nodup
      asked := h.asked
      known := known_update ⟨hholder, before, asked, horder, hexec⟩ fun j hj =>
        (h.known j).other hj (.inr hholder) ⟨[], (List.append_nil _).symm, by simp⟩
      free := fun hfree => by cases hfree.symm.trans hholder }
  case h_4 data hp =>
    rw [hp] at hi
    obtain ⟨hholder, before, asked, horder, hexec⟩ := hi
    exact {
      nodup := h.nodup
      asked := h.asked
      known := known_update ⟨before, asked, [], horder, congrArg Prod.fst hexec⟩ fun j hj =>
        (h.known j).other hj (.inr hholder) ⟨[], (List.append_nil _).symm, by simp⟩
      free := fun _ => by
        change s.shared = serial body s.order s₀
        rw [horder, serial_concat]
        exact congrArg Prod.snd hexec }
  all_goals exact h

theorem inv_run (schedule : List ι) (h : Inv input body s₀ s) :
    Inv input body s₀ (run input body schedule s) := by
  induction schedule generalizing s with
  | nil => exact h
  | cons i schedule ih => exact ih (inv_step h i)

end Mutex
