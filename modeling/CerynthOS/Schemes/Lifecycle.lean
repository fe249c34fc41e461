import Mathlib

/-! A resource that is acquired, made ready, put to use and released.

    The events of a log are operations on the resource, or none. A log is legal if the operations
    take the resource from one phase to the next; it may be released at once, but not while it is in
    use. Legal logs are balanced, and what is in use has been made ready. -/

namespace Lifecycle

inductive Op where
  | acquire
  | prepare
  | attach
  | detach
  | release
  deriving DecidableEq

inductive Phase where
  | free
  | held
  | ready
  | live
  | ended
  deriving DecidableEq

def Phase.next : Phase → Op → Option Phase
  | .free, .acquire => some .held
  | .held, .prepare => some .ready
  | .held, .release => some .free
  | .ready, .attach => some .live
  | .ready, .release => some .free
  | .live, .detach => some .ended
  | .ended, .release => some .free
  | _, _ => none

/-- The operations lead from the free resource to this phase. -/
def Leads (ops : List Op) (p : Phase) : Prop := ops.foldlM Phase.next .free = some p

theorem leads_append {ops ops' : List Op} {p : Phase} :
    Leads (ops ++ ops') p ↔ ∃ q, Leads ops q ∧ ops'.foldlM Phase.next q = some p := by
  rw [Leads, List.foldlM_append]
  cases h : ops.foldlM Phase.next .free with
  | none => simp [Leads, h]
  | some q => simp [Leads, h]

theorem leads_concat {ops : List Op} {o : Op} {p q : Phase} (h : Leads ops q)
    (ho : q.next o = some p) : Leads (ops ++ [o]) p :=
  leads_append.mpr ⟨q, h, by simp [ho]⟩

/-! ### The shape of legal logs -/

/-- From one acquisition to its release. -/
def cycles : List (List Op) :=
  [[.acquire, .release], [.acquire, .prepare, .release],
    [.acquire, .prepare, .attach, .detach, .release]]

/-- The cycle in this phase, so far. -/
def Phase.begun : Phase → List Op
  | .free => []
  | .held => [.acquire]
  | .ready => [.acquire, .prepare]
  | .live => [.acquire, .prepare, .attach]
  | .ended => [.acquire, .prepare, .attach, .detach]

/-- One more operation continues the cycle or completes it. -/
theorem next_begun {q p : Phase} {o : Op} (h : q.next o = some p) :
    q.begun ++ [o] = p.begun ∨ p = .free ∧ q.begun ++ [o] ∈ cycles := by
  revert h
  cases q <;> cases o <;> cases p <;> decide

theorem leads_shape {ops : List Op} {p : Phase} (h : Leads ops p) :
    ∃ done : List (List Op), (∀ cycle ∈ done, cycle ∈ cycles) ∧ ops = done.flatten ++ p.begun := by
  induction ops using List.reverseRecOn generalizing p with
  | nil =>
    obtain rfl := Option.some.inj h
    exact ⟨[], by simp, rfl⟩
  | append_singleton ops o ih =>
    obtain ⟨q, hq, ho⟩ := leads_append.mp h
    have ho : q.next o = some p := by simpa using ho
    obtain ⟨done, hdone, rfl⟩ := ih hq
    rcases next_begun ho with hbegun | ⟨rfl, hcycle⟩
    · exact ⟨done, hdone, by rw [List.append_assoc, hbegun]⟩
    · refine ⟨done ++ [q.begun ++ [o]], fun cycle hc => ?_, by simp [Phase.begun]⟩
      rcases List.mem_append.mp hc with hc | hc
      · exact hdone cycle hc
      · exact List.mem_singleton.mp hc ▸ hcycle

/-! ### Logs -/

section
variable {E : Type*} {op : E → Option Op} {log before after mid : List E} {e r : E} {p : Phase}

/-- The operations of a log lead to this phase. -/
def Legal (op : E → Option Op) (log : List E) (p : Phase) : Prop := Leads (log.filterMap op) p

theorem legal_nil : Legal op [] .free := rfl

/-- An event that is no operation. -/
theorem Legal.skip (h : Legal op log p) (he : op e = none) : Legal op (log ++ [e]) p := by
  rwa [Legal, List.filterMap_append, List.filterMap_cons_none he, List.filterMap_nil,
    List.append_nil]

theorem Legal.next {q : Phase} {o : Op} (h : Legal op log q) (he : op e = some o)
    (ho : q.next o = some p) : Legal op (log ++ [e]) p := by
  rw [Legal, List.filterMap_append, List.filterMap_cons_some he]
  exact leads_concat h ho

/-- Before the resource is attached it has been acquired and prepared, and not released since. -/
theorem Legal.prepared (h : Legal op (before ++ e :: after) p) (he : op e = some .attach) :
    ∃ l₁ a l₂, before = l₁ ++ a :: l₂ ∧ op a = some .acquire ∧
      (∃ x ∈ l₂, op x = some .prepare) ∧ ∀ x ∈ l₂, op x ≠ some .release := by
  rw [Legal, List.filterMap_append, List.filterMap_cons_some he] at h
  obtain ⟨q, hq, hrest⟩ := leads_append.mp h
  have hready : q = .ready := by
    cases q <;> first | rfl | cases hrest
  subst hready
  obtain ⟨done, -, hshape⟩ := leads_shape hq
  obtain ⟨l₀, l₁, rfl, -, hbegun⟩ := List.filterMap_eq_append_iff.mp hshape
  obtain ⟨m, a, l₂, rfl, -, ha, hprepare⟩ := List.filterMap_eq_cons_iff.mp hbegun
  refine ⟨l₀ ++ m, a, l₂, by simp, ha, ?_, ?_⟩
  · exact List.mem_filterMap.mp (hprepare ▸ List.mem_singleton_self Op.prepare)
  · intro x hx hrelease
    have hmem := List.mem_filterMap.mpr ⟨x, hx, hrelease⟩
    rw [hprepare] at hmem
    exact absurd hmem (by decide)

/-- After the resource has been attached it is detached before it is released. -/
theorem Legal.detached (h : Legal op (before ++ e :: (mid ++ r :: after)) p)
    (he : op e = some .attach) (hr : op r = some .release) : ∃ x ∈ mid, op x = some .detach := by
  rw [Legal, List.filterMap_append, List.filterMap_cons_some he, List.filterMap_append,
    List.filterMap_cons_some hr] at h
  obtain ⟨q, -, hrest⟩ := leads_append.mp h
  have hready : q = .ready := by
    cases q <;> first | rfl | cases hrest
  subst hready
  cases hmid : mid.filterMap op with
  | nil =>
    rw [hmid] at hrest
    cases hrest
  | cons o ops =>
    rw [hmid] at hrest
    have hdetach : o = .detach := by
      cases o <;> first | rfl | cases hrest
    subst hdetach
    exact List.mem_filterMap.mp (hmid ▸ List.mem_cons_self)

theorem leads_balanced {ops : List Op} (h : Leads ops .free) :
    ∃ n, ops.filter (fun o => o = .acquire ∨ o = .release) =
      (List.replicate n [Op.acquire, Op.release]).flatten := by
  obtain ⟨done, hdone, rfl⟩ := leads_shape h
  rw [Phase.begun, List.append_nil]
  have hcycle : ∀ cycle ∈ cycles, cycle.filter (fun o => o = .acquire ∨ o = .release) =
      [Op.acquire, Op.release] := by
    decide
  refine ⟨done.length, ?_⟩
  rw [List.filter_flatten, List.map_congr_left fun cycle h => hcycle cycle (hdone cycle h),
    List.map_const']

/-- Where two events stand for the acquisition and the release, they alternate. -/
theorem Legal.balanced [DecidableEq E] {a : E} (h : Legal op log .free)
    (ha : ∀ e, op e = some .acquire ↔ e = a) (hr : ∀ e, op e = some .release ↔ e = r) :
    ∃ n, log.filter (fun e => e = a ∨ e = r) = (List.replicate n [a, r]).flatten := by
  let event : Op → E := fun o => if o = .acquire then a else r
  have hevents : log.filter (fun e => e = a ∨ e = r) =
      ((log.filterMap op).filter fun o => o = .acquire ∨ o = .release).map event := by
    clear h
    induction log with
    | nil => rfl
    | cons e log ih =>
      cases ho : op e with
      | none =>
        have hne : ¬ (e = a ∨ e = r) := by
          rw [← ha, ← hr, ho]
          simp
        rw [List.filterMap_cons_none ho, ← ih, List.filter_cons_of_neg (by simpa using hne)]
      | some o =>
        rw [List.filterMap_cons_some ho, List.filter_cons, List.filter_cons, ih]
        have hmem : (e = a ∨ e = r) ↔ (o = .acquire ∨ o = .release) := by
          rw [← ha, ← hr, ho, Option.some.injEq, Option.some.injEq]
        simp only [hmem]
        split
        case isTrue h =>
          rw [List.map_cons]
          congr 1
          rcases of_decide_eq_true h with rfl | rfl
          · exact (ha e).mp ho
          · exact (hr e).mp ho
        case isFalse => rfl
  obtain ⟨n, hn⟩ := leads_balanced h
  refine ⟨n, ?_⟩
  rw [hevents, hn, List.map_flatten, List.map_replicate]
  rfl

end

end Lifecycle
