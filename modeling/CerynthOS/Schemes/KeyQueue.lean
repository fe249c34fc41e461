import Mathlib

/-! A queue that is ordered by a key.

    Elements are taken in the order of their keys, and those with one key in the order of arrival.
    Besides what waits, the queue remembers everything that arrived, what was taken and what left
    without being taken. A queue in which all keys are the same is first in, first out: that is
    `Fifo`, and every operation keeps it. -/

variable {α κ : Type*}

/-- What waits, in the order in which it will be taken, and the history of the queue. -/
structure KeyQueue (α : Type*) where
  waiting : List α
  arrived : List α
  taken : List α
  left : List α

namespace KeyQueue

def empty : KeyQueue α := ⟨[], [], [], []⟩

/-- Inserts behind everything that does not have a greater key. -/
def insert [LinearOrder κ] (key : α → κ) (q : KeyQueue α) (x : α) : KeyQueue α :=
  { q with
    waiting := q.waiting.orderedInsert (fun a b => key a < key b) x
    arrived := q.arrived ++ [x] }

/-- Puts the element at the end, whatever its key. -/
def push (q : KeyQueue α) (x : α) : KeyQueue α :=
  { q with waiting := q.waiting ++ [x], arrived := q.arrived ++ [x] }

/-- Takes the first element, if there is one. -/
def take (q : KeyQueue α) : Option (α × KeyQueue α) :=
  match q.waiting with
  | [] => none
  | x :: rest => some (x, { q with waiting := rest, taken := q.taken ++ [x] })

/-- These elements leave the queue. -/
def remove (p : α → Bool) (q : KeyQueue α) : KeyQueue α :=
  { q with
    waiting := q.waiting.filter fun x => !p x
    left := q.left ++ q.waiting.filter p }

/-- All waiting keys are `c`; what was taken or waits is in the order of arrival; and everything
    that arrived was taken, waits or has left. -/
structure Fifo (key : α → κ) (c : κ) (q : KeyQueue α) : Prop where
  keys : ∀ x ∈ q.waiting, key x = c
  order : (q.taken ++ q.waiting).Sublist q.arrived
  all : (q.taken ++ q.waiting ++ q.left).Perm q.arrived

variable {key : α → κ} {c : κ} {q : KeyQueue α}

theorem fifo_empty : Fifo key c (empty : KeyQueue α) where
  keys _ h := absurd h List.not_mem_nil
  order := .refl _
  all := .refl _

/-- Behind equal keys is the end of the queue. -/
theorem insert_eq_push [LinearOrder κ] {x : α} (h : ∀ y ∈ q.waiting, key y = key x) :
    q.insert key x = q.push x := by
  have hend : ∀ l : List α, (∀ y ∈ l, key y = key x) →
      l.orderedInsert (fun a b => key a < key b) x = l ++ [x] := by
    intro l hl
    induction l with
    | nil => rfl
    | cons y l ih =>
      have hy : ¬ key x < key y := by
        rw [hl y List.mem_cons_self]
        exact lt_irrefl _
      rw [List.orderedInsert_cons, if_neg hy, ih fun z hz => hl z (List.mem_cons_of_mem _ hz)]
      rfl
  rw [insert, push, hend q.waiting h]

theorem Fifo.push (h : Fifo key c q) {x : α} (hx : key x = c) : Fifo key c (q.push x) where
  keys y hy := by
    rcases List.mem_append.mp hy with hy | hy
    · exact h.keys y hy
    · rwa [List.mem_singleton.mp hy]
  order := by
    change (q.taken ++ (q.waiting ++ [x])).Sublist (q.arrived ++ [x])
    rw [← List.append_assoc]
    exact h.order.append (.refl _)
  all := by
    change (q.taken ++ (q.waiting ++ [x]) ++ q.left).Perm (q.arrived ++ [x])
    refine .trans ?_ (h.all.append_right [x])
    rw [← List.append_assoc, List.append_assoc _ [x], List.append_assoc _ q.left]
    exact List.perm_append_comm.append_left _

theorem Fifo.insert [LinearOrder κ] (h : Fifo key c q) {x : α} (hx : key x = c) :
    Fifo key c (q.insert key x) := by
  rw [insert_eq_push fun y hy => (h.keys y hy).trans hx.symm]
  exact h.push hx

theorem Fifo.take (h : Fifo key c q) {x : α} {q' : KeyQueue α} (ht : q.take = some (x, q')) :
    Fifo key c q' := by
  obtain ⟨waiting, arrived, taken, left⟩ := q
  cases waiting with
  | nil => cases ht
  | cons y rest =>
    obtain ⟨rfl, rfl⟩ := Prod.mk.inj (Option.some.inj ht)
    obtain ⟨hkeys, horder, hall⟩ := h
    refine ⟨fun z hz => hkeys z (List.mem_cons_of_mem _ hz), ?_, ?_⟩
    · simpa [List.append_assoc] using horder
    · simpa [List.append_assoc] using hall

theorem Fifo.remove (h : Fifo key c q) (p : α → Bool) : Fifo key c (q.remove p) where
  keys x hx := h.keys x (List.mem_of_mem_filter hx)
  order := ((List.Sublist.refl _).append List.filter_sublist).trans h.order
  all := by
    have hsplit : (q.waiting.filter (fun x => !p x) ++ q.waiting.filter p).Perm q.waiting :=
      List.perm_append_comm.trans (List.filter_append_perm p q.waiting)
    change (q.taken ++ q.waiting.filter (fun x => !p x) ++
      (q.left ++ q.waiting.filter p)).Perm q.arrived
    refine .trans ?_ h.all
    refine (List.perm_append_comm.append_left _).trans ?_
    rw [← List.append_assoc, List.append_assoc q.taken]
    exact (hsplit.append_left _).append_right _

/-- What is taken was there first: when `y` has been taken, an earlier `x` has been taken before it,
    unless it has left. -/
theorem Fifo.taken_before (h : Fifo key c q) {R : α → α → Prop} (hR : q.arrived.Pairwise R)
    {x y : α} (hxy : ¬ R y x) (hne : x ≠ y) (hx : x ∈ q.arrived) (hy : y ∈ q.taken) :
    x ∈ q.left ∨ ∃ l₁ l₂, q.taken = l₁ ++ y :: l₂ ∧ x ∈ l₁ := by
  obtain ⟨l₁, l₂, hl⟩ := List.append_of_mem hy
  have hpair : (l₁ ++ y :: (l₂ ++ q.waiting)).Pairwise R := by
    have := hR.sublist h.order
    rwa [hl, List.append_assoc, List.cons_append] at this
  -- nothing behind `y` was there before it
  have hbehind : x ∉ l₂ ++ q.waiting := by
    intro hmem
    exact hxy (List.rel_of_pairwise_cons (List.pairwise_append.mp hpair).2.1 hmem)
  have hmem := h.all.symm.subset hx
  rw [hl] at hmem
  simp only [List.mem_append, List.mem_cons] at hmem hbehind
  rcases hmem with ((hmem | hmem | hmem) | hmem) | hmem
  · exact .inr ⟨l₁, l₂, hl, hmem⟩
  · exact absurd hmem hne
  · exact absurd (.inl hmem) hbehind
  · exact absurd (.inr hmem) hbehind
  · exact .inl hmem

end KeyQueue
