import Mathlib

/-! Stable sorts by a key.

    `StableSort key xs ys` says what a stable sort is, without saying how it is done: there is one
    such list, and `List.mergeSort` finds it. The place of an element in it is the number of
    elements that come before it, by their keys or, for equal keys, by their places in `xs`. -/

variable {α κ : Type*} [LinearOrder κ]

/-- `ys` is `xs` sorted by a key, and elements with equal keys stay in order. -/
structure StableSort (key : α → κ) (xs ys : List α) : Prop where
  perm : ys.Perm xs
  sorted : ys.Pairwise fun a b => key a ≤ key b
  stable : ∀ k, ys.filter (fun a => key a = k) = xs.filter fun a => key a = k

namespace StableSort

variable {key : α → κ} {xs ys zs : List α}

/-- The comparison of two elements by their keys. -/
def byKey (key : α → κ) (a b : α) : Bool := decide (key a ≤ key b)

theorem byKey_trans (a b c : α) (hab : byKey key a b = true) (hbc : byKey key b c = true) :
    byKey key a c = true :=
  decide_eq_true ((of_decide_eq_true hab).trans (of_decide_eq_true hbc))

theorem byKey_total (a b : α) : (byKey key a b || byKey key b a) = true := by
  rw [Bool.or_eq_true, byKey, byKey, decide_eq_true_eq, decide_eq_true_eq]
  exact le_total _ _

theorem mergeSort (key : α → κ) (xs : List α) : StableSort key xs (xs.mergeSort (byKey key)) where
  perm := List.mergeSort_perm _ _
  sorted := (List.pairwise_mergeSort byKey_trans byKey_total xs).imp of_decide_eq_true
  stable k := by
    have hsub : (xs.filter fun a => key a = k).Sublist (xs.mergeSort (byKey key)) := by
      refine List.sublist_mergeSort byKey_trans byKey_total ?_ List.filter_sublist
      refine List.pairwise_iff_forall_sublist.mpr fun {a b} hab => ?_
      have ha := List.of_mem_filter (hab.subset List.mem_cons_self)
      have hb := List.of_mem_filter (hab.subset (List.mem_cons_of_mem _ List.mem_cons_self))
      rw [decide_eq_true_eq] at ha hb
      exact decide_eq_true (ha.trans hb.symm).le
    have hfilter := hsub.filter fun a => decide (key a = k)
    rw [List.filter_filter] at hfilter
    simp only [Bool.and_self] at hfilter
    refine (hfilter.eq_of_length ?_).symm
    exact ((List.mergeSort_perm xs (byKey key)).filter _).length_eq.symm

/-- The first element has a least key. -/
theorem head_le {a b : α} {l m : List α} (h : StableSort key xs (a :: l))
    (h' : StableSort key xs (b :: m)) : key a ≤ key b := by
  have hb : b ∈ a :: l := h.perm.mem_iff.mpr (h'.perm.mem_iff.mp List.mem_cons_self)
  obtain rfl | hb := List.mem_cons.mp hb
  · exact le_rfl
  · exact List.rel_of_pairwise_cons h.sorted hb

theorem unique (h : StableSort key xs ys) (h' : StableSort key xs zs) : ys = zs := by
  induction ys generalizing xs zs with
  | nil => exact (List.perm_nil.mp (h'.perm.trans h.perm.symm)).symm
  | cons a ys ih =>
    cases zs with
    | nil => exact absurd (h.perm.trans h'.perm.symm).eq_nil (by simp)
    | cons b zs =>
      have hkey : key b = key a := le_antisymm (h'.head_le h) (h.head_le h')
      have hhead := (h.stable (key a)).trans (h'.stable (key a)).symm
      rw [List.filter_cons_of_pos (by simp), List.filter_cons_of_pos (by simp [hkey])] at hhead
      obtain ⟨rfl, -⟩ := List.cons.inj hhead
      have hrest : StableSort key zs ys := {
        perm := (h.perm.trans h'.perm.symm).cons_inv
        sorted := h.sorted.tail
        stable := fun k => by
          have hk := (h.stable k).trans (h'.stable k).symm
          by_cases ha : key a = k
          · rw [List.filter_cons_of_pos (by simpa), List.filter_cons_of_pos (by simpa)] at hk
            exact (List.cons.inj hk).2
          · rwa [List.filter_cons_of_neg (by simpa), List.filter_cons_of_neg (by simpa)] at hk }
      exact congrArg (a :: ·) (ih hrest ⟨.refl _, h'.sorted.tail, fun _ => rfl⟩)

/-- Another key that compares the elements in the same way. -/
theorem congr {κ' : Type*} [LinearOrder κ'] {key' : α → κ'}
    (hk : ∀ a ∈ xs, ∀ b ∈ xs, key' a ≤ key' b ↔ key a ≤ key b) (h : StableSort key xs ys) :
    StableSort key' xs ys where
  perm := h.perm
  sorted := h.sorted.imp_of_mem fun ha hb hab =>
    (hk _ (h.perm.mem_iff.mp ha) _ (h.perm.mem_iff.mp hb)).mpr hab
  stable k := by
    by_cases hx : ∃ a ∈ xs, key' a = k
    · obtain ⟨a, ha, rfl⟩ := hx
      have hsame : ∀ b ∈ xs, key' b = key' a ↔ key b = key a := fun b hb => by
        rw [le_antisymm_iff, le_antisymm_iff, hk b hb a ha, hk a ha b hb]
      have hys : ys.filter (fun b => key' b = key' a) = ys.filter fun b => key b = key a :=
        List.filter_congr fun b hb => by rw [decide_eq_decide, hsame b (h.perm.mem_iff.mp hb)]
      have hxs : xs.filter (fun b => key' b = key' a) = xs.filter fun b => key b = key a :=
        List.filter_congr fun b hb => by rw [decide_eq_decide, hsame b hb]
      rw [hys, hxs, h.stable]
    · have hnone : ∀ a ∈ xs, key' a ≠ k := fun a ha hka => hx ⟨a, ha, hka⟩
      rw [List.filter_eq_nil_iff.mpr fun a ha => by simpa using hnone a (h.perm.mem_iff.mp ha),
        List.filter_eq_nil_iff.mpr fun a ha => by simpa using hnone a ha]

/-- Two groups with all keys of the first below those of the second are sorted one by one. -/
theorem append {p : α → Bool} (hp : ∀ a ∈ xs, ∀ b ∈ xs, p a = true → p b = false → key a < key b)
    (h : StableSort key (xs.filter p) ys) (h' : StableSort key (xs.filter fun a => !p a) zs) :
    StableSort key xs (ys ++ zs) where
  perm := (h.perm.append h'.perm).trans (List.filter_append_perm p xs)
  sorted := by
    refine List.pairwise_append.mpr ⟨h.sorted, h'.sorted, fun a ha b hb => ?_⟩
    obtain ⟨ha, hpa⟩ := List.mem_filter.mp (h.perm.mem_iff.mp ha)
    obtain ⟨hb, hpb⟩ := List.mem_filter.mp (h'.perm.mem_iff.mp hb)
    exact (hp a ha b hb hpa (by simpa using hpb)).le
  stable k := by
    rw [List.filter_append, h.stable, h'.stable, List.filter_filter, List.filter_filter]
    by_cases hx : ∃ a ∈ xs, key a = k ∧ p a = true
    · obtain ⟨a, ha, rfl, hpa⟩ := hx
      have hall : ∀ b ∈ xs, key b = key a → p b = true := fun b hb hkb => by
        by_contra hpb
        exact (hp a ha b hb hpa (by simpa using hpb)).ne' hkb
      have hnil : xs.filter (fun b => decide (key b = key a) && !p b) = [] := by
        refine List.filter_eq_nil_iff.mpr fun b hb hkb => ?_
        rw [Bool.and_eq_true, decide_eq_true_eq] at hkb
        simp [hall b hb hkb.1] at hkb
      rw [hnil, List.append_nil]
      refine List.filter_congr fun b hb => ?_
      by_cases hkb : key b = key a <;> simp [hkb, hall b hb]
    · have hnone : ∀ a ∈ xs, key a = k → p a = false := fun a ha hka => by
        by_contra hpa
        exact hx ⟨a, ha, hka, by simpa using hpa⟩
      have hnil : xs.filter (fun b => decide (key b = k) && p b) = [] := by
        refine List.filter_eq_nil_iff.mpr fun b hb hkb => ?_
        rw [Bool.and_eq_true, decide_eq_true_eq] at hkb
        rw [hnone b hb hkb.1] at hkb
        cases hkb.2
      rw [hnil, List.nil_append]
      refine List.filter_congr fun b hb => ?_
      by_cases hkb : key b = k <;> simp [hkb, hnone b hb]

/-! ### Places -/

/-- The places in `xs` of the elements, in the order of the sorted list. -/
def order (key : α → κ) (xs : List α) : List ℕ :=
  (xs.zipIdx.mergeSort (List.zipIdxLE (byKey key))).map Prod.snd

/-- Where the element at this place of `xs` ends up. -/
def place (key : α → κ) (xs : List α) (i : ℕ) : ℕ := (order key xs).idxOf i

/-- The element at place `j` comes before the one at place `i`. -/
def Before (key : α → κ) (xs : List α) (j i : ℕ) : Prop :=
  ∃ a b, xs[j]? = some a ∧ xs[i]? = some b ∧ (key a < key b ∨ key a = key b ∧ j < i)

theorem order_perm (key : α → κ) (xs : List α) : (order key xs).Perm (List.range xs.length) := by
  refine ((List.mergeSort_perm _ _).map Prod.snd).trans (.of_eq ?_)
  rw [List.zipIdx_map_snd, List.range_eq_range']

/-- The sorted list is what stands at these places. -/
theorem order_map (key : α → κ) (xs : List α) :
    (order key xs).map (xs[·]?) = (xs.mergeSort (byKey key)).map some := by
  rw [← List.mergeSort_zipIdx, order, List.map_map, List.map_map]
  refine List.map_congr_left fun p hp => ?_
  have hmem := List.mem_mergeSort.mp hp
  exact List.mem_zipIdx_iff_getElem?.mp hmem

theorem Before.asymm {i j : ℕ} (h : Before key xs i j) : ¬ Before key xs j i := by
  obtain ⟨a, b, ha, hb, h⟩ := h
  rintro ⟨b', a', hb', ha', h'⟩
  obtain rfl := Option.some.inj (ha.symm.trans ha')
  obtain rfl := Option.some.inj (hb.symm.trans hb')
  obtain h | ⟨h, hij⟩ := h
  · obtain h' | ⟨h', -⟩ := h'
    · exact h.asymm h'
    · exact h.ne' h'
  · obtain h' | ⟨-, hji⟩ := h'
    · exact h'.ne' h
    · omega

theorem order_pairwise (key : α → κ) (xs : List α) :
    (order key xs).Pairwise (Before key xs) := by
  rw [order, List.pairwise_map]
  have hsorted := List.pairwise_mergeSort
    (List.zipIdxLE_trans (@byKey_trans _ _ _ key))
    (List.zipIdxLE_total (@byKey_total _ _ _ key)) xs.zipIdx
  have hnodup : (order key xs).Nodup := (order_perm key xs).nodup_iff.mpr List.nodup_range
  rw [order, List.Nodup, List.pairwise_map] at hnodup
  refine (hsorted.and hnodup).imp_of_mem fun {p q} hp hq hpq => ?_
  have hp := List.mem_zipIdx_iff_getElem?.mp (List.mem_mergeSort.mp hp)
  have hq := List.mem_zipIdx_iff_getElem?.mp (List.mem_mergeSort.mp hq)
  obtain ⟨hle, hne⟩ := hpq
  refine ⟨p.1, q.1, hp, hq, ?_⟩
  rw [List.zipIdxLE] at hle
  split_ifs at hle with hle₁ hle₂
  · refine .inr ⟨le_antisymm (of_decide_eq_true hle₁) (of_decide_eq_true hle₂), ?_⟩
    exact lt_of_le_of_ne (of_decide_eq_true hle) hne
  · rw [byKey, decide_eq_true_eq] at hle₂
    exact .inl (not_le.mp hle₂)

/-- In a list that is ordered, the place of an element is the number of elements before it. -/
theorem idxOf_eq_countP {r : ℕ → ℕ → Prop} [DecidableRel r] (hr : ∀ i j, r i j → ¬ r j i)
    {l : List ℕ} (hl : l.Pairwise r) {i : ℕ} (hi : i ∈ l) : l.idxOf i = l.countP (r · i) := by
  induction l with
  | nil => exact absurd hi List.not_mem_nil
  | cons j l ih =>
    obtain ⟨hj, hl⟩ := List.pairwise_cons.mp hl
    by_cases hji : j = i
    · subst hji
      have hself : ¬ r j j := fun h => hr j j h h
      rw [List.idxOf_cons_self, List.countP_cons_of_neg (by simpa using hself), eq_comm,
        List.countP_eq_zero]
      exact fun k hk => by simpa using hr j k (hj k hk)
    · have hi := (List.mem_cons.mp hi).resolve_left (Ne.symm hji)
      rw [List.idxOf_cons_ne _ hji, ih hl hi, List.countP_cons_of_pos (by simpa using hj i hi)]

open Classical in
/-- The place of an element is the number of those that come before it. -/
theorem place_eq_countP {i : ℕ} (hi : i < xs.length) :
    place key xs i = (List.range xs.length).countP fun j => Before key xs j i := by
  have hperm := order_perm key xs
  rw [place, idxOf_eq_countP (fun _ _ => Before.asymm) (order_pairwise key xs)
    (hperm.mem_iff.mpr (List.mem_range.mpr hi)), hperm.countP_eq]

/-- An element that nothing new comes before does not move to a later place. -/
theorem place_le_place {key' : α → κ} {xs' : List α} {i : ℕ} (hi : i < xs.length)
    (hlen : xs'.length = xs.length) (h : ∀ j, Before key' xs' j i → Before key xs j i) :
    place key' xs' i ≤ place key xs i := by
  classical
  rw [place_eq_countP hi, place_eq_countP (hlen ▸ hi), hlen]
  exact List.countP_mono_left fun j _ hj => decide_eq_true (h j (of_decide_eq_true hj))

/-- The element stands at its place. -/
theorem getElem?_place {i : ℕ} (hi : i < xs.length) :
    (xs.mergeSort (byKey key))[place key xs i]? = xs[i]? := by
  have hmem : i ∈ order key xs := (order_perm key xs).mem_iff.mpr (List.mem_range.mpr hi)
  have hplace : (order key xs)[place key xs i]? = some i := List.getElem?_idxOf hmem
  have hmap := congrArg (·[place key xs i]?) (order_map key xs)
  simp only [List.getElem?_map, hplace, Option.map_some] at hmap
  cases hx : (xs.mergeSort (byKey key))[place key xs i]? with
  | none => simp [hx] at hmap
  | some a =>
    rw [hx] at hmap
    exact (Option.some.inj hmap).symm

end StableSort
