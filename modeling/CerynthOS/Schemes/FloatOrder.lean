import CerynthOS.Schemes.Machine

/-! The order of the doubles.

    Comparisons of doubles are those of a linear order, except that a NaN compares with nothing. So
    they compose as comparisons do. -/

open Float.Model Float.Model.UnpackedFloat

namespace FloatOrder

/-- Where a double stands in the order: its class, and within a class exponent and mantissa. -/
def key : UnpackedFloat → ℤ ×ₗ ℤ ×ₗ ℤ
  | .infinity .negative => toLex (-2, toLex (0, 0))
  | .finite .negative m e _ => toLex (-1, toLex (-e, -m))
  | .zero _ | .notANumber => toLex (0, toLex (0, 0))
  | .finite .positive m e _ => toLex (1, toLex (e, m))
  | .infinity .positive => toLex (2, toLex (0, 0))

theorem compare_toLex (a b c a' b' c' : ℤ) :
    compare (toLex (a, toLex (b, c))) (toLex (a', toLex (b', c'))) =
      (compare a a').then ((compare b b').then (compare c c')) := rfl

theorem compare_natCast (m n : ℕ) : compare (m : ℤ) (n : ℤ) = compare m n := by
  simp [compare, compareOfLessAndEq]

theorem compare_neg (a b : ℤ) : compare (-a) (-b) = (compare a b).swap := by
  rw [← Std.OrientedCmp.eq_swap]
  simp [compare, compareOfLessAndEq, eq_comm]

/-- The comparison of the format is that of the keys. -/
theorem compare_key {u v : UnpackedFloat} (hu : u ≠ .notANumber) (hv : v ≠ .notANumber) :
    u.compare v = some (compare (key u) (key v)) := by
  rcases u with s | _ | s | ⟨s, m, e, hm⟩ <;> rcases v with t | _ | t | ⟨t, n, f, hn⟩ <;>
    first
      | exact absurd rfl hu
      | exact absurd rfl hv
      | cases s <;> cases t <;> first | rfl | skip
  · simp [key, compare_toLex, compare_neg, compare_natCast, UnpackedFloat.compare,
      Ordering.swap_then]
  · simp [key, compare_toLex, compare_natCast, UnpackedFloat.compare]

/-! ### Doubles -/

/-- The key of a double. -/
def rank (x : Float) : ℤ ×ₗ ℤ ×ₗ ℤ := key x.toModel.unpack

variable {x y z : Float}

/-- The double is not a NaN. -/
def Number (x : Float) : Prop := x.toModel.unpack ≠ .notANumber

theorem le_def : x ≤ y ↔ x.toModel.unpack.le y.toModel.unpack = true :=
  decide_eq_true_iff (p := x.toModel ≤ y.toModel)

theorem lt_def : x < y ↔ x.toModel.unpack.lt y.toModel.unpack = true :=
  decide_eq_true_iff (p := x.toModel < y.toModel)

/-- What compares with something is a number. -/
theorem number_of_compare {o : Ordering} (h : x.toModel.unpack.compare y.toModel.unpack = some o) :
    Number x ∧ Number y := by
  constructor
  · intro hnan
    rw [hnan] at h
    cases h
  · intro hnan
    rw [hnan] at h
    cases hx : x.toModel.unpack <;> rw [hx] at h <;> cases h

theorem number_of_le (h : x ≤ y) : Number x ∧ Number y := by
  rw [le_def, UnpackedFloat.le, Option.any_eq_true] at h
  obtain ⟨o, ho, -⟩ := h
  exact number_of_compare ho

theorem number_of_lt (h : x < y) : Number x ∧ Number y := by
  rw [lt_def, UnpackedFloat.lt, beq_iff_eq] at h
  exact number_of_compare h

theorem le_iff (hx : Number x) (hy : Number y) : x ≤ y ↔ rank x ≤ rank y := by
  rw [le_def, UnpackedFloat.le, compare_key hx hy]
  rw [Option.any_some, ← compare_le_iff_le, Ordering.isLE_iff_ne_gt]
  exact Iff.rfl

theorem lt_iff (hx : Number x) (hy : Number y) : x < y ↔ rank x < rank y := by
  rw [lt_def, UnpackedFloat.lt, compare_key hx hy]
  simp [rank, compare_lt_iff_lt]

theorem le_trans (hxy : x ≤ y) (hyz : y ≤ z) : x ≤ z := by
  obtain ⟨hx, hy⟩ := number_of_le hxy
  obtain ⟨-, hz⟩ := number_of_le hyz
  rw [le_iff hx hy] at hxy
  rw [le_iff hy hz] at hyz
  exact (le_iff hx hz).mpr (hxy.trans hyz)

theorem lt_of_le_of_lt (hxy : x ≤ y) (hyz : y < z) : x < z := by
  obtain ⟨hx, hy⟩ := number_of_le hxy
  obtain ⟨-, hz⟩ := number_of_lt hyz
  rw [le_iff hx hy] at hxy
  rw [lt_iff hy hz] at hyz
  exact (lt_iff hx hz).mpr (hxy.trans_lt hyz)

end FloatOrder
