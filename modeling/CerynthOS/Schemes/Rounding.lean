import CerynthOS.Schemes.Binary64
import CerynthOS.Schemes.FloatOrder

/-! Rounding keeps the order.

    The positive normal doubles stand in a row: the place of one is its exponent times `2 ^ 52` plus
    its mantissa, and a mantissa that rounds up to the next power of two is the next in the row. So
    rounding is compared by places, with integers only. -/

open Float.Model Float.Model.UnpackedFloat

namespace Binary64

/-- A positive normal double with this mantissa and exponent. -/
structure IsPositive (u : UnpackedFloat) (m : ℕ) (e : ℤ) : Prop where
  log2 : m.log2 = 52
  eq : ∃ hm : 0 < m, u = .finite .positive m e hm

/-- The place of a positive normal double in the row of them. -/
def At (u : UnpackedFloat) (place : ℤ) : Prop :=
  ∃ m e, IsPositive u m e ∧ place = e * 2 ^ 52 + m

variable {u v w : UnpackedFloat} {i j : ℤ} {m m' n n' : ℕ} {e : ℤ}

theorem mantissa_bounds (h : m.log2 = 52) : 2 ^ 52 ≤ m ∧ m < 2 ^ 53 := by
  have hm : m ≠ 0 := by
    rintro rfl
    simp at h
  exact (Nat.log2_eq_iff hm).mp h

/-- Of two doubles the one that stands before the other is smaller. -/
theorem At.key_le (hu : At u i) (hv : At v j) : FloatOrder.key u ≤ FloatOrder.key v ↔ i ≤ j := by
  obtain ⟨m, e, ⟨hlog, hm, rfl⟩, rfl⟩ := hu
  obtain ⟨n, f, ⟨hlog', hn, rfl⟩, rfl⟩ := hv
  have := mantissa_bounds hlog
  have := mantissa_bounds hlog'
  rw [FloatOrder.key, FloatOrder.key, Prod.Lex.toLex_le_toLex, Prod.Lex.toLex_le_toLex]
  simp only [lt_self_iff_false, true_and, false_or]
  omega

/-! ### The rounded mantissa -/

/-- The mantissa of 53 bits, before the carry, to which a mantissa with this residue is rounded. -/
def rounded (m : ℕ) (acc : Accuracy) : ℕ :=
  (ExtendedMantissa.ofMantissaAndAccuracy m acc >>> (m.log2 - 52)).roundedMantissa

theorem rounded_bounds (m : ℕ) (acc : Accuracy) :
    m / 2 ^ (m.log2 - 52) ≤ rounded m acc ∧ rounded m acc ≤ m / 2 ^ (m.log2 - 52) + 1 := by
  have h := roundedMantissa_bounds
    (ExtendedMantissa.ofMantissaAndAccuracy m acc >>> (m.log2 - 52))
  rwa [shiftRight_mantissa, ofMantissaAndAccuracy_mantissa] at h

theorem div_log2_bounds (h : 52 ≤ m.log2) :
    2 ^ 52 ≤ m / 2 ^ (m.log2 - 52) ∧ m / 2 ^ (m.log2 - 52) < 2 ^ 53 := by
  have hm : m ≠ 0 := by
    rintro rfl
    simp at h
  exact mantissa_bounds (log2_div_pow hm (by omega))

theorem shiftToTargetExponent_eq (acc : Accuracy) (hm : 52 ≤ m.log2)
    (he : -1074 ≤ e + m.log2 - 52) :
    shiftToTargetExponent Format.binary64 m e acc =
      (ExtendedMantissa.ofMantissaAndAccuracy m acc >>> (m.log2 - 52), e + m.log2 - 52) := by
  have htarget : Format.binary64.targetExponent (totalExponent m e) = e + m.log2 - 52 := by
    rw [targetExponent_eq] <;> rw [totalExponent] <;> omega
  have hk : (e + m.log2 - 52 - e).toNat = m.log2 - 52 := by omega
  rw [shiftToTargetExponent, shiftToExponent, htarget, hk]
  refine Prod.ext rfl ?_
  dsimp only
  omega

/-- A mantissa that rounds up to `2 ^ 53` carries over into the exponent. -/
theorem at_roundWithAccuracy (acc : Accuracy) (hm : 52 ≤ m.log2) (he : -1074 ≤ e + m.log2 - 52) :
    At (roundWithAccuracy Format.binary64 .positive m e acc)
      ((e + m.log2 - 52) * 2 ^ 52 + rounded m acc) := by
  obtain ⟨hlow, hhigh⟩ := div_log2_bounds hm
  obtain ⟨hr, hr'⟩ := rounded_bounds m acc
  rw [roundWithAccuracy, shiftToTargetExponent_eq acc hm he]
  dsimp only
  rw [← rounded]
  generalize rounded m acc = r at *
  have hr0 : r ≠ 0 := by omega
  obtain hlt | rfl : r < 2 ^ 53 ∨ r = 2 ^ 53 := by omega
  · have hlog : r.log2 = 52 := (Nat.log2_eq_iff hr0).mpr ⟨by omega, by omega⟩
    rw [shiftToTargetExponent_eq .exact (by omega) (by omega)]
    dsimp only
    rw [shiftRight_mantissa, ofMantissaAndAccuracy_mantissa, hlog, Nat.sub_self, Nat.pow_zero,
      Nat.div_one, dif_neg hr0]
    exact ⟨r, _, ⟨hlog, _, rfl⟩, by push_cast; ring⟩
  · have hlog : (2 ^ 53 : ℕ).log2 = 53 := Nat.log2_two_pow
    rw [shiftToTargetExponent_eq .exact (by omega) (by omega)]
    dsimp only
    rw [shiftRight_mantissa, ofMantissaAndAccuracy_mantissa, hlog, dif_neg (by decide)]
    exact ⟨2 ^ 52, _, ⟨Nat.log2_two_pow, _, rfl⟩, by push_cast; ring⟩

/-! ### Integers -/

theorem shiftRight_succ (em : ExtendedMantissa) (k : ℕ) :
    em >>> (k + 1) = (em >>> k).shiftRightOne := rfl

/-- The bit behind the last one, and whether any bit behind that one is set. -/
theorem shiftRight_residue (m k : ℕ) :
    (ExtendedMantissa.ofMantissaAndAccuracy m .exact >>> (k + 1)).roundBit =
      decide (m / 2 ^ k % 2 = 1) ∧
    (ExtendedMantissa.ofMantissaAndAccuracy m .exact >>> (k + 1)).stickyBit =
      decide (m % 2 ^ k ≠ 0) := by
  have hround (k : ℕ) :
      (ExtendedMantissa.ofMantissaAndAccuracy m .exact >>> (k + 1)).roundBit =
        decide (m / 2 ^ k % 2 = 1) := by
    rw [shiftRight_succ, ExtendedMantissa.shiftRightOne, shiftRight_mantissa,
      ofMantissaAndAccuracy_mantissa]
    rcases Nat.mod_two_eq_zero_or_one (m / 2 ^ k) with h | h <;> simp [h]
  refine ⟨hround k, ?_⟩
  induction k with
  | zero =>
    rw [Nat.pow_zero, Nat.mod_one]
    rfl
  | succ k ih =>
    have hmod : m % 2 ^ (k + 1) = m % 2 ^ k + 2 ^ k * (m / 2 ^ k % 2) := Nat.mod_pow_succ
    rw [shiftRight_succ, ExtendedMantissa.shiftRightOne, hround k, ih, hmod, Bool.eq_iff_iff]
    rcases Nat.mod_two_eq_zero_or_one (m / 2 ^ k) with h | h <;> simp [h]

/-- A mantissa is rounded up past the half, and at the half when it is odd. -/
theorem roundedMantissa_eq (em : ExtendedMantissa) : em.roundedMantissa = em.mantissa +
    if em.roundBit = true ∧ (em.stickyBit = true ∨ em.mantissa % 2 = 1) then 1 else 0 := by
  obtain ⟨m, roundBit, stickyBit⟩ := em
  have := Nat.mod_two_eq_zero_or_one m
  cases roundBit <;> cases stickyBit <;>
    simp only [ExtendedMantissa.roundedMantissa, ExtendedMantissa.accuracy,
      Accuracy.roundToNearestEven] <;> split_ifs <;> simp_all

/-- Of two integers with as many bits the greater has no smaller mantissa. -/
theorem rounded_mono (hlog : m.log2 = m'.log2) (h : m ≤ m') :
    rounded m .exact ≤ rounded m' .exact := by
  obtain ⟨-, hle⟩ := rounded_bounds m .exact
  obtain ⟨hle', -⟩ := rounded_bounds m' .exact
  have hdiv : m / 2 ^ (m.log2 - 52) ≤ m' / 2 ^ (m'.log2 - 52) := by
    rw [hlog]
    exact Nat.div_le_div_right h
  obtain hlt | heq := hdiv.lt_or_eq
  · omega
  · -- the bits that are kept are the same
    rw [rounded, rounded, roundedMantissa_eq, roundedMantissa_eq, shiftRight_mantissa,
      shiftRight_mantissa, ofMantissaAndAccuracy_mantissa, ofMantissaAndAccuracy_mantissa, heq,
      hlog]
    rw [hlog] at heq
    refine Nat.add_le_add_left ?_ _
    cases hk : m'.log2 - 52 with
    | zero => exact le_rfl
    | succ k =>
      rw [hk, Nat.pow_succ, ← Nat.div_div_eq_div_mul, ← Nat.div_div_eq_div_mul] at heq
      obtain ⟨hr, hs⟩ := shiftRight_residue m k
      obtain ⟨hr', hs'⟩ := shiftRight_residue m' k
      rw [hr, hs, hr', hs']
      simp only [decide_eq_true_eq]
      split_ifs with hup hup'
      · exact le_rfl
      · obtain ⟨hbit, hrest⟩ := hup
        have hle := Nat.div_le_div_right (c := 2 ^ k) h
        have hsame : m / 2 ^ k = m' / 2 ^ k := by omega
        have hm := Nat.div_add_mod m (2 ^ k)
        have hm' := Nat.div_add_mod m' (2 ^ k)
        rw [hsame] at hm hbit
        refine absurd ⟨hbit, hrest.imp_left fun hne => ?_⟩ hup'
        omega
      · exact Nat.zero_le _
      · exact le_rfl

/-- Nothing is lost when all bits that do not fit are zero. -/
theorem rounded_exact (h : 2 ^ (m.log2 - 52) ∣ m) :
    rounded m .exact = m / 2 ^ (m.log2 - 52) := by
  rw [rounded, roundedMantissa_eq, shiftRight_mantissa, ofMantissaAndAccuracy_mantissa]
  cases hk : m.log2 - 52 with
  | zero => rfl
  | succ k =>
    rw [hk] at h
    obtain ⟨c, hc⟩ := h
    have hbit : m / 2 ^ k % 2 = 0 := by
      rw [hc, Nat.pow_succ, Nat.mul_assoc, Nat.mul_div_cancel_left _ (by positivity),
        Nat.mul_mod_right]
    rw [(shiftRight_residue m k).1, hbit]
    rfl

/-- The place of an integer. -/
def natPlace (n : ℕ) : ℤ :=
  ((n.log2 : ℤ) - 52) * 2 ^ 52 + rounded (n <<< (52 - n.log2)) .exact

theorem at_ofNat (hn : n ≠ 0) : At (UnpackedFloat.ofNat Format.binary64 n) (natPlace n) := by
  have hpos : compare (n : ℤ) 0 = .gt := Int.compare_eq_gt.mpr (by omega)
  have htarget : Format.binary64.targetExponent (totalExponent n 0) = (n.log2 : ℤ) - 52 := by
    rw [targetExponent_eq] <;> rw [totalExponent] <;> omega
  have hk : (0 - ((n.log2 : ℤ) - 52)).toNat = 52 - n.log2 := by omega
  have hlog : (n <<< (52 - n.log2)).log2 = n.log2 + (52 - n.log2) := log2_shiftLeft hn
  rw [UnpackedFloat.ofNat, UnpackedFloat.ofInt, UnpackedFloat.normalize, hpos]
  dsimp only
  rw [Int.toNat_natCast, UnpackedFloat.round, htarget, decreaseExponent, hk, natPlace]
  have hat := at_roundWithAccuracy (m := n <<< (52 - n.log2)) (e := 0 - (52 - n.log2 : ℕ)) .exact
    (by omega) (by omega)
  rw [hlog] at hat
  convert hat using 2
  omega

theorem rounded_shiftLeft_bounds (hn : n ≠ 0) :
    2 ^ 52 ≤ rounded (n <<< (52 - n.log2)) .exact ∧
      rounded (n <<< (52 - n.log2)) .exact ≤ 2 ^ 53 := by
  have hlog : (n <<< (52 - n.log2)).log2 = n.log2 + (52 - n.log2) := log2_shiftLeft hn
  obtain ⟨hlow, hhigh⟩ := div_log2_bounds (m := n <<< (52 - n.log2)) (by omega)
  obtain ⟨hr, hr'⟩ := rounded_bounds (n <<< (52 - n.log2)) .exact
  omega

/-- The conversion keeps the order of the integers. -/
theorem natPlace_mono (hn : n ≠ 0) (h : n ≤ n') : natPlace n ≤ natPlace n' := by
  have hn' : n' ≠ 0 := by omega
  have hle : n.log2 ≤ n'.log2 := (Nat.le_log2 hn').mpr ((Nat.log2_self_le hn).trans h)
  obtain ⟨-, hhigh⟩ := rounded_shiftLeft_bounds hn
  obtain ⟨hlow, -⟩ := rounded_shiftLeft_bounds hn'
  rw [natPlace, natPlace]
  obtain hlt | heq := hle.lt_or_eq
  · omega
  · have hshift : n <<< (52 - n.log2) ≤ n' <<< (52 - n'.log2) := by
      rw [heq, Nat.shiftLeft_eq, Nat.shiftLeft_eq]
      exact Nat.mul_le_mul_right _ h
    have hround := rounded_mono (by rw [log2_shiftLeft hn, log2_shiftLeft hn', heq]) hshift
    rw [heq] at hround ⊢
    omega

/-- An integer of at most 53 bits is the double it is converted to. -/
theorem isPositive_ofNat (hn : n ≠ 0) (h : n ≤ 2 ^ 53) :
    ∃ m k : ℕ, IsPositive (UnpackedFloat.ofNat Format.binary64 n) m (k - 52) ∧
      n * 2 ^ 52 = m * 2 ^ k := by
  obtain hlt | rfl := h.lt_or_eq
  · have hlog : n.log2 ≤ 52 := Nat.le_of_lt_succ ((Nat.log2_lt hn).mpr hlt)
    have hshift : (n <<< (52 - n.log2)).log2 = 52 := by
      rw [log2_shiftLeft hn]
      omega
    obtain ⟨m, e, hpos, hplace⟩ := at_ofNat hn
    rw [natPlace, rounded_exact (by rw [hshift]; exact one_dvd _), hshift, Nat.sub_self,
      Nat.pow_zero, Nat.div_one] at hplace
    have := mantissa_bounds hshift
    have := mantissa_bounds hpos.log2
    obtain rfl : m = n <<< (52 - n.log2) := by omega
    obtain rfl : e = n.log2 - 52 := by omega
    refine ⟨_, n.log2, hpos, ?_⟩
    rw [Nat.shiftLeft_eq, Nat.mul_assoc, ← Nat.pow_add, Nat.sub_add_cancel hlog]
  · exact ⟨2 ^ 52, 53, ⟨Nat.log2_two_pow, by decide, rfl⟩, rfl⟩

/-! ### Quotients -/

/-- The quotient of two mantissas, with 53 more bits. -/
def quotient (m n : ℕ) : ℕ := m <<< 53 / n

/-- What the division leaves over. -/
def leftOver (m n : ℕ) : Accuracy := accuracyOfFraction (m <<< 53 % n) n

/-- The place of a quotient. -/
def divPlace (m n : ℕ) (e : ℤ) : ℤ :=
  (e - 53 + (quotient m n).log2 - 52) * 2 ^ 52 + rounded (quotient m n) (leftOver m n)

theorem at_div {f : ℤ} (hu : IsPositive u m e) (hv : IsPositive v n f) (he : -1021 ≤ e - f) :
    At (UnpackedFloat.div Format.binary64 u v) (divPlace m n (e - f)) := by
  obtain ⟨hm, hm0, rfl⟩ := hu
  obtain ⟨hn, hn0, rfl⟩ := hv
  have htarget : min (e - f) (Format.binary64.targetExponent
      (totalExponent m e - totalExponent n f)) = e - f - 53 := by
    rw [totalExponent, totalExponent, hm, hn, targetExponent_eq] <;> omega
  have hamount : (e - f - (e - f - 53)).toNat = 53 := by omega
  have hlow : 52 ≤ (quotient m n).log2 := (log2_quotient hm hn).1
  have hat := @at_roundWithAccuracy _ (e - f - 53) (leftOver m n) hlow (by omega)
  rw [UnpackedFloat.div, divCore, htarget, hamount]
  exact hat

/-- A quotient of what is no smaller is no smaller than one. -/
theorem one_le_divPlace {f : ℤ} (hm : m.log2 = 52) (hn : n.log2 = 52)
    (h : f * 2 ^ 52 + n ≤ e * 2 ^ 52 + m) : natPlace 1 ≤ divPlace m n (e - f) := by
  have hlow : 52 ≤ (quotient m n).log2 := (log2_quotient hm hn).1
  have hone : natPlace 1 = -51 * 2 ^ 52 := by decide +kernel
  have := mantissa_bounds hm
  have := mantissa_bounds hn
  obtain ⟨hr, -⟩ := rounded_bounds (quotient m n) (leftOver m n)
  have hr' := (div_log2_bounds hlow).1.trans hr
  have hexp : 53 ≤ e - f + (quotient m n).log2 := by
    by_cases hef : e = f
    · -- then the mantissas are in order, and the quotient has all its bits
      have hq : 2 ^ 53 ≤ quotient m n := by
        rw [quotient, Nat.shiftLeft_eq, Nat.le_div_iff_mul_le (by omega)]
        nlinarith
      have := (Nat.le_log2 (by omega)).mpr hq
      omega
    · omega
  rw [hone, divPlace]
  omega

/-- A quotient is no greater than a double it does not exceed. -/
theorem divPlace_le {l a b c : ℕ} (hm : m.log2 = 52) (hn : n.log2 = 52) (hl : l.log2 = 52)
    (h : m * 2 ^ a * 2 ^ 52 ≤ l * 2 ^ c * (n * 2 ^ b)) :
    divPlace m n (a - b) ≤ (c - 52) * 2 ^ 52 + l := by
  obtain ⟨hlow, hhigh⟩ : 52 ≤ (quotient m n).log2 ∧ (quotient m n).log2 ≤ 53 :=
    log2_quotient hm hn
  obtain ⟨hlmin, hlmax⟩ := mantissa_bounds hl
  obtain ⟨hnmin, -⟩ := mantissa_bounds hn
  obtain ⟨-, hdiv⟩ := div_log2_bounds hlow
  obtain ⟨-, hr⟩ := rounded_bounds (quotient m n) (leftOver m n)
  have hq : quotient m n = m * 2 ^ 53 / n := by rw [quotient, Nat.shiftLeft_eq]
  rw [divPlace]
  obtain ⟨k, hk⟩ : ∃ k, (quotient m n).log2 = 52 + k := Nat.exists_eq_add_of_le hlow
  rw [hk, Nat.add_sub_cancel_left] at hdiv hr
  by_cases hexp : a + k < b + c + 1
  · -- the quotient has a smaller exponent, and its mantissa does not exceed the next power of two
    omega
  obtain ⟨s, hs⟩ : ∃ s, a + k = b + c + 1 + s := Nat.exists_eq_add_of_le (not_lt.mp hexp)
  have hmul : m * 2 ^ 53 * 2 ^ s ≤ l * 2 ^ k * n := by
    refine Nat.le_of_mul_le_mul_right ?_ (show 0 < 2 ^ (b + c) by positivity)
    calc m * 2 ^ 53 * 2 ^ s * 2 ^ (b + c) = m * 2 ^ (b + c + 1 + s) * 2 ^ 52 := by ring
      _ = m * 2 ^ a * 2 ^ 52 * 2 ^ k := by rw [← hs]; ring
      _ ≤ l * 2 ^ c * (n * 2 ^ b) * 2 ^ k := Nat.mul_le_mul_right _ h
      _ = l * 2 ^ k * n * 2 ^ (b + c) := by ring
  have hqn : quotient m n * n ≤ m * 2 ^ 53 := by
    rw [hq]
    exact Nat.div_mul_le_self _ _
  cases s with
  | succ s =>
    -- the quotient would exceed the double
    have hpow : 2 ^ (52 + k) ≤ quotient m n := by
      rw [← hk]
      refine Nat.log2_self_le fun h0 => ?_
      rw [h0, Nat.log2_zero] at hlow
      omega
    have hx : 0 < 2 ^ k * n := Nat.mul_pos (by positivity) (by omega)
    have hge : 2 ^ 53 * (2 ^ k * n) ≤ l * (2 ^ k * n) :=
      calc 2 ^ 53 * (2 ^ k * n) = 2 ^ (52 + k) * n * 2 := by ring
        _ ≤ m * 2 ^ 53 * 2 := Nat.mul_le_mul_right 2 ((Nat.mul_le_mul_right n hpow).trans hqn)
        _ ≤ m * 2 ^ 53 * 2 ^ (s + 1) :=
          Nat.mul_le_mul_left _ (Nat.le_self_pow (Nat.succ_ne_zero s) 2)
        _ ≤ l * (2 ^ k * n) := by rwa [Nat.mul_assoc l] at hmul
    exact absurd (Nat.le_of_mul_le_mul_right hge hx) (not_le.mpr hlmax)
  | zero =>
    rw [Nat.pow_zero, Nat.mul_one] at hmul
    have hle : rounded (quotient m n) (leftOver m n) ≤ l := by
      obtain hlt | hge := lt_or_ge (quotient m n / 2 ^ k) l
      · omega
      · -- the quotient is the double itself
        have hlk : l * 2 ^ k ≤ quotient m n :=
          (Nat.le_div_iff_mul_le (by positivity)).mp hge
        have heq : m * 2 ^ 53 = l * 2 ^ k * n :=
          le_antisymm hmul ((Nat.mul_le_mul_right n hlk).trans hqn)
        have hqeq : quotient m n = l * 2 ^ k := by
          rw [hq, heq, Nat.mul_div_cancel _ (by omega)]
        have hacc : leftOver m n = .exact := by
          rw [leftOver, Nat.shiftLeft_eq, heq, Nat.mul_mod_left]
          rfl
        have hround := @rounded_exact (quotient m n)
        rw [hk, Nat.add_sub_cancel_left, hqeq, Nat.mul_div_cancel _ (by positivity)] at hround
        rw [hacc, hqeq, hround (Nat.dvd_mul_left _ _)]
    omega

/-! ### Doubles -/

variable {x y : Float} {t b : ℕ}

theorem IsPositive.at (h : IsPositive u m e) : At u (e * 2 ^ 52 + m) := ⟨m, e, h, rfl⟩

theorem At.packed (h : At u i) (hlo : -1073 * 2 ^ 52 ≤ i) (hhi : i < 973 * 2 ^ 52) :
    At (unpack Format.binary64 (pack Format.binary64 u)) i := by
  obtain ⟨m, e, ⟨hlog, hm, rfl⟩, rfl⟩ := h
  obtain ⟨hmin, hmax⟩ := mantissa_bounds hlog
  rw [unpack_pack_finite hm hlog (by omega) (by omega)]
  exact ⟨m, e, ⟨hlog, hm, rfl⟩, rfl⟩

theorem At.number (h : At x.toModel.unpack i) : FloatOrder.Number x := by
  obtain ⟨m, e, ⟨-, hm, h⟩, -⟩ := h
  rw [FloatOrder.Number, h]
  rintro ⟨⟩

theorem At.le_iff (hx : At x.toModel.unpack i) (hy : At y.toModel.unpack j) : x ≤ y ↔ i ≤ j := by
  rw [FloatOrder.le_iff hx.number hy.number]
  exact hx.key_le hy

theorem natPlace_bounds (hn : n ≠ 0) :
    ((n.log2 : ℤ) - 51) * 2 ^ 52 ≤ natPlace n ∧ natPlace n ≤ ((n.log2 : ℤ) - 50) * 2 ^ 52 := by
  obtain ⟨hlow, hhigh⟩ := rounded_shiftLeft_bounds hn
  rw [natPlace]
  omega

theorem log2_lt_of_lt (hn : n ≠ 0) (h : n < 2 ^ 64) : n.log2 < 64 := (Nat.log2_lt hn).mpr h

/-- The double of an integer. -/
theorem at_toF64 (hn : n ≠ 0) (h : n < 2 ^ 64) :
    At (Machine.toF64 n).toModel.unpack (natPlace n) := by
  obtain ⟨hlow, hhigh⟩ := natPlace_bounds hn
  have := log2_lt_of_lt hn h
  exact (at_ofNat hn).packed (by omega) (by omega)

theorem toF64_unpack (hn : n ≠ 0) (h : n < 2 ^ 64) : (Machine.toF64 n).toModel.unpack =
    UnpackedFloat.ofNat Format.binary64 n := by
  obtain ⟨hlow, hhigh⟩ := natPlace_bounds hn
  have := log2_lt_of_lt hn h
  obtain ⟨m, e, ⟨hlog, hm, heq⟩, hplace⟩ := at_ofNat hn
  obtain ⟨hmin, hmax⟩ := mantissa_bounds hlog
  change unpack Format.binary64 (pack Format.binary64 (UnpackedFloat.ofNat Format.binary64 n)) = _
  rw [heq, unpack_pack_finite hm hlog (by omega) (by omega)]

theorem IsPositive.natPlace_eq (h : IsPositive (UnpackedFloat.ofNat Format.binary64 n) m e)
    (hn : n ≠ 0) : natPlace n = e * 2 ^ 52 + m := by
  obtain ⟨m', e', ⟨-, hm', heq'⟩, hplace⟩ := at_ofNat hn
  obtain ⟨hm, heq⟩ := h.eq
  rw [heq] at heq'
  injection heq' with _ hmm hee
  rw [hplace, hmm, hee]

theorem divPlace_bounds (hm : m.log2 = 52) (hn : n.log2 = 52) (e : ℤ) :
    (e - 52) * 2 ^ 52 ≤ divPlace m n e ∧ divPlace m n e ≤ (e - 50) * 2 ^ 52 := by
  obtain ⟨hlow, hhigh⟩ : 52 ≤ (quotient m n).log2 ∧ (quotient m n).log2 ≤ 53 :=
    log2_quotient hm hn
  obtain ⟨hdiv, hdiv'⟩ := div_log2_bounds hlow
  obtain ⟨hr, hr'⟩ := rounded_bounds (quotient m n) (leftOver m n)
  rw [divPlace]
  omega

/-- The quotient of two integers, as doubles. -/
theorem at_toF64_div {f : ℤ} (hu : IsPositive (UnpackedFloat.ofNat Format.binary64 t) m e)
    (hv : IsPositive (UnpackedFloat.ofNat Format.binary64 b) n f) (ht : t ≠ 0) (hb : b ≠ 0)
    (ht' : t < 2 ^ 64) (hb' : b < 2 ^ 64) :
    At (Machine.toF64 t / Machine.toF64 b).toModel.unpack (divPlace m n (e - f)) := by
  have hplace := hu.natPlace_eq ht
  have hplace' := hv.natPlace_eq hb
  obtain ⟨hlow, hhigh⟩ := natPlace_bounds ht
  obtain ⟨hlow', hhigh'⟩ := natPlace_bounds hb
  have := log2_lt_of_lt ht ht'
  have := log2_lt_of_lt hb hb'
  obtain ⟨hm, hm'⟩ := mantissa_bounds hu.log2
  obtain ⟨hn, hn'⟩ := mantissa_bounds hv.log2
  obtain ⟨hd, hd'⟩ := divPlace_bounds hu.log2 hv.log2 (e - f)
  have hdiv := at_div hu hv (by omega)
  rw [← toF64_unpack ht ht', ← toF64_unpack hb hb'] at hdiv
  exact hdiv.packed (by omega) (by omega)

/-- The quotient of two integers, as doubles, is at least one when the integers are in order. -/
theorem one_le_toF64_div (hb : b ≠ 0) (h : b ≤ t) (ht : t < 2 ^ 64) :
    Machine.toF64 1 ≤ Machine.toF64 t / Machine.toF64 b := by
  have ht0 : t ≠ 0 := by omega
  obtain ⟨m, e, hu, hplace⟩ := at_ofNat ht0
  obtain ⟨n, f, hv, hplace'⟩ := at_ofNat hb
  have hdiv := at_toF64_div hu hv ht0 hb ht (by omega)
  rw [(at_toF64 Nat.one_ne_zero (by decide)).le_iff hdiv]
  refine one_le_divPlace hu.log2 hv.log2 ?_
  rw [← hplace, ← hplace']
  exact natPlace_mono hb h

/-- The quotient of two integers of at most 53 bits, as doubles, does not exceed a bound of the
    quotient. -/
theorem toF64_div_le {c : ℕ} (hb : b ≠ 0) (ht : t ≠ 0) (hb' : b ≤ 2 ^ 53) (ht' : t ≤ 2 ^ 53)
    (hc : c ≤ 2 ^ 53) (h : t ≤ c * b) :
    Machine.toF64 t / Machine.toF64 b ≤ Machine.toF64 c := by
  have hc0 : c ≠ 0 := by
    rintro rfl
    omega
  obtain ⟨m, i, hu, hi⟩ := isPositive_ofNat ht ht'
  obtain ⟨n, j, hv, hj⟩ := isPositive_ofNat hb hb'
  obtain ⟨l, k, hw, hk⟩ := isPositive_ofNat hc0 hc
  have hdiv := at_toF64_div hu hv ht hb (by omega) (by omega)
  have hplace := at_toF64 hc0 (by omega)
  rw [hw.natPlace_eq hc0] at hplace
  rw [hdiv.le_iff hplace, sub_sub_sub_cancel_right]
  refine divPlace_le hu.log2 hv.log2 hw.log2 ?_
  calc m * 2 ^ i * 2 ^ 52 = t * (2 ^ 52 * 2 ^ 52) := by rw [← hi]; ring
    _ ≤ c * b * (2 ^ 52 * 2 ^ 52) := Nat.mul_le_mul_right _ h
    _ = l * 2 ^ k * (n * 2 ^ j) := by rw [← hk, ← hj]; ring

end Binary64
