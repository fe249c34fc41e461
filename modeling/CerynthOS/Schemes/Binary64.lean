import CerynthOS.Schemes.Machine

/-! How large a double can be.

    A normal double is an integer of 53 bits and a power of two. `Normal lo hi` bounds the exponent;
    the conversion of an integer and the quotient of two doubles have such bounds, and what stays
    within the format is finite. -/

open Float.Model Float.Model.UnpackedFloat

namespace Binary64

/-- An unpacked double whose mantissa has 53 bits and whose exponent is within these bounds. -/
def Normal (lo hi : ℤ) : UnpackedFloat → Prop
  | .finite _ m e _ => m.log2 = 52 ∧ lo ≤ e ∧ e ≤ hi
  | _ => False

variable {lo hi lo' hi' : ℤ} {u v : UnpackedFloat}

theorem Normal.mono (h : Normal lo hi u) (hlo : lo' ≤ lo) (hhi : hi ≤ hi') : Normal lo' hi' u := by
  cases u with
  | finite s m e hm => exact ⟨h.1, hlo.trans h.2.1, h.2.2.trans hhi⟩
  | _ => exact h

/-! ### Rounding -/

theorem shiftRight_mantissa (em : ExtendedMantissa) (k : ℕ) :
    (em >>> k).mantissa = em.mantissa / 2 ^ k := by
  induction k with
  | zero => exact (Nat.div_one _).symm
  | succ k ih =>
    change (em >>> k).mantissa / 2 = _
    rw [ih, Nat.div_div_eq_div_mul, Nat.pow_succ]

theorem ofMantissaAndAccuracy_mantissa (m : ℕ) (acc : Accuracy) :
    (ExtendedMantissa.ofMantissaAndAccuracy m acc).mantissa = m := by
  rcases acc with _ | _ | _ | _ <;> rfl

theorem roundedMantissa_bounds (em : ExtendedMantissa) :
    em.mantissa ≤ em.roundedMantissa ∧ em.roundedMantissa ≤ em.mantissa + 1 := by
  obtain ⟨m, roundBit, stickyBit⟩ := em
  have := Nat.mod_lt m (show 0 < 2 by decide)
  cases roundBit <;> cases stickyBit <;>
    simp only [ExtendedMantissa.roundedMantissa, ExtendedMantissa.accuracy,
      Accuracy.roundToNearestEven] <;> omega

theorem log2_div_pow {m k : ℕ} (hm : m ≠ 0) (h : m.log2 = 52 + k) : (m / 2 ^ k).log2 = 52 := by
  obtain ⟨hle, hlt⟩ := (Nat.log2_eq_iff hm).mp h
  have hdiv : 2 ^ 52 ≤ m / 2 ^ k := by
    rw [Nat.le_div_iff_mul_le (by positivity), ← Nat.pow_add]
    exact hle
  refine (Nat.log2_eq_iff (by omega)).mpr ⟨hdiv, ?_⟩
  rw [Nat.div_lt_iff_lt_mul (by positivity), ← Nat.pow_add]
  rwa [show 52 + 1 + k = 52 + k + 1 by omega]

theorem targetExponent_eq (t : ℤ) (h : -1074 ≤ t - 53) :
    Format.binary64.targetExponent t = t - 53 :=
  max_eq_left h

/-- Shifting to the target exponent leaves 53 bits. -/
theorem shiftToTargetExponent_normal {m : ℕ} {e : ℤ} (acc : Accuracy) (hm : 52 ≤ m.log2)
    (he : -1074 ≤ e + m.log2 - 52) :
    (shiftToTargetExponent Format.binary64 m e acc).1.mantissa.log2 = 52 ∧
      (shiftToTargetExponent Format.binary64 m e acc).2 = e + m.log2 - 52 := by
  have hm0 : m ≠ 0 := by
    rintro rfl
    simp at hm
  have htarget : Format.binary64.targetExponent (totalExponent m e) = e + m.log2 - 52 := by
    rw [targetExponent_eq] <;> rw [totalExponent] <;> omega
  rw [shiftToTargetExponent, shiftToExponent, htarget]
  have hk : (e + m.log2 - 52 - e).toNat = m.log2 - 52 := by omega
  refine ⟨?_, by dsimp only; omega⟩
  dsimp only
  rw [shiftRight_mantissa, ofMantissaAndAccuracy_mantissa, hk]
  exact log2_div_pow hm0 (by omega)

/-- Rounding a mantissa with enough bits. -/
theorem normal_roundWithAccuracy {m : ℕ} {e : ℤ} (s : Sign) (acc : Accuracy) (hm : 52 ≤ m.log2)
    (he : -1074 ≤ e + m.log2 - 52) :
    Normal (e + m.log2 - 52) (e + m.log2 - 51) (roundWithAccuracy Format.binary64 s m e acc) := by
  obtain ⟨hlog, hexp⟩ := shiftToTargetExponent_normal acc hm he
  rw [roundWithAccuracy]
  generalize shiftToTargetExponent Format.binary64 m e acc = first at hlog hexp
  obtain ⟨em, e₁⟩ := first
  dsimp only at hlog hexp ⊢
  have hem : em.mantissa ≠ 0 := by
    intro h
    rw [h] at hlog
    simp at hlog
  obtain ⟨hle, hlt⟩ := (Nat.log2_eq_iff hem).mp hlog
  obtain ⟨hr, hr'⟩ := roundedMantissa_bounds em
  have hpos : em.roundedMantissa ≠ 0 := by omega
  have hlow : 52 ≤ em.roundedMantissa.log2 := (Nat.le_log2 hpos).mpr (hle.trans hr)
  have hhigh : em.roundedMantissa.log2 < 54 := (Nat.log2_lt hpos).mpr (by omega)
  generalize em.roundedMantissa = r at *
  obtain ⟨hlog', hexp'⟩ := shiftToTargetExponent_normal (m := r) (e := e₁) .exact hlow (by omega)
  generalize shiftToTargetExponent Format.binary64 r e₁ .exact = final at hlog' hexp'
  obtain ⟨em', e₂⟩ := final
  dsimp only at hlog' hexp' ⊢
  split
  case isTrue h =>
    rw [h] at hlog'
    simp at hlog'
  case isFalse h => exact ⟨hlog', by omega, by omega⟩

/-! ### Integers and quotients -/

theorem log2_shiftLeft {n k : ℕ} (hn : n ≠ 0) : (n <<< k).log2 = n.log2 + k := by
  have hpos : 0 < 2 ^ k := by positivity
  have hne : n <<< k ≠ 0 := by
    rw [Nat.shiftLeft_eq]
    exact Nat.mul_ne_zero hn hpos.ne'
  obtain ⟨hle, hlt⟩ := (Nat.log2_eq_iff hn).mp rfl
  refine (Nat.log2_eq_iff hne).mpr ?_
  rw [Nat.shiftLeft_eq, Nat.add_right_comm, Nat.pow_add, Nat.pow_add _ _ k]
  exact ⟨Nat.mul_le_mul_right _ hle, Nat.mul_lt_mul_of_pos_right hlt hpos⟩

theorem normal_ofNat {n : ℕ} (hn : n ≠ 0) :
    Normal (n.log2 - 52) (n.log2 - 51) (UnpackedFloat.ofNat Format.binary64 n) := by
  have hpos : compare (n : ℤ) 0 = .gt := Int.compare_eq_gt.mpr (by omega)
  have htarget : Format.binary64.targetExponent (totalExponent n 0) = (n.log2 : ℤ) - 52 := by
    rw [targetExponent_eq] <;> rw [totalExponent] <;> omega
  rw [UnpackedFloat.ofNat, UnpackedFloat.ofInt, UnpackedFloat.normalize, hpos]
  dsimp only
  rw [Int.toNat_natCast, UnpackedFloat.round, htarget, decreaseExponent]
  set k := (0 - ((n.log2 : ℤ) - 52)).toNat with hk
  have hlog : (n <<< k).log2 = n.log2 + k := log2_shiftLeft hn
  have hround := normal_roundWithAccuracy .positive .exact (m := n <<< k) (e := 0 - k)
  rw [hlog] at hround
  exact (hround (by omega) (by omega)).mono (by omega) (by omega)

/-- The quotient of two mantissas of 53 bits, with 53 more bits. -/
theorem log2_quotient {m₁ m₂ : ℕ} (h₁ : m₁.log2 = 52) (h₂ : m₂.log2 = 52) :
    52 ≤ (m₁ <<< 53 / m₂).log2 ∧ (m₁ <<< 53 / m₂).log2 ≤ 53 := by
  have hne {m : ℕ} (h : m.log2 = 52) : m ≠ 0 := by
    rintro rfl
    simp at h
  obtain ⟨hle₁, hlt₁⟩ := (Nat.log2_eq_iff (hne h₁)).mp h₁
  obtain ⟨hle₂, hlt₂⟩ := (Nat.log2_eq_iff (hne h₂)).mp h₂
  rw [Nat.shiftLeft_eq]
  have hlow : 2 ^ 52 ≤ m₁ * 2 ^ 53 / m₂ := by
    rw [Nat.le_div_iff_mul_le (by omega)]
    omega
  have hhigh : m₁ * 2 ^ 53 / m₂ < 2 ^ 54 := by
    rw [Nat.div_lt_iff_lt_mul (by omega)]
    omega
  have hpos : m₁ * 2 ^ 53 / m₂ ≠ 0 := by omega
  exact ⟨(Nat.le_log2 hpos).mpr hlow, Nat.le_of_lt_succ ((Nat.log2_lt hpos).mpr hhigh)⟩

theorem Normal.div (hu : Normal lo hi u) (hv : Normal lo' hi' v) (h : -1021 ≤ lo - hi') :
    Normal (lo - hi' - 53) (hi - lo' - 51) (UnpackedFloat.div Format.binary64 u v) := by
  cases u with
  | finite s₁ m₁ e₁ h₁ =>
    cases v with
    | finite s₂ m₂ e₂ h₂ =>
      obtain ⟨hm₁, hl₁, hh₁⟩ := hu
      obtain ⟨hm₂, hl₂, hh₂⟩ := hv
      have htarget : min (e₁ - e₂) (Format.binary64.targetExponent
          (totalExponent m₁ e₁ - totalExponent m₂ e₂)) = e₁ - e₂ - 53 := by
        rw [totalExponent, totalExponent, hm₁, hm₂, targetExponent_eq] <;> omega
      have hamount : (e₁ - e₂ - (e₁ - e₂ - 53)).toNat = 53 := by omega
      obtain ⟨hlow, hhigh⟩ := log2_quotient hm₁ hm₂
      rw [UnpackedFloat.div, divCore, htarget, hamount]
      exact (normal_roundWithAccuracy _ _ hlow (by omega)).mono (by omega) (by omega)
    | _ => exact hv.elim
  | _ => exact hu.elim

/-! ### Packing -/

theorem unpackSign_packComponents {s : Sign} {exponent mantissa} :
    unpackSign (packComponents Format.binary64 s exponent mantissa) = s.toBitVec := by
  change (s.toBitVec ++ exponent ++ mantissa).extractLsb' 63 1 = _
  rw [BitVec.extractLsb'_append_eq_of_le (by decide),
    BitVec.extractLsb'_append_eq_of_le (by decide)]
  cases s <;> rfl

/-- A normal double survives packing. -/
theorem unpack_pack_finite {s : Sign} {m : ℕ} {e : ℤ} (hm : 0 < m) (hlog : m.log2 = 52)
    (hlo : -1074 ≤ e) (hhi : e ≤ 971) :
    unpack Format.binary64 (pack Format.binary64 (.finite s m e hm)) = .finite s m e hm := by
  obtain ⟨b, hb⟩ : ∃ b : ℕ, e + 1075 = b := Int.eq_ofNat_of_zero_le (by omega)
  have hbiased : (e + Format.binary64.exponentBias +
      Format.binary64.mantissaBitsWithoutImplicit).toNat = b := by
    change (e + 1023 + 52).toNat = b
    omega
  have hpack : pack Format.binary64 (.finite s m e hm) =
      packComponents Format.binary64 s (BitVec.ofNat 11 b) (BitVec.ofNat 52 m) := by
    rw [UnpackedFloat.pack]
    simp only [hbiased, hlog]
    rw [if_neg (show ¬ 2 ^ 11 ≤ b + 1 by omega),
      if_pos (show 52 + 1 = Format.binary64.mantissaBits from rfl)]
  have hnat : (BitVec.ofNat 11 b).toNat = b := by
    rw [BitVec.toNat_ofNat, Nat.mod_eq_of_lt (by omega)]
  have hinf : BitVec.ofNat 11 b ≠ -1#_ := by
    intro h
    have := congrArg BitVec.toNat h
    rw [hnat] at this
    change b = 2047 at this
    omega
  have hsub : BitVec.ofNat 11 b ≠ 0#_ := by
    intro h
    have := congrArg BitVec.toNat h
    rw [hnat] at this
    change b = 0 at this
    omega
  have hsign : Sign.ofBitVec s.toBitVec = s := by cases s <;> rfl
  have hmantissa : (1#1 ++ BitVec.ofNat 52 m).toNat = m := by
    obtain ⟨hle, hlt⟩ := (Nat.log2_eq_iff hm.ne').mp hlog
    rw [BitVec.toNat_append, ← Nat.shiftLeft_add_eq_or_of_lt (BitVec.isLt _), BitVec.toNat_ofNat]
    change 2 ^ 52 + m % 2 ^ 52 = m
    omega
  have hexp : ((BitVec.ofNat 11 b).toNat : ℤ) - (Format.binary64.exponentBias +
      Format.binary64.mantissaBitsWithoutImplicit) = e := by
    change ((BitVec.ofNat 11 b).toNat : ℤ) - (1023 + 52) = e
    rw [hnat]
    omega
  rw [hpack, UnpackedFloat.unpack]
  simp only [unpackMantissa_packComponents, unpackExponent_packComponents,
    unpackSign_packComponents]
  rw [if_neg hinf, if_neg hsub]
  simp only [hexp, hmantissa, hsign]

/-- The exponent of a normal double survives packing. -/
theorem Normal.unpack_pack (h : Normal lo hi u) (hlo : -1074 ≤ lo) (hhi : hi ≤ 971) :
    Normal lo hi (unpack Format.binary64 (pack Format.binary64 u)) := by
  cases u with
  | finite s m e hm =>
    rw [unpack_pack_finite hm h.1 (hlo.trans h.2.1) (h.2.2.trans hhi)]
    exact h
  | _ => exact h.elim

/-! ### Doubles -/

/-- A normal double with these bounds of its exponent. -/
def Ranged (lo hi : ℤ) (x : Float) : Prop := Normal lo hi x.toModel.unpack

variable {x y : Float} {n k : ℕ}

theorem Ranged.mono (h : Ranged lo hi x) (hlo : lo' ≤ lo) (hhi : hi ≤ hi') : Ranged lo' hi' x :=
  Normal.mono h hlo hhi

theorem Ranged.isFinite (h : Ranged lo hi x) : x.isFinite = true := by
  change x.toModel.unpack.isFinite = true
  rw [Ranged] at h
  cases hx : x.toModel.unpack with
  | finite s m e hm => rfl
  | _ =>
    rw [hx] at h
    exact h.elim

theorem Ranged.div (hx : Ranged lo hi x) (hy : Ranged lo' hi' y) (hlo : -1021 ≤ lo - hi')
    (hhi : hi - lo' ≤ 1022) : Ranged (lo - hi' - 53) (hi - lo' - 51) (x / y) :=
  (Normal.div hx hy hlo).unpack_pack (by omega) (by omega)

/-- An integer below a power of two within the format. -/
theorem ranged_toF64 (hn : n ≠ 0) (hlt : n < 2 ^ k) (hk : k ≤ 1000) :
    Ranged (-52) (k - 52) (Machine.toF64 n) := by
  have hlog : n.log2 < k := (Nat.log2_lt hn).mpr hlt
  have h : Normal (-52) (k - 52) (UnpackedFloat.ofNat Format.binary64 n) :=
    (normal_ofNat hn).mono (by omega) (by omega)
  exact h.unpack_pack (by omega) (by omega)

/-- Zero divided by a normal double. -/
theorem isFinite_zero_div (hy : Ranged lo hi y) : (Machine.toF64 0 / y).isFinite = true := by
  have hzero : (Machine.toF64 0).toModel.unpack = .zero .positive := rfl
  change (unpack Format.binary64 (pack Format.binary64 (UnpackedFloat.div Format.binary64
    (Machine.toF64 0).toModel.unpack y.toModel.unpack))).isFinite = true
  rw [Ranged] at hy
  rw [hzero]
  cases hx : y.toModel.unpack with
  | finite s m e hm =>
    rw [UnpackedFloat.div]
    cases s <;> decide +kernel
  | _ =>
    rw [hx] at hy
    exact hy.elim

end Binary64
