import Mathlib

/-! Machine arithmetic that has no built-in counterpart.

    Fixed-width integers are the built-in `UIntN` types; what is added here are the saturating
    operations. A double is the built-in `Float`, which computes in the logic exactly as the
    hardware does; what is added are the casts and the selections whose treatment of NaN is not the
    one of `min` and `max`. -/

namespace Machine

/-- `u32::saturating_add`. -/
def satAdd32 (a b : UInt32) : UInt32 :=
  if a.toNat + b.toNat < 2 ^ 32 then a + b else 0xFFFFFFFF

/-- `u64::saturating_sub`. -/
def satSub64 (a b : UInt64) : UInt64 := if b ≤ a then a - b else 0

theorem satAdd32_toNat {a b : UInt32} (h : a.toNat + b.toNat < 2 ^ 32) :
    (satAdd32 a b).toNat = a.toNat + b.toNat := by
  rw [satAdd32, if_pos h, UInt32.toNat_add, Nat.mod_eq_of_lt h]

theorem satSub64_toNat (a b : UInt64) : (satSub64 a b).toNat = a.toNat - b.toNat := by
  unfold satSub64
  split
  · next h => exact UInt64.toNat_sub_of_le _ _ h
  · next h =>
    have : a.toNat < b.toNat := by simpa [UInt64.le_iff_toNat_le] using h
    simp; omega

/-- `saturating_sub` of a wider unsigned integer. -/
def satSub {w : ℕ} (a b : BitVec w) : BitVec w := if b ≤ a then a - b else 0

/-- An unsigned integer as a double, rounded to the nearest one (`as f64`). -/
def toF64 (n : ℕ) : Float := .ofModel (.ofNat n)

/-- The number that a double stands for, zero if it is none. -/
def value (x : Float) : ℚ :=
  match x.toModel.unpack with
  | .finite s m e _ => (s.apply m : ℤ) * 2 ^ e
  | _ => 0

/-- `f64::max`: the other operand when one is NaN. -/
def maxF64 (a b : Float) : Float :=
  if a.isNaN then b else if b.isNaN then a else if a < b then b else a

/-- `f64::clamp`: NaN stays NaN. -/
def clampF64 (x lo hi : Float) : Float :=
  let x := if x < lo then lo else x
  if hi < x then hi else x

end Machine
