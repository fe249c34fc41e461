import CerynthOS.Schemes.JsonCodec

/-! How long the compact text of a value can be.

    Every scalar has a width that its text does not exceed, and a value is as wide as its parts and
    the signs between them. The text of a double is that of the library in use; one that is not
    finite is printed as `null`. -/

namespace Json

mutual
/-- All doubles in the value are finite, and the negative integers are negative. -/
def Value.finite : Value → Bool
  | .float x => x.isFinite
  | .negInt n => 0 < n && n ≤ 2 ^ 63
  | .arr items => Value.itemsFinite items
  | .obj members => Value.membersFinite members
  | _ => true

def Value.itemsFinite : List Value → Bool
  | [] => true
  | v :: vs => v.finite && Value.itemsFinite vs

def Value.membersFinite : List (String × Value) → Bool
  | [] => true
  | (_, v) :: members => v.finite && Value.membersFinite members
end

/-! ### Printing with doubles -/

section
variable (f64 : Float → List Char)

mutual
/-- The compact text, with a printer for finite doubles. -/
def printWith : Value → List Char
  | .null => ['n', 'u', 'l', 'l']
  | .bool true => ['t', 'r', 'u', 'e']
  | .bool false => ['f', 'a', 'l', 's', 'e']
  | .posInt n => Nat.toDigits 10 n.toNat
  | .negInt n => '-' :: Nat.toDigits 10 n
  | .float x => if x.isFinite then f64 x else ['n', 'u', 'l', 'l']
  | .str s => printStr s
  | .arr [] => ['[', ']']
  | .arr (v :: vs) => '[' :: printWith v ++ printItemsWith vs
  | .obj [] => ['{', '}']
  | .obj ((key, v) :: members) =>
    '{' :: printStr key ++ ':' :: printWith v ++ printMembersWith members

/-- The items of an array after the first, and its end. -/
def printItemsWith : List Value → List Char
  | [] => [']']
  | v :: vs => ',' :: printWith v ++ printItemsWith vs

/-- The members of an object after the first, and its end. -/
def printMembersWith : List (String × Value) → List Char
  | [] => ['}']
  | (key, v) :: members => ',' :: printStr key ++ ':' :: printWith v ++ printMembersWith members
end

mutual
/-- Without doubles it is the compact text. -/
theorem printWith_whole : ∀ (v : Value) (i : ℕ), v.whole = true →
    printWith f64 v = print compact i v
  | .null, i, _ => by simp [printWith, print]
  | .bool true, i, _ => by simp [printWith, print]
  | .bool false, i, _ => by simp [printWith, print]
  | .posInt n, i, _ => by simp [printWith, print]
  | .negInt n, i, _ => by simp [printWith, print]
  | .str s, i, _ => by simp [printWith, print]
  | .arr [], i, _ => by simp [printWith, print]
  | .arr (v :: vs), i, hv => by
    obtain ⟨hfirst, hrest⟩ := Bool.and_eq_true_iff.mp hv
    simp [printWith, print, compact, printWith_whole v (i + 1) hfirst,
      printItemsWith_whole vs i hrest]
  | .obj [], i, _ => by simp [printWith, print]
  | .obj ((key, v) :: members), i, hv => by
    obtain ⟨hfirst, hrest⟩ := Bool.and_eq_true_iff.mp hv
    simp [printWith, print, compact, printWith_whole v (i + 1) hfirst,
      printMembersWith_whole members i hrest]

theorem printItemsWith_whole : ∀ (vs : List Value) (i : ℕ), Value.itemsWhole vs = true →
    printItemsWith f64 vs = printItems compact i vs
  | [], i, _ => by simp [printItemsWith, printItems, compact]
  | v :: vs, i, hv => by
    obtain ⟨hfirst, hrest⟩ := Bool.and_eq_true_iff.mp hv
    simp [printItemsWith, printItems, compact, printWith_whole v (i + 1) hfirst,
      printItemsWith_whole vs i hrest]

theorem printMembersWith_whole : ∀ (members : List (String × Value)) (i : ℕ),
    Value.membersWhole members = true →
    printMembersWith f64 members = printMembers compact i members
  | [], i, _ => by simp [printMembersWith, printMembers, compact]
  | (key, v) :: members, i, hv => by
    obtain ⟨hfirst, hrest⟩ := Bool.and_eq_true_iff.mp hv
    simp [printMembersWith, printMembers, compact, printWith_whole v (i + 1) hfirst,
      printMembersWith_whole members i hrest]
end

end

/-! ### Widths -/

section
variable (floatWidth : ℕ)

mutual
/-- A bound of the text's length that does not look at the numbers, the negative ones apart. -/
def width : Value → ℕ
  | .null => 4
  | .bool _ => 5
  | .posInt _ => 20
  | .negInt n => (Nat.toDigits 10 n).length + 1
  | .float _ => max floatWidth 4
  | .str s => (printStr s).length
  | .arr items => itemsWidth items + 2
  | .obj members => membersWidth members + 2

/-- The items of an array, each with a comma. -/
def itemsWidth : List Value → ℕ
  | [] => 0
  | v :: vs => width v + 1 + itemsWidth vs

/-- The members of an object, each with a comma and a colon. -/
def membersWidth : List (String × Value) → ℕ
  | [] => 0
  | (key, v) :: members => (printStr key).length + width v + 2 + membersWidth members
end

end

/-- An object of values that have a common bound. -/
theorem membersWidth_zip_le {w k : ℕ} (names : List String) {values : List Value}
    (h : ∀ v ∈ values, width w v ≤ k) : membersWidth w (names.zip values) ≤
      (names.map fun name => (printStr name).length).sum + (k + 2) * values.length := by
  induction names generalizing values with
  | nil => simp [membersWidth]
  | cons name names ih =>
    cases values with
    | nil => simp [membersWidth]
    | cons v values =>
      have hv := h v List.mem_cons_self
      have hrest := ih fun u hu => h u (List.mem_cons_of_mem v hu)
      simp only [List.zip_cons_cons, membersWidth, List.map_cons, List.sum_cons, List.length_cons,
        Nat.mul_succ]
      omega

/-- The largest integer of 64 bits has twenty digits. -/
theorem length_toDigits_u64 (n : UInt64) : (Nat.toDigits 10 n.toNat).length ≤ 20 := by
  rw [Nat.length_toDigits_le_iff (by decide) (by decide)]
  exact n.toNat_lt.trans (by decide)

section
variable {f64 : Float → List Char} {w : ℕ}

theorem length_float_le (hf : ∀ x, x.isFinite = true → (f64 x).length ≤ w) (x : Float) :
    (printWith f64 (.float x)).length ≤ max w 4 := by
  rw [printWith]
  split
  · next hx => exact (hf x hx).trans (le_max_left w 4)
  · exact le_max_right w 4

mutual
/-- No text is longer than the width of its value. -/
theorem length_printWith_le (hf : ∀ x, x.isFinite = true → (f64 x).length ≤ w) :
    ∀ v : Value, (printWith f64 v).length ≤ width w v
  | .null => by simp [printWith, width]
  | .bool true => by simp [printWith, width]
  | .bool false => by simp [printWith, width]
  | .posInt n => by
    rw [printWith, width]
    exact length_toDigits_u64 n
  | .negInt n => by simp [printWith, width]
  | .float x => by
    rw [width]
    exact length_float_le hf x
  | .str s => by simp [printWith, width]
  | .arr [] => by simp [printWith, width]
  | .arr (v :: vs) => by
    have h₁ := length_printWith_le hf v
    have h₂ := length_printItemsWith_le hf vs
    simp only [printWith, width, itemsWidth, List.length_append, List.length_cons]
    omega
  | .obj [] => by simp [printWith, width]
  | .obj ((key, v) :: members) => by
    have h₁ := length_printWith_le hf v
    have h₂ := length_printMembersWith_le hf members
    simp only [printWith, width, membersWidth, List.length_append, List.length_cons]
    omega

theorem length_printItemsWith_le (hf : ∀ x, x.isFinite = true → (f64 x).length ≤ w) :
    ∀ vs : List Value, (printItemsWith f64 vs).length ≤ itemsWidth w vs + 1
  | [] => by simp [printItemsWith, itemsWidth]
  | v :: vs => by
    have h₁ := length_printWith_le hf v
    have h₂ := length_printItemsWith_le hf vs
    simp only [printItemsWith, itemsWidth, List.length_append, List.length_cons]
    omega

theorem length_printMembersWith_le (hf : ∀ x, x.isFinite = true → (f64 x).length ≤ w) :
    ∀ members : List (String × Value),
      (printMembersWith f64 members).length ≤ membersWidth w members + 1
  | [] => by simp [printMembersWith, membersWidth]
  | (key, v) :: members => by
    have h₁ := length_printWith_le hf v
    have h₂ := length_printMembersWith_le hf members
    simp only [printMembersWith, membersWidth, List.length_append, List.length_cons]
    omega
end

end

/-- A character takes at most four bytes. -/
theorem length_utf8_le (s : List Char) : (utf8 s).length ≤ 4 * s.length := by
  induction s with
  | nil => simp [utf8]
  | cons c s ih =>
    have hc := c.utf8Size_le_four
    rw [utf8] at ih
    rw [utf8, List.flatMap_cons, List.length_append, String.length_utf8EncodeChar,
      List.length_cons]
    omega

/-! ### Codecs that print doubles -/

/-- A codec whose compact text is the usual one, and whose finite doubles are not longer than this. -/
class CompactCodec (floatWidth : outParam ℕ) [Codec] where
  f64 : Float → List Char
  f64_length : ∀ x, x.isFinite = true → (f64 x).length ≤ floatWidth
  toVec_eq : ∀ v, Codec.toVec v = utf8 (printWith f64 v)

theorem length_toVec_le {w : ℕ} [Codec] [c : CompactCodec w] (v : Value) :
    (Codec.toVec v).length ≤ 4 * width w v := by
  rw [c.toVec_eq]
  exact (length_utf8_le _).trans (Nat.mul_le_mul_left 4 (length_printWith_le c.f64_length v))

/-- The value is read back as it was written, unless it is nested too deep or has a double that is
    not finite. -/
def ReadsBack [Codec] (v : Value) : Prop :=
  v.finite = true → v.depth < recursionLimit → Codec.fromSlice (Codec.toVec v) = some v

/-- The codec of the printer and the reader, with finite doubles printed so. -/
@[reducible] def floatCodec (f64 : Float → List Char) : Codec := { textCodec with
  toVec v := utf8 (printWith f64 v) }

section
variable {f64 : Float → List Char}

theorem toVec_floatCodec {v : Value} (hv : v.whole = true) :
    (floatCodec f64).toVec v = textCodec.toVec v :=
  congrArg utf8 (printWith_whole f64 v 0 hv)

/-- It is lawful, since the laws are about whole numbers. -/
theorem floatCodec_lawful : @LawfulCodec (floatCodec f64) := by
  refine @LawfulCodec.mk (floatCodec f64) ?_ ?_ ?_ textCodec_lawful.fromStr_toStringPretty
  · intro v ws hv hws
    rw [toVec_floatCodec hv.1]
    exact textCodec_lawful.fromSlice_toVec v ws hv hws
  · intro v hv
    rw [toVec_floatCodec hv.1]
    exact textCodec_lawful.newline_not_mem_toVec v hv
  · intro members p hv hp hne
    rw [toVec_floatCodec hv.1] at hp hne
    exact textCodec_lawful.fromSlice_prefix members p hv hp hne

end

end Json
