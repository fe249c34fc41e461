import CerynthOS.Schemes.JsonWidth

/-! Records with doubles that are written in decimals.

    A double is printed with as few decimals as it takes to read it back, up to 17. An object whose
    members are scalars is read member by member, and what is read of a double is some double. -/

namespace Json

/-! ### Decimals -/

/-- The last `k` digits of a number. -/
def lastDigits : ℕ → ℕ → List Char
  | 0, _ => []
  | k + 1, m => lastDigits k (m / 10) ++ [(m % 10).digitChar]

/-- A number in units of `10 ^ -k`. -/
def fixed (m k : ℕ) : List Char := Nat.toDigits 10 (m / 10 ^ k) ++ '.' :: lastDigits k m

/-- The absolute value of a double in units of `10 ^ -k`, rounded. -/
def scaled (x : Float) (k : ℕ) : ℕ :=
  match x.toModel.unpack with
  | .finite _ m e _ =>
    if 0 ≤ e then m * 2 ^ e.toNat * 10 ^ k
    else (2 * (m * 10 ^ k) + 2 ^ (-e).toNat) / (2 * 2 ^ (-e).toNat)
  | _ => 0

/-- How many decimals it takes to read the double back. -/
def decimals (x : Float) : ℕ :=
  ((List.range 16).find? fun k => decimal (scaled x (k + 1)) (-(k + 1 : ℕ)) == x.abs).getD 16 + 1

def negative (x : Float) : Bool := decide (x < 0.0)

def decimalText (x : Float) : List Char :=
  (if negative x then ['-'] else []) ++ fixed (scaled x (decimals x)) (decimals x)

/-- What is read of the text of a double. -/
def readBack (x : Float) : Float :=
  let y := decimal (scaled x (decimals x)) (-(decimals x : ℕ))
  if negative x then -y else y

theorem length_lastDigits (k m : ℕ) : (lastDigits k m).length = k := by
  induction k generalizing m with
  | zero => rfl
  | succ k ih => rw [lastDigits, List.length_append, ih]; rfl

theorem isDigit_lastDigits (k m : ℕ) : ∀ c ∈ lastDigits k m, c.isDigit = true := by
  have hdigit : ∀ n < 10, n.digitChar.isDigit = true := by decide
  induction k generalizing m with
  | zero => exact fun c hc => absurd hc List.not_mem_nil
  | succ k ih =>
    intro c hc
    rcases List.mem_append.mp hc with hc | hc
    · exact ih (m / 10) c hc
    · rw [List.mem_singleton.mp hc]
      exact hdigit (m % 10) (Nat.mod_lt m (by decide))

theorem ofDigitChars_lastDigits (k m : ℕ) :
    Nat.ofDigitChars 10 (lastDigits k m) 0 = m % 10 ^ k := by
  induction k generalizing m with
  | zero => rw [pow_zero, Nat.mod_one]; rfl
  | succ k ih =>
    rw [lastDigits, Nat.ofDigitChars_append, ih,
      Nat.ofDigitChars_cons_digitChar_of_lt_ten (Nat.mod_lt m (by decide)), Nat.ofDigitChars_nil,
      Nat.pow_succ', Nat.mod_mul]
    omega

theorem digits_point {ds : List Char} (hd : ∀ c ∈ ds, c.isDigit = true) (r : List Char) :
    digits (ds ++ '.' :: r) = (ds, '.' :: r) := by
  induction ds with
  | nil => rfl
  | cons c ds ih =>
    simp [digits, hd c List.mem_cons_self, ih fun d hd' => hd d (List.mem_cons_of_mem c hd')]

theorem parseNat_point (n : ℕ) (r : List Char) :
    parseNat (Nat.toDigits 10 n ++ '.' :: r) = some (n, '.' :: r) := by
  have hval : Nat.ofDigitChars 10 (Nat.toDigits 10 n) 0 = n := Nat.ofDigitChars_ten_toDigits
  rw [parseNat, digits_point (isDigit_toDigits n), hval, leadingZero_toDigits]
  simp

theorem sign_fixed (neg : Bool) (n : ℕ) (r : List Char) :
    sign ((if neg then ['-'] else []) ++ (Nat.toDigits 10 n ++ r)) =
      (neg, Nat.toDigits 10 n ++ r) := by
  cases neg with
  | false => exact sign_toDigits n r
  | true => rfl

/-- A number in units of `10 ^ -k` is read as a double. -/
theorem parseNumber_fixed (neg : Bool) (m : ℕ) {k : ℕ} (hk : k ≠ 0) {r : List Char}
    (hr : EndsNumber r) : parseNumber ((if neg then ['-'] else []) ++ fixed m k ++ r) =
      some (.float (if neg then -decimal m (-k) else decimal m (-k)), r) := by
  have hfixed : (if neg then ['-'] else []) ++ fixed m k ++ r = (if neg then ['-'] else []) ++
      (Nat.toDigits 10 (m / 10 ^ k) ++ '.' :: (lastDigits k m ++ r)) := by
    rw [fixed, List.append_assoc, List.append_assoc, List.cons_append]
  have hfraction : fraction ('.' :: (lastDigits k m ++ r)) = some (lastDigits k m, r) := by
    have hne : lastDigits k m ≠ [] := fun h => hk (by rw [← length_lastDigits k m, h]; rfl)
    rw [fraction, digits_append (isDigit_lastDigits k m) hr, if_neg hne]
  have hbare : (r == '.' :: (lastDigits k m ++ r)) = false := by
    refine beq_eq_false_iff_ne.mpr fun h => ?_
    have := congrArg List.length h
    rw [List.length_cons, List.length_append] at this
    omega
  have hvalue : m / 10 ^ k * 10 ^ k + Nat.ofDigitChars 10 (lastDigits k m) 0 = m := by
    rw [ofDigitChars_lastDigits, Nat.div_add_mod']
  rw [hfixed, parseNumber, sign_fixed, parseNat_point]
  simp only [hfraction, exponent_ends hr, hbare, number, Bool.false_eq_true, false_and, if_false,
    length_lastDigits, hvalue, zero_sub]

/-- The text of a double is read as a double. -/
theorem parseNumber_decimalText (x : Float) {r : List Char} (hr : EndsNumber r) :
    parseNumber (decimalText x ++ r) = some (.float (readBack x), r) :=
  parseNumber_fixed (negative x) (scaled x (decimals x)) (Nat.succ_ne_zero _) hr

theorem decimalText_head (x : Float) :
    ∃ c t, decimalText x = c :: t ∧ (c = '-' ∨ c.isDigit = true) := by
  rw [decimalText, fixed]
  cases negative x with
  | true => exact ⟨_, _, rfl, .inl rfl⟩
  | false =>
    obtain ⟨c, t, ht⟩ := List.exists_cons_of_ne_nil
      (Nat.toDigits_ne_nil (n := scaled x (decimals x) / 10 ^ decimals x) (b := 10))
    refine ⟨c, t ++ '.' :: lastDigits (decimals x) (scaled x (decimals x)), ?_, .inr ?_⟩
    · rw [ht]; rfl
    · exact isDigit_toDigits _ c (by rw [ht]; exact List.mem_cons_self)

/-! ### Objects of scalars -/

/-- A text on one line that is read as this value, whatever follows it. -/
structure Reads (text : List Char) (v : Value) : Prop where
  parse : ∀ n r, EndsNumber r → parse (n + 1) (text ++ r) = some (v, r)
  newline_not_mem : '\n' ∉ text

/-- A scalar without a fraction is read back. -/
theorem reads_whole (f64 : Float → List Char) {v : Value} (hv : v.whole = true)
    (hsize : v.size = 1) : Reads (printWith f64 v) v := by
  rw [printWith_whole f64 v 0 hv]
  exact ⟨fun n r hr => parse_print compact v 0 (n + 1) r (by omega) hv hr,
    newline_not_mem_print v 0 hv⟩

/-- A finite double is read as some double. -/
theorem reads_float {x : Float} (hx : x.isFinite = true) :
    Reads (printWith decimalText (.float x)) (.float (readBack x)) := by
  rw [printWith, if_pos hx]
  refine ⟨fun n r hr => ?_, ?_⟩
  · obtain ⟨c, t, ht, hc⟩ := decimalText_head x
    have hnum := parseNumber_decimalText x hr
    rw [ht, List.cons_append] at hnum ⊢
    rw [parse_number n hc, hnum]
  · have hdigits := isDigit_lastDigits (decimals x) (scaled x (decimals x)) '\n'
    have hwhole := newline_not_mem_toDigits (scaled x (decimals x) / 10 ^ decimals x)
    rw [decimalText, fixed]
    simp only [List.mem_append, List.mem_cons, not_or]
    refine ⟨?_, hwhole, by decide, fun h => absurd (hdigits h) (by decide)⟩
    cases negative x <;> decide

/-- A member is read as this one. -/
def MemberReads (f64 : Float → List Char) (member back : String × Value) : Prop :=
  member.1 = back.1 ∧ Reads (printWith f64 member.2) back.2

theorem memberReads_whole (f64 : Float → List Char) (key : String) {v : Value}
    (hv : v.whole = true) (hsize : v.size = 1) : MemberReads f64 (key, v) (key, v) :=
  ⟨rfl, reads_whole f64 hv hsize⟩

theorem memberReads_float (key : String) {x y : Float} (hx : x.isFinite = true)
    (hy : readBack x = y) : MemberReads decimalText (key, .float x) (key, .float y) := by
  obtain rfl := hy
  exact ⟨rfl, reads_float hx⟩

variable {f64 : Float → List Char} {members back : List (String × Value)}

theorem endsNumber_membersWith (f64 : Float → List Char) (members : List (String × Value))
    (r : List Char) : EndsNumber (printMembersWith f64 members ++ r) := by
  cases members with
  | nil => rw [printMembersWith]; exact endsNumber_cons (by decide) _
  | cons m ms => obtain ⟨key, v⟩ := m; rw [printMembersWith]; exact endsNumber_cons (by decide) _

theorem parseMembers_reads (h : List.Forall₂ (MemberReads f64) members back) {key : String}
    {v w : Value} (hv : Reads (printWith f64 v) w) {n : ℕ} (hn : members.length ≤ n)
    (r : List Char) : parseMembers (n + 2)
      (printStr key ++ ':' :: (printWith f64 v ++ (printMembersWith f64 members ++ r))) =
      some ((key, w) :: back, r) := by
  have hkey (key : String) (s : List Char) : parseKey (printStr key ++ ':' :: s) = some (key, s) :=
    @parseKey_print key [] (fun _ hc => absurd hc List.not_mem_nil) s
  induction h generalizing key v w n with
  | nil =>
    rw [parseMembers, hkey]
    dsimp only
    rw [hv.parse n _ (endsNumber_membersWith f64 [] r), printMembersWith]
    rfl
  | @cons member back members backs hmember _ ih =>
    rw [List.length_cons] at hn
    obtain ⟨n, rfl⟩ : ∃ m, n = m + 1 := ⟨n - 1, by omega⟩
    obtain ⟨key', v'⟩ := member
    obtain ⟨key'', w'⟩ := back
    obtain ⟨rfl : key' = key'', hread⟩ := hmember
    have hrest := @ih key' _ _ hread _ (Nat.le_of_succ_le_succ hn)
    rw [parseMembers, hkey]
    dsimp only
    rw [hv.parse _ _ (endsNumber_membersWith f64 _ r), printMembersWith]
    simp only [List.cons_append, List.append_assoc, skipWs_cons (show isWs ',' = false by decide)]
    rw [hrest]
    rfl

theorem length_membersWith (f64 : Float → List Char) (members : List (String × Value)) :
    members.length < (printMembersWith f64 members).length := by
  induction members with
  | nil => simp [printMembersWith]
  | cons member members ih =>
    obtain ⟨key, v⟩ := member
    simp only [printMembersWith, List.length_cons, List.length_append]
    omega

theorem newline_not_mem_membersWith (h : List.Forall₂ (MemberReads f64) members back) :
    '\n' ∉ printMembersWith f64 members := by
  induction h with
  | nil => rw [printMembersWith]; decide
  | @cons member back members backs hmember _ ih =>
    obtain ⟨key, v⟩ := member
    have hkey := newline_not_mem_printStr key
    have hvalue := hmember.2.newline_not_mem
    rw [printMembersWith]
    simp only [List.mem_append, List.mem_cons, not_or]
    exact ⟨⟨⟨by decide, hkey⟩, by decide, hvalue⟩, ih⟩

theorem getLast?_membersWith (f64 : Float → List Char) (members : List (String × Value)) :
    (printMembersWith f64 members).getLast? = some '}' := by
  induction members with
  | nil => rw [printMembersWith]; rfl
  | cons member members ih =>
    obtain ⟨key, v⟩ := member
    rw [printMembersWith, List.getLast?_append, ih]
    rfl

/-- An object whose members are read is printed between braces, on one line. -/
theorem object_line (h : List.Forall₂ (MemberReads f64) members back) (hne : members ≠ []) :
    (printWith f64 (.obj members)).head? = some '{' ∧
      (printWith f64 (.obj members)).getLast? = some '}' ∧
      '\n' ∉ printWith f64 (.obj members) := by
  cases h with
  | nil => exact absurd rfl hne
  | @cons member back members backs hmember hrest =>
    obtain ⟨key, v⟩ := member
    have hkey := newline_not_mem_printStr key
    have hvalue := hmember.2.newline_not_mem
    have hmembers := newline_not_mem_membersWith hrest
    rw [printWith]
    refine ⟨rfl, ?_, ?_⟩
    · rw [List.getLast?_append, getLast?_membersWith]
      rfl
    · simp only [List.mem_append, List.mem_cons, not_or]
      exact ⟨⟨⟨by decide, hkey⟩, by decide, hvalue⟩, hmembers⟩

theorem parse_open {n : ℕ} {s r : List Char} {members : List (String × Value)}
    (hs : ∀ t, skipWs s ≠ '}' :: t) (h : parseMembers n s = some (members, r)) :
    parse (n + 1) ('{' :: s) = some (.obj members, r) := by
  rw [parse, skipWs_cons (by decide)]
  simp only
  rw [h]
  rfl

/-- An object whose members are read is read. -/
theorem read_object (h : List.Forall₂ (MemberReads f64) members back) (hne : members ≠ []) :
    read (printWith f64 (.obj members)) = some (.obj back) := by
  cases h with
  | nil => exact absurd rfl hne
  | @cons member back members backs hmember hrest =>
    obtain ⟨key, v⟩ := member
    obtain ⟨key', w⟩ := back
    obtain ⟨rfl : key = key', hread⟩ := hmember
    have htext : printWith f64 (.obj ((key, v) :: members)) = '{' :: (printStr key ++
        ':' :: (printWith f64 v ++ (printMembersWith f64 members ++ []))) := by
      simp only [printWith, List.cons_append, List.append_assoc, List.append_nil]
    have hlength := length_membersWith f64 members
    rw [htext, read]
    generalize hn : ('{' :: (printStr key ++ ':' :: (printWith f64 v ++
      (printMembersWith f64 members ++ [])))).length = n
    simp only [List.length_cons, List.length_append] at hn
    obtain ⟨n, rfl⟩ : ∃ m, n = m + 2 := ⟨n - 2, by omega⟩
    have hparse := @parseMembers_reads _ _ _ hrest key _ _ hread n (by omega) []
    rw [parse_open (fun t => ?_) hparse]
    · rfl
    · rw [printStr, List.cons_append, skipWs_cons (by decide)]
      simp

end Json
