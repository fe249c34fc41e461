import CerynthOS.Schemes.Json

/-! The reader inverts the printer in every layout.

    Reading is by fuel, so every statement about it says how much is enough; `size` bounds what a
    printed value needs. -/

namespace Json

/-! ### Whitespace -/

theorem skipWs_ws {ws : List Char} (h : ∀ c ∈ ws, isWs c = true) (s : List Char) :
    skipWs (ws ++ s) = skipWs s := by
  induction ws with
  | nil => rfl
  | cons c ws ih =>
    rw [List.cons_append, skipWs, List.dropWhile_cons_of_pos (h c List.mem_cons_self)]
    exact ih fun d hd => h d (List.mem_cons_of_mem c hd)

theorem skipWs_cons {c : Char} (h : isWs c = false) (s : List Char) : skipWs (c :: s) = c :: s := by
  rw [skipWs, List.dropWhile_cons_of_neg (by simp [h])]

/-! ### Strings -/

theorem hexVal_hexDigit : ∀ n < 16, hexVal (hexDigit n) = some n := by decide

/-- One escaped character is read back as itself. -/
theorem parseChars_escape (n : ℕ) (c : Char) (r : List Char) :
    parseChars (n + 1) (escape c ++ r) = (parseChars n r).map fun (cs, r) => (c :: cs, r) := by
  unfold escape
  split_ifs with h₁ h₂ h₃ h₄ h₅ h₆ h₇ h₈
  · subst h₁; simp [parseChars, escaped]
  · subst h₂; simp [parseChars, escaped]
  · subst h₃; simp [parseChars, escaped]
  · subst h₄; simp [parseChars, escaped]
  · subst h₅; simp [parseChars, escaped]
  · subst h₆; simp [parseChars, escaped]
  · subst h₇; simp [parseChars, escaped]
  · -- a control character is its two hexadecimal digits
    have hi := hexVal_hexDigit (c.toNat / 16) (by omega)
    have lo := hexVal_hexDigit (c.toNat % 16) (by omega)
    have h0 : hexVal '0' = some 0 := by decide
    have hn : (0 * 16 + 0) * 16 + c.toNat / 16 = c.toNat / 16 := by omega
    have hc : c.toNat / 16 * 16 + c.toNat % 16 = c.toNat := by omega
    have hlt : c.toNat < 0xD800 := by omega
    simp only [List.cons_append, List.nil_append, parseChars, escaped, unicode, hex4, h0, hi, lo]
    simp only [hn, hc, hlt, true_or, if_true, Char.ofNat_toNat]
    simp
  · simp [parseChars, h₁, h₂, h₈]

theorem parseChars_print (cs : List Char) {n : ℕ} (hn : cs.length < n) (r : List Char) :
    parseChars n (printChars cs ++ r) = some (cs, r) := by
  induction cs generalizing n with
  | nil =>
    obtain ⟨n, rfl⟩ := Nat.exists_eq_add_of_le' hn
    simp [printChars, parseChars]
  | cons c cs ih =>
    obtain ⟨n, rfl⟩ := Nat.exists_eq_add_of_le' (Nat.lt_of_le_of_lt (Nat.zero_le _) hn)
    have hcs : parseChars n (printChars cs ++ r) = some (cs, r) :=
      ih (Nat.lt_of_succ_lt_succ hn)
    have happ : printChars (c :: cs) ++ r = escape c ++ (printChars cs ++ r) := by
      simp [printChars]
    rw [happ, parseChars_escape, hcs]; rfl

theorem length_escape_pos (c : Char) : 0 < (escape c).length := by
  unfold escape
  split_ifs <;> simp

theorem length_printChars (cs : List Char) : cs.length < (printChars cs).length := by
  induction cs with
  | nil => simp [printChars]
  | cons c cs ih =>
    have := length_escape_pos c
    simp only [printChars, List.flatMap_cons, List.length_append, List.length_cons] at ih ⊢
    omega

/-- The fuel that the reader gives a string is enough for it. -/
theorem parseChars_printed (cs r : List Char) :
    parseChars ((printChars cs ++ r).length + 1) (printChars cs ++ r) = some (cs, r) := by
  refine parseChars_print cs ?_ r
  have := length_printChars cs
  rw [List.length_append]
  omega

/-! ### Numbers -/

/-- What may follow a number in a text. -/
def EndsNumber (r : List Char) : Prop :=
  ∀ c t, r = c :: t → c.isDigit = false ∧ c ≠ '.' ∧ c ≠ 'e' ∧ c ≠ 'E'

theorem endsNumber_nil : EndsNumber [] := by
  intro c t h
  cases h

theorem endsNumber_cons {c : Char} (h : c.isDigit = false ∧ c ≠ '.' ∧ c ≠ 'e' ∧ c ≠ 'E')
    (t : List Char) : EndsNumber (c :: t) := by
  intro d u he
  cases he
  exact h

theorem endsNumber_ws {ws r : List Char} (h : ∀ c ∈ ws, isWs c = true) (hr : EndsNumber r) :
    EndsNumber (ws ++ r) := by
  cases ws with
  | nil => exact hr
  | cons c ws =>
    refine endsNumber_cons ?_ _
    have hc := h c List.mem_cons_self
    simp only [isWs, Bool.or_eq_true, beq_iff_eq] at hc
    rcases hc with ((rfl | rfl) | rfl) | rfl <;> decide

theorem digits_append {ds r : List Char} (hd : ∀ c ∈ ds, c.isDigit = true) (hr : EndsNumber r) :
    digits (ds ++ r) = (ds, r) := by
  induction ds with
  | nil =>
    cases r with
    | nil => rfl
    | cons c t => simp [digits, (hr c t rfl).1]
  | cons c ds ih =>
    simp [digits, hd c List.mem_cons_self, ih fun d hd' => hd d (List.mem_cons_of_mem c hd')]

theorem isDigit_toDigits (n : ℕ) : ∀ c ∈ Nat.toDigits 10 n, c.isDigit = true :=
  fun _ => Nat.isDigit_of_mem_toDigits (by decide) (by decide)

/-- Only zero is printed with a leading zero. -/
theorem toDigits_head (n : ℕ) :
    n = 0 ∨ ∃ c t, Nat.toDigits 10 n = c :: t ∧ c ≠ '0' := by
  induction n using Nat.strongRecOn with
  | _ n ih =>
    by_cases hlt : n < 10
    · rw [Nat.toDigits_of_lt_base hlt]
      rcases Nat.eq_zero_or_pos n with h | h
      · exact Or.inl h
      · have hne : ∀ m < 10, 0 < m → m.digitChar ≠ '0' := by decide
        exact Or.inr ⟨n.digitChar, [], rfl, hne n hlt h⟩
    · rw [Nat.toDigits_of_base_le (by decide) (by omega)]
      rcases ih (n / 10) (by omega) with h | ⟨c, t, ht, hc⟩
      · omega
      · exact Or.inr ⟨c, t ++ [(n % 10).digitChar], by rw [ht]; rfl, hc⟩

theorem leadingZero_toDigits (n : ℕ) : leadingZero (Nat.toDigits 10 n) = false := by
  rcases toDigits_head n with rfl | ⟨c, t, ht, hc⟩
  · rfl
  · rw [ht]
    unfold leadingZero
    split
    · next h => simp only [List.cons.injEq] at h; exact absurd h.1 hc
    · rfl

theorem parseNat_toDigits (n : ℕ) {r : List Char} (hr : EndsNumber r) :
    parseNat (Nat.toDigits 10 n ++ r) = some (n, r) := by
  have hval : Nat.ofDigitChars 10 (Nat.toDigits 10 n) 0 = n := Nat.ofDigitChars_ten_toDigits
  rw [parseNat, digits_append (isDigit_toDigits n) hr, hval, leadingZero_toDigits]
  simp

theorem fraction_ends {r : List Char} (hr : EndsNumber r) : fraction r = some ([], r) := by
  unfold fraction
  split
  · next t => exact absurd rfl (hr '.' t rfl).2.1
  · rfl

theorem exponent_ends {r : List Char} (hr : EndsNumber r) : exponent r = some (0, r) := by
  cases r with
  | nil => rfl
  | cons e t =>
    have := hr e t rfl
    rw [exponent, if_neg fun h => h.elim this.2.2.1 this.2.2.2]

theorem sign_toDigits (n : ℕ) (r : List Char) :
    sign (Nat.toDigits 10 n ++ r) = (false, Nat.toDigits 10 n ++ r) := by
  unfold sign
  split
  · next t h =>
    obtain ⟨c, ds, hds⟩ := List.exists_cons_of_ne_nil (Nat.toDigits_ne_nil (n := n) (b := 10))
    have hc := isDigit_toDigits n c (by rw [hds]; exact List.mem_cons_self)
    rw [hds] at h
    simp only [List.cons_append, List.cons.injEq] at h
    rw [h.1] at hc
    exact absurd hc (by decide)
  · rfl

theorem number_posInt (n : UInt64) (ds : List Char) (e : Int) :
    number false n.toNat ds e true = .posInt n := by
  rw [number, if_pos ⟨rfl, Bool.false_ne_true, n.toNat_lt⟩, UInt64.ofNat_toNat]

theorem number_negInt {n : ℕ} (hpos : 0 < n) (hle : n ≤ 2 ^ 63) (ds : List Char) (e : Int) :
    number true n ds e true = .negInt n := by
  rw [number, if_neg fun h => h.2.1 rfl, if_pos ⟨rfl, rfl, hpos, hle⟩]

theorem parseNumber_posInt (n : UInt64) {r : List Char} (hr : EndsNumber r) :
    parseNumber (Nat.toDigits 10 n.toNat ++ r) = some (.posInt n, r) := by
  simp only [parseNumber, sign_toDigits, parseNat_toDigits n.toNat hr, fraction_ends hr,
    exponent_ends hr, beq_self_eq_true, number_posInt]

theorem parseNumber_negInt {n : ℕ} (hpos : 0 < n) (hle : n ≤ 2 ^ 63) {r : List Char}
    (hr : EndsNumber r) :
    parseNumber ('-' :: Nat.toDigits 10 n ++ r) = some (.negInt n, r) := by
  simp only [parseNumber, List.cons_append, sign, parseNat_toDigits n hr, fraction_ends hr,
    exponent_ends hr, beq_self_eq_true, number_negInt hpos hle]

/-! ### Values -/

mutual
/-- The fuel that reading a printed value takes. -/
def Value.size : Value → ℕ
  | .arr items => itemsSize items + 1
  | .obj members => membersSize members + 1
  | _ => 1

def Value.itemsSize : List Value → ℕ
  | [] => 0
  | v :: vs => max v.size (itemsSize vs) + 1

def Value.membersSize : List (String × Value) → ℕ
  | [] => 0
  | (_, v) :: members => max v.size (membersSize members) + 1
end

/-- The first character of a printed value. -/
theorem print_head (layout : Layout) (i : ℕ) (v : Value) (hv : v.whole = true) :
    ∃ c t, print layout i v = c :: t ∧ isWs c = false ∧ c ≠ ']' ∧ c ≠ '}' := by
  have hdigit : ∀ n, ∃ c t, Nat.toDigits 10 n = c :: t ∧ isWs c = false ∧ c ≠ ']' ∧ c ≠ '}' := by
    intro n
    obtain ⟨c, t, ht⟩ := List.exists_cons_of_ne_nil (Nat.toDigits_ne_nil (n := n) (b := 10))
    have hc := isDigit_toDigits n c (by rw [ht]; exact List.mem_cons_self)
    refine ⟨c, t, ht, ?_, ?_, ?_⟩
    · cases hws : isWs c with
      | false => rfl
      | true =>
        simp only [isWs, Bool.or_eq_true, beq_iff_eq] at hws
        rcases hws with ((rfl | rfl) | rfl) | rfl <;> exact absurd hc (by decide)
    · rintro rfl; exact absurd hc (by decide)
    · rintro rfl; exact absurd hc (by decide)
  cases v with
  | posInt n => rw [print]; exact hdigit n.toNat
  | float x => exact absurd hv (by simp [Value.whole])
  | bool b => cases b <;> exact ⟨_, _, by rw [print], by decide, by decide, by decide⟩
  | arr items =>
    cases items with
    | nil => exact ⟨_, _, by rw [print], by decide, by decide, by decide⟩
    | cons w ws => exact ⟨_, _, by rw [print]; rfl, by decide, by decide, by decide⟩
  | obj members =>
    cases members with
    | nil => exact ⟨_, _, by rw [print], by decide, by decide, by decide⟩
    | cons m ms => exact ⟨_, _, by rw [print]; rfl, by decide, by decide, by decide⟩
  | _ => exact ⟨_, _, by rw [print]; try rfl, by decide, by decide, by decide⟩

theorem skipWs_print (layout : Layout) (i : ℕ) {v : Value} (hv : v.whole = true) (r : List Char) :
    skipWs (print layout i v ++ r) = print layout i v ++ r := by
  obtain ⟨c, t, ht, hc, -⟩ := print_head layout i v hv
  rw [ht, List.cons_append, skipWs_cons hc]

theorem skipWs_newline_print (layout : Layout) (i j : ℕ) {v : Value} (hv : v.whole = true)
    (r : List Char) :
    skipWs (layout.newline j ++ (print layout i v ++ r)) = print layout i v ++ r := by
  rw [skipWs_ws (layout.newline_ws j), skipWs_print layout i hv]

/-- Reading skips whitespace first. -/
theorem parse_ws {ws : List Char} (h : ∀ c ∈ ws, isWs c = true) (n : ℕ) (s : List Char) :
    parse n (ws ++ s) = parse n s := by
  cases n with
  | zero => simp [parse]
  | succ n => simp only [parse, skipWs_ws h]

/-- A text that starts like a number is read as one. -/
theorem parse_number (n : ℕ) {c : Char} (hc : c = '-' ∨ c.isDigit = true) (s : List Char) :
    parse (n + 1) (c :: s) = parseNumber (c :: s) := by
  have hws : isWs c = false := by
    cases hws : isWs c with
    | false => rfl
    | true =>
      simp only [isWs, Bool.or_eq_true, beq_iff_eq] at hws
      rcases hws with ((rfl | rfl) | rfl) | rfl <;> rcases hc with hc | hc <;>
        exact absurd hc (by decide)
  rw [parse, skipWs_cons hws]
  split
  all_goals first | rfl | (next h => simp at h; rcases hc with hc | hc <;> simp_all)

theorem parseKey_print (key : String) {ws : List Char}
    (hws : ∀ c ∈ ws, isWs c = true) (r : List Char) :
    parseKey (ws ++ (printStr key ++ ':' :: r)) = some (key, r) := by
  have hquote : skipWs (printStr key ++ ':' :: r) = printStr key ++ ':' :: r :=
    skipWs_cons (by decide) _
  rw [parseKey, skipWs_ws hws, hquote]
  simp only [printStr, List.cons_append]
  rw [parseChars_printed]
  simp [skipWs_cons (show isWs ':' = false by decide)]

theorem endsNumber_items (layout : Layout) (i : ℕ) (vs : List Value) (r : List Char) :
    EndsNumber (printItems layout i vs ++ r) := by
  cases vs with
  | nil =>
    rw [printItems, List.append_assoc]
    exact endsNumber_ws (layout.newline_ws i) (endsNumber_cons (by decide) _)
  | cons v vs => rw [printItems]; exact endsNumber_cons (by decide) _

theorem endsNumber_members (layout : Layout) (i : ℕ) (members : List (String × Value))
    (r : List Char) : EndsNumber (printMembers layout i members ++ r) := by
  cases members with
  | nil =>
    rw [printMembers, List.append_assoc]
    exact endsNumber_ws (layout.newline_ws i) (endsNumber_cons (by decide) _)
  | cons m ms => obtain ⟨key, v⟩ := m; rw [printMembers]; exact endsNumber_cons (by decide) _

mutual
/-- A printed value is read back, whatever follows it. -/
theorem parse_print (layout : Layout) : ∀ (v : Value) (i n : ℕ) (r : List Char), v.size ≤ n →
    v.whole = true → EndsNumber r → parse n (print layout i v ++ r) = some (v, r)
  | .null, i, n + 1, r, _, _, _ => by simp [print, parse, skipWs_cons, isWs]
  | .bool true, i, n + 1, r, _, _, _ => by simp [print, parse, skipWs_cons, isWs]
  | .bool false, i, n + 1, r, _, _, _ => by simp [print, parse, skipWs_cons, isWs]
  | .posInt m, i, n + 1, r, _, _, hr => by
    obtain ⟨c, t, ht⟩ := List.exists_cons_of_ne_nil (Nat.toDigits_ne_nil (n := m.toNat) (b := 10))
    have hc := isDigit_toDigits m.toNat c (by rw [ht]; exact List.mem_cons_self)
    have hnum := parseNumber_posInt m hr
    rw [print, ht, List.cons_append, parse_number n (Or.inr hc), ← List.cons_append, ← ht, hnum]
  | .negInt m, i, n + 1, r, _, hv, hr => by
    simp only [Value.whole, Bool.and_eq_true, decide_eq_true_eq] at hv
    rw [print, List.cons_append, parse_number n (Or.inl rfl), ← List.cons_append,
      parseNumber_negInt hv.1 hv.2 hr]
  | .str s, i, n + 1, r, _, _, _ => by
    rw [print, printStr, List.cons_append, parse, skipWs_cons (by decide)]
    simp only [parseChars_printed, Option.map_some, String.ofList_toList]
  | .arr [], i, n + 1, r, _, _, _ => by simp [print, parse, skipWs_cons, isWs]
  | .arr (v :: vs), i, n + 1, r, hn, hv, _ => by
    have hitems := parseItems_print layout v vs i n r (Nat.le_of_succ_le_succ hn) hv
    have hfirst : v.whole = true := (Bool.and_eq_true_iff.mp hv).1
    obtain ⟨c, t, ht, hc, hne, -⟩ := print_head layout (i + 1) v hfirst
    rw [print]
    simp only [List.cons_append, List.append_assoc]
    rw [parse, skipWs_cons (by decide)]
    simp only
    split
    · next h =>
      rw [skipWs_newline_print layout _ _ hfirst, ht] at h
      simp only [List.cons_append, List.cons.injEq] at h
      exact absurd h.1 hne
    · rw [hitems]; rfl
  | .obj [], i, n + 1, r, _, _, _ => by simp [print, parse, skipWs_cons, isWs]
  | .obj ((key, v) :: members), i, n + 1, r, hn, hv, _ => by
    have hmembers := parseMembers_print layout key v members i n r (Nat.le_of_succ_le_succ hn) hv
    rw [print]
    simp only [List.cons_append, List.append_assoc]
    rw [parse, skipWs_cons (by decide)]
    simp only
    split
    · next h =>
      rw [skipWs_ws (layout.newline_ws _), printStr, List.cons_append, skipWs_cons (by decide)] at h
      simp at h
    · rw [hmembers]; rfl

theorem parseItems_print (layout : Layout) : ∀ (v : Value) (vs : List Value) (i n : ℕ)
    (r : List Char), Value.itemsSize (v :: vs) ≤ n → Value.itemsWhole (v :: vs) = true →
    parseItems n (layout.newline (i + 1) ++ (print layout (i + 1) v ++
      (printItems layout i vs ++ r))) = some (v :: vs, r)
  | v, [], i, n + 1, r, hn, hv => by
    have hfirst : v.whole = true := (Bool.and_eq_true_iff.mp hv).1
    have hsize : v.size ≤ n := by simp only [Value.itemsSize] at hn; omega
    have hv := parse_print layout v (i + 1) n _ hsize hfirst (endsNumber_items layout i [] r)
    rw [parseItems, parse_ws (layout.newline_ws _), hv]
    simp only [printItems, List.append_assoc, skipWs_ws (layout.newline_ws i)]
    rfl
  | v, w :: ws, i, n + 1, r, hn, hv => by
    obtain ⟨hfirst, hrest⟩ := Bool.and_eq_true_iff.mp hv
    have hsize : v.size ≤ n := by simp only [Value.itemsSize] at hn; omega
    have hsize' : Value.itemsSize (w :: ws) ≤ n := by simp only [Value.itemsSize] at hn ⊢; omega
    have hv := parse_print layout v (i + 1) n _ hsize hfirst (endsNumber_items layout i (w :: ws) r)
    rw [parseItems, parse_ws (layout.newline_ws _), hv]
    simp only [printItems, List.cons_append, List.append_assoc,
      skipWs_cons (show isWs ',' = false by decide)]
    rw [parseItems_print layout w ws i n r hsize' hrest]
    rfl

theorem parseMembers_print (layout : Layout) : ∀ (key : String) (v : Value)
    (members : List (String × Value)) (i n : ℕ) (r : List Char),
    Value.membersSize ((key, v) :: members) ≤ n →
    Value.membersWhole ((key, v) :: members) = true →
    parseMembers n (layout.newline (i + 1) ++ (printStr key ++ ':' :: (layout.space ++
      (print layout (i + 1) v ++ (printMembers layout i members ++ r))))) =
      some ((key, v) :: members, r)
  | key, v, [], i, n + 1, r, hn, hv => by
    have hfirst : v.whole = true := (Bool.and_eq_true_iff.mp hv).1
    have hsize : v.size ≤ n := by simp only [Value.membersSize] at hn; omega
    have hv := parse_print layout v (i + 1) n _ hsize hfirst (endsNumber_members layout i [] r)
    rw [parseMembers, parseKey_print key (layout.newline_ws _)]
    simp only [parse_ws layout.space_ws, hv]
    simp only [printMembers, List.append_assoc, skipWs_ws (layout.newline_ws i)]
    rfl
  | key, v, (key', w) :: ms, i, n + 1, r, hn, hv => by
    obtain ⟨hfirst, hrest⟩ := Bool.and_eq_true_iff.mp hv
    have hsize : v.size ≤ n := by simp only [Value.membersSize] at hn; omega
    have hsize' : Value.membersSize ((key', w) :: ms) ≤ n := by
      simp only [Value.membersSize] at hn ⊢
      omega
    have hv := parse_print layout v (i + 1) n _ hsize hfirst
      (endsNumber_members layout i ((key', w) :: ms) r)
    rw [parseMembers, parseKey_print key (layout.newline_ws _)]
    simp only [parse_ws layout.space_ws, hv]
    simp only [printMembers, List.cons_append, List.append_assoc,
      skipWs_cons (show isWs ',' = false by decide)]
    rw [parseMembers_print layout key' w ms i n r hsize' hrest]
    rfl
end

/-! ### Enough fuel -/

theorem length_printStr (s : String) : 2 ≤ (printStr s).length := by
  simp [printStr, printChars]

mutual
/-- A text is at least as long as the fuel that reading it takes. -/
theorem size_le_length (layout : Layout) : ∀ (v : Value) (i : ℕ), v.whole = true →
    v.size ≤ (print layout i v).length
  | .null, i, _ => by simp [Value.size, print]
  | .bool true, i, _ => by simp [Value.size, print]
  | .bool false, i, _ => by simp [Value.size, print]
  | .posInt n, i, _ => by simp only [Value.size, print]; exact Nat.length_toDigits_pos
  | .negInt n, i, _ => by simp [Value.size, print]
  | .str s, i, _ => by simp [Value.size, print, printStr]
  | .arr [], i, _ => by simp [Value.size, Value.itemsSize, print]
  | .arr (v :: vs), i, hv => by
    obtain ⟨hfirst, hrest⟩ := Bool.and_eq_true_iff.mp hv
    have h₁ := size_le_length layout v (i + 1) hfirst
    have h₂ := itemsSize_lt_length layout vs i hrest
    have h₃ : 1 ≤ v.size := by cases v <;> simp [Value.size]
    simp only [Value.size, Value.itemsSize, print, List.length_append, List.length_cons]
    omega
  | .obj [], i, _ => by simp [Value.size, Value.membersSize, print]
  | .obj ((key, v) :: members), i, hv => by
    obtain ⟨hfirst, hrest⟩ := Bool.and_eq_true_iff.mp hv
    have h₁ := size_le_length layout v (i + 1) hfirst
    have h₂ := membersSize_lt_length layout members i hrest
    have h₃ := length_printStr key
    simp only [Value.size, Value.membersSize, print, List.length_append, List.length_cons]
    omega

theorem itemsSize_lt_length (layout : Layout) : ∀ (vs : List Value) (i : ℕ),
    Value.itemsWhole vs = true → Value.itemsSize vs < (printItems layout i vs).length
  | [], i, _ => by simp [Value.itemsSize, printItems]
  | v :: vs, i, hv => by
    obtain ⟨hfirst, hrest⟩ := Bool.and_eq_true_iff.mp hv
    have h₁ := size_le_length layout v (i + 1) hfirst
    have h₂ := itemsSize_lt_length layout vs i hrest
    have h₃ : 1 ≤ v.size := by cases v <;> simp [Value.size]
    simp only [Value.itemsSize, printItems, List.length_append, List.length_cons]
    omega

theorem membersSize_lt_length (layout : Layout) : ∀ (members : List (String × Value)) (i : ℕ),
    Value.membersWhole members = true →
    Value.membersSize members < (printMembers layout i members).length
  | [], i, _ => by simp [Value.membersSize, printMembers]
  | (key, v) :: members, i, hv => by
    obtain ⟨hfirst, hrest⟩ := Bool.and_eq_true_iff.mp hv
    have h₁ := size_le_length layout v (i + 1) hfirst
    have h₂ := membersSize_lt_length layout members i hrest
    simp only [Value.membersSize, printMembers, List.length_append, List.length_cons]
    omega
end

/-- A printed value with whitespace after it is read back. -/
theorem read_print (layout : Layout) {v : Value} (hv : v.whole = true) {ws : List Char}
    (hws : ∀ c ∈ ws, isWs c = true) : read (print layout 0 v ++ ws) = some v := by
  have hsize := size_le_length layout v 0 hv
  have hend : EndsNumber ws := by
    have := endsNumber_ws hws endsNumber_nil
    rwa [List.append_nil] at this
  have hskip : skipWs ws = [] := by
    have := skipWs_ws hws []
    rwa [List.append_nil] at this
  rw [read, parse_print layout v 0 _ ws (by rw [List.length_append]; omega) hv hend]
  simp only [hskip, if_true]

end Json
