import CerynthOS.Schemes.JsonText

/-! Incomplete texts, and texts in bytes.

    What has been read stays read when the text goes on, unless it was a number at the very end. So
    an object that is printed has no proper prefix that can be read, also not when it is cut in the
    middle of a character. -/

namespace Json

/-! ### Reading a longer text -/

variable (q : List Char)

theorem skipWs_append {s : List Char} (h : skipWs s ≠ []) : skipWs (s ++ q) = skipWs s ++ q := by
  have hne : (s.dropWhile isWs).isEmpty = false := by simpa [skipWs] using h
  rw [skipWs, List.dropWhile_append, hne]
  rfl

theorem skipWs_skipWs (s : List Char) : skipWs (skipWs s) = skipWs s := by
  induction s with
  | nil => rfl
  | cons c s ih =>
    cases hc : isWs c with
    | true => simpa [skipWs, hc] using ih
    | false => rw [skipWs_cons hc, skipWs_cons hc]

theorem hex4_append {s r : List Char} {n : ℕ} (h : hex4 s = some (n, r)) :
    hex4 (s ++ q) = some (n, r ++ q) := by
  unfold hex4 at h
  split at h
  · split at h
    · simp only [Option.some.injEq, Prod.mk.injEq] at h
      obtain ⟨rfl, rfl⟩ := h
      simp [hex4, *]
    · cases h
  · cases h

theorem unicode_append {s r : List Char} {c : Char} (h : unicode s = some (c, r)) :
    unicode (s ++ q) = some (c, r ++ q) := by
  unfold unicode at h ⊢
  cases hx : hex4 s with
  | none => rw [hx] at h; cases h
  | some p =>
    obtain ⟨n, t⟩ := p
    rw [hx] at h
    rw [hex4_append q hx]
    simp only at h ⊢
    split_ifs at h ⊢ with h₁ h₂
    · simp only [Option.some.injEq, Prod.mk.injEq] at h ⊢
      exact ⟨h.1, by rw [h.2]⟩
    · -- a high surrogate must have its low one
      split at h
      · next t' =>
        cases hy : hex4 t' with
        | none => rw [hy] at h; cases h
        | some p =>
          obtain ⟨m, u⟩ := p
          rw [hy] at h
          simp only [List.cons_append, hex4_append q hy]
          simp only at h
          split_ifs at h ⊢ with h₃
          simp only [Option.some.injEq, Prod.mk.injEq] at h ⊢
          exact ⟨h.1, by rw [h.2]⟩
      · cases h

theorem escaped_append {s r : List Char} {c : Char} (h : escaped s = some (c, r)) :
    escaped (s ++ q) = some (c, r ++ q) := by
  unfold escaped at h
  split at h
  case h_9 => exact unicode_append q h
  case h_10 => cases h
  all_goals
    simp only [Option.some.injEq, Prod.mk.injEq] at h
    obtain ⟨rfl, rfl⟩ := h
    rfl

theorem parseChars_append {n m : ℕ} (hnm : n ≤ m) {s r cs : List Char}
    (h : parseChars n s = some (cs, r)) : parseChars m (s ++ q) = some (cs, r ++ q) := by
  induction n generalizing m s cs with
  | zero => simp [parseChars] at h
  | succ n ih =>
    obtain ⟨m, rfl⟩ := Nat.exists_eq_add_of_le' (Nat.lt_of_lt_of_le (Nat.succ_pos n) hnm)
    have hle : n ≤ m := Nat.le_of_succ_le_succ hnm
    cases s with
    | nil => simp [parseChars] at h
    | cons c s =>
      rw [parseChars] at h
      rw [List.cons_append, parseChars]
      split_ifs at h ⊢ with h₁ h₂ h₃
      · simp only [Option.some.injEq, Prod.mk.injEq] at h ⊢
        exact ⟨h.1, by rw [h.2]⟩
      · cases he : escaped s with
        | none => rw [he] at h; cases h
        | some p =>
          obtain ⟨d, t⟩ := p
          rw [he] at h
          rw [escaped_append q he]
          obtain ⟨⟨ds, u⟩, hds, heq⟩ := Option.map_eq_some_iff.mp h
          simp only [Prod.mk.injEq] at heq
          obtain ⟨rfl, rfl⟩ := heq
          simp [ih hle hds]
      · obtain ⟨⟨ds, u⟩, hds, heq⟩ := Option.map_eq_some_iff.mp h
        simp only [Prod.mk.injEq] at heq
        obtain ⟨rfl, rfl⟩ := heq
        simp [ih hle hds]

theorem digits_append_of_ne {s : List Char} (h : (digits s).2 ≠ []) :
    digits (s ++ q) = ((digits s).1, (digits s).2 ++ q) := by
  induction s with
  | nil => exact absurd rfl h
  | cons c s ih =>
    rw [List.cons_append]
    by_cases hc : c.isDigit = true
    · simp only [digits, if_pos hc] at h ⊢
      rw [ih h]
    · simp only [digits, if_neg hc]
      rfl

theorem parseNat_append {s r : List Char} {n : ℕ} (h : parseNat s = some (n, r)) (hr : r ≠ []) :
    parseNat (s ++ q) = some (n, r ++ q) := by
  unfold parseNat at h ⊢
  split at h
  · cases h
  · next hd =>
    simp only [Option.some.injEq, Prod.mk.injEq] at h
    obtain ⟨rfl, rfl⟩ := h
    rw [digits_append_of_ne q hr, if_neg hd]

theorem fraction_append {s r ds : List Char} (h : fraction s = some (ds, r)) (hr : r ≠ []) :
    fraction (s ++ q) = some (ds, r ++ q) := by
  unfold fraction at h
  split at h
  · next t =>
    split at h
    · cases h
    · next hd =>
      simp only [Option.some.injEq] at h
      have hr' : (digits t).2 ≠ [] := by rw [h]; exact hr
      rw [List.cons_append, fraction, digits_append_of_ne q hr', if_neg hd, h]
  · next hne =>
    simp only [Option.some.injEq, Prod.mk.injEq] at h
    obtain ⟨rfl, rfl⟩ := h
    unfold fraction
    split
    · next t heq =>
      cases s with
      | nil => exact absurd rfl hr
      | cons c s =>
        simp only [List.cons_append, List.cons.injEq] at heq
        exact absurd (by rw [heq.1]) (hne s)
    · rfl

theorem exponentSign_append {s : List Char} (h : (exponentSign s).2 ≠ []) :
    exponentSign (s ++ q) = ((exponentSign s).1, (exponentSign s).2 ++ q) := by
  cases s with
  | nil => exact absurd rfl h
  | cons c s =>
    unfold exponentSign
    simp only [List.cons_append]
    split <;> simp_all

theorem exponent_append {s r : List Char} {e : Int} (h : exponent s = some (e, r)) (hr : r ≠ []) :
    exponent (s ++ q) = some (e, r ++ q) := by
  cases s with
  | nil =>
    simp only [exponent, Option.some.injEq, Prod.mk.injEq] at h
    exact absurd h.2.symm hr
  | cons c s =>
    rw [exponent] at h
    rw [List.cons_append, exponent]
    by_cases hc : c = 'e' ∨ c = 'E'
    · rw [if_pos hc] at h ⊢
      simp only at h ⊢
      split at h
      · cases h
      · next hd =>
        simp only [Option.some.injEq, Prod.mk.injEq] at h
        obtain ⟨rfl, rfl⟩ := h
        have hs : (exponentSign s).2 ≠ [] := fun h0 => hd (by rw [h0]; rfl)
        rw [exponentSign_append q hs]
        simp only [digits_append_of_ne q hr, if_neg hd]
    · rw [if_neg hc] at h ⊢
      simp only [Option.some.injEq, Prod.mk.injEq] at h
      obtain ⟨rfl, rfl⟩ := h
      rfl

theorem sign_append {s : List Char} (h : s ≠ []) :
    sign (s ++ q) = ((sign s).1, (sign s).2 ++ q) := by
  cases s with
  | nil => exact absurd rfl h
  | cons c s =>
    unfold sign
    simp only [List.cons_append]
    split <;> simp_all

/-- Values whose text says itself where it ends: all but the numbers. -/
def Value.closed : Value → Bool
  | .posInt _ => false
  | .negInt _ => false
  | .float _ => false
  | _ => true

/-- The parts of a number that was read. -/
theorem parseNumber_some {s r : List Char} {v : Value} (h : parseNumber s = some (v, r)) :
    ∃ n r₁ ds r₂ e, parseNat (sign s).2 = some (n, r₁) ∧ fraction r₁ = some (ds, r₂) ∧
      exponent r₂ = some (e, r) ∧ v = number (sign s).1 n ds e (r == r₁) := by
  unfold parseNumber at h
  cases hn : parseNat (sign s).2 with
  | none => simp [hn] at h
  | some p =>
    cases hf : fraction p.2 with
    | none => simp [hn, hf] at h
    | some p' =>
      cases he : exponent p'.2 with
      | none => simp [hn, hf, he] at h
      | some p'' =>
        simp only [hn, hf, he, Option.some.injEq, Prod.mk.injEq] at h
        obtain ⟨rfl, rfl⟩ := h
        exact ⟨_, _, _, _, _, rfl, hf, he, rfl⟩

theorem parseNumber_append {s r : List Char} {v : Value} (h : parseNumber s = some (v, r))
    (hr : r ≠ []) : parseNumber (s ++ q) = some (v, r ++ q) := by
  obtain ⟨n, r₁, ds, r₂, e, hn, hf, he, rfl⟩ := parseNumber_some h
  -- nothing is left of a part before one that leaves something
  have h₂ : r₂ ≠ [] := by
    rintro rfl
    simp only [exponent, Option.some.injEq, Prod.mk.injEq] at he
    exact hr he.2.symm
  have h₁ : r₁ ≠ [] := by
    rintro rfl
    simp only [fraction, Option.some.injEq, Prod.mk.injEq] at hf
    exact h₂ hf.2.symm
  have h₀ : s ≠ [] := by
    rintro rfl
    simp [sign, parseNat, digits] at hn
  have hbare : (r ++ q == r₁ ++ q) = (r == r₁) := by
    rw [Bool.eq_iff_iff]
    simp
  simp only [parseNumber, sign_append q h₀, parseNat_append q hn h₁, fraction_append q hf h₂,
    exponent_append q he hr, hbare]

theorem parseNumber_head {s r : List Char} {v : Value} (h : parseNumber s = some (v, r)) :
    ∃ c t, s = c :: t ∧ (c = '-' ∨ c.isDigit = true) := by
  obtain ⟨n, r₁, ds, r₂, e, hn, -⟩ := parseNumber_some h
  cases s with
  | nil => simp [sign, parseNat, digits] at hn
  | cons c t =>
    refine ⟨c, t, rfl, ?_⟩
    by_cases hc : c = '-'
    · exact Or.inl hc
    · refine Or.inr ?_
      have hs : (sign (c :: t)).2 = c :: t := by
        unfold sign
        split
        · next heq => simp only [List.cons.injEq] at heq; exact absurd heq.1 hc
        · rfl
      rw [hs, parseNat] at hn
      cases hd : c.isDigit with
      | true => rfl
      | false => simp [digits, hd] at hn

theorem parseNumber_open {s r : List Char} {v : Value} (h : parseNumber s = some (v, r)) :
    v.closed = false := by
  obtain ⟨n, r₁, ds, r₂, e, -, -, -, rfl⟩ := parseNumber_some h
  rw [number]
  split_ifs <;> rfl

theorem parse_skipWs (n : ℕ) (s : List Char) : parse n (skipWs s) = parse n s := by
  cases n with
  | zero => simp [parse]
  | succ n => simp only [parse, skipWs_skipWs]

theorem parseKey_append {s r : List Char} {key : String} (h : parseKey s = some (key, r)) :
    parseKey (s ++ q) = some (key, r ++ q) := by
  unfold parseKey at h ⊢
  split at h
  · next t ht =>
    rw [skipWs_append q (by rw [ht]; simp), ht]
    simp only [List.cons_append]
    split at h
    · cases h
    · next key' u hu =>
      have hlen : t.length + 1 ≤ (t ++ q).length + 1 := by simp
      rw [parseChars_append q hlen hu]
      simp only
      split at h
      · next w hw =>
        simp only [Option.some.injEq, Prod.mk.injEq] at h
        rw [skipWs_append q (by rw [hw]; simp), hw]
        simp [h]
      · cases h
  · cases h

theorem skipWs_ne_nil_of_parse {n : ℕ} {s r : List Char} {v : Value}
    (h : parse n s = some (v, r)) : skipWs s ≠ [] := by
  intro h0
  cases n with
  | zero => simp [parse] at h
  | succ n => simp [parse, h0, parseNumber, sign, parseNat, digits] at h

/-- Items that were read: one, and either the end of the array or more items. -/
theorem parseItems_some {n : ℕ} {s r : List Char} {vs : List Value}
    (h : parseItems (n + 1) s = some (vs, r)) :
    ∃ v t, parse n s = some (v, t) ∧
      (skipWs t = ']' :: r ∧ vs = [v] ∨
        ∃ u ws, skipWs t = ',' :: u ∧ parseItems n u = some (ws, r) ∧ vs = v :: ws) := by
  rw [parseItems] at h
  cases hv : parse n s with
  | none => simp [hv] at h
  | some p =>
    obtain ⟨v, t⟩ := p
    simp only [hv] at h
    refine ⟨v, t, rfl, ?_⟩
    split at h
    · next u hu =>
      simp only [Option.some.injEq, Prod.mk.injEq] at h
      obtain ⟨rfl, rfl⟩ := h
      exact .inl ⟨hu, rfl⟩
    · next u hu =>
      obtain ⟨⟨ws, w⟩, hws, heq⟩ := Option.map_eq_some_iff.mp h
      simp only [Prod.mk.injEq] at heq
      obtain ⟨rfl, rfl⟩ := heq
      exact .inr ⟨u, ws, hu, hws, rfl⟩
    · cases h

/-- Members that were read: one, and either the end of the object or more members. -/
theorem parseMembers_some {n : ℕ} {s r : List Char} {members : List (String × Value)}
    (h : parseMembers (n + 1) s = some (members, r)) :
    ∃ key s' v t, parseKey s = some (key, s') ∧ parse n s' = some (v, t) ∧
      (skipWs t = '}' :: r ∧ members = [(key, v)] ∨
        ∃ u ms, skipWs t = ',' :: u ∧ parseMembers n u = some (ms, r) ∧
          members = (key, v) :: ms) := by
  rw [parseMembers] at h
  cases hk : parseKey s with
  | none => simp [hk] at h
  | some p =>
    obtain ⟨key, s'⟩ := p
    simp only [hk] at h
    cases hv : parse n s' with
    | none => simp [hv] at h
    | some p =>
      obtain ⟨v, t⟩ := p
      simp only [hv] at h
      refine ⟨key, s', v, t, rfl, hv, ?_⟩
      split at h
      · next u hu =>
        simp only [Option.some.injEq, Prod.mk.injEq] at h
        obtain ⟨rfl, rfl⟩ := h
        exact .inl ⟨hu, rfl⟩
      · next u hu =>
        obtain ⟨⟨ms, w⟩, hms, heq⟩ := Option.map_eq_some_iff.mp h
        simp only [Prod.mk.injEq] at heq
        obtain ⟨rfl, rfl⟩ := heq
        exact .inr ⟨u, ms, hu, hms, rfl⟩
      · cases h

theorem skipWs_ne_nil_of_items {n : ℕ} {s r : List Char} {vs : List Value}
    (h : parseItems n s = some (vs, r)) : skipWs s ≠ [] := by
  cases n with
  | zero => simp [parseItems] at h
  | succ n =>
    obtain ⟨v, t, hv, -⟩ := parseItems_some h
    exact skipWs_ne_nil_of_parse hv

theorem skipWs_ne_nil_of_members {n : ℕ} {s r : List Char} {members : List (String × Value)}
    (h : parseMembers n s = some (members, r)) : skipWs s ≠ [] := by
  intro h0
  cases n with
  | zero => simp [parseMembers] at h
  | succ n => simp [parseMembers, parseKey, h0] at h

/-- A character that does not come next does not come next in a longer text either. -/
theorem skipWs_append_ne {s : List Char} {c : Char} (hs : skipWs s ≠ [])
    (h : ∀ u, skipWs s = c :: u → False) (u : List Char) : skipWs (s ++ q) ≠ c :: u := by
  intro heq
  rw [skipWs_append q hs] at heq
  obtain ⟨d, t, ht⟩ := List.exists_cons_of_ne_nil hs
  rw [ht] at heq h
  simp only [List.cons_append, List.cons.injEq] at heq
  exact h t (by rw [heq.1])

theorem ne_nil_of_skipWs {s u : List Char} {c : Char} (h : skipWs s = c :: u) : s ≠ [] := by
  rintro rfl
  cases h

/-- What the readers read with this fuel, they read in a longer text and with more fuel, too. -/
structure Kept (n : ℕ) : Prop where
  value : ∀ {m s r v}, n ≤ m → parse n s = some (v, r) → (r ≠ [] ∨ v.closed = true) →
    parse m (s ++ q) = some (v, r ++ q)
  items : ∀ {m s r vs}, n ≤ m → parseItems n s = some (vs, r) →
    parseItems m (s ++ q) = some (vs, r ++ q)
  members : ∀ {m s r ms}, n ≤ m → parseMembers n s = some (ms, r) →
    parseMembers m (s ++ q) = some (ms, r ++ q)

section
variable {q} {n m : ℕ} {s r : List Char}

theorem Kept.array (hk : Kept q n) (hnm : n ≤ m) {v : Value}
    (h : parse (n + 1) ('[' :: s) = some (v, r)) :
    parse (m + 1) ('[' :: (s ++ q)) = some (v, r ++ q) := by
  rw [parse, skipWs_cons (by decide)] at h ⊢
  simp only at h ⊢
  split at h
  · next u hu =>
    simp only [Option.some.injEq, Prod.mk.injEq] at h
    obtain ⟨rfl, rfl⟩ := h
    rw [skipWs_append q (by rw [hu]; simp), hu]
    rfl
  · next hclose =>
    obtain ⟨⟨vs, u⟩, hvs, heq⟩ := Option.map_eq_some_iff.mp h
    simp only [Prod.mk.injEq] at heq
    obtain ⟨rfl, rfl⟩ := heq
    have hs := skipWs_ne_nil_of_items hvs
    split
    · next w hw => exact absurd hw (skipWs_append_ne q hs hclose w)
    · rw [hk.items hnm hvs]; rfl

theorem Kept.object (hk : Kept q n) (hnm : n ≤ m) {v : Value}
    (h : parse (n + 1) ('{' :: s) = some (v, r)) :
    parse (m + 1) ('{' :: (s ++ q)) = some (v, r ++ q) := by
  rw [parse, skipWs_cons (by decide)] at h ⊢
  simp only at h ⊢
  split at h
  · next u hu =>
    simp only [Option.some.injEq, Prod.mk.injEq] at h
    obtain ⟨rfl, rfl⟩ := h
    rw [skipWs_append q (by rw [hu]; simp), hu]
    rfl
  · next hclose =>
    obtain ⟨⟨ms, u⟩, hms, heq⟩ := Option.map_eq_some_iff.mp h
    simp only [Prod.mk.injEq] at heq
    obtain ⟨rfl, rfl⟩ := heq
    have hs := skipWs_ne_nil_of_members hms
    split
    · next w hw => exact absurd hw (skipWs_append_ne q hs hclose w)
    · rw [hk.members hnm hms]; rfl

theorem Kept.parse_succ (hk : Kept q n) (hnm : n ≤ m) {v : Value}
    (h : parse (n + 1) s = some (v, r)) (hend : r ≠ [] ∨ v.closed = true) :
    parse (m + 1) (s ++ q) = some (v, r ++ q) := by
  have hws := h
  rw [← parse_skipWs] at hws
  rw [← parse_skipWs, skipWs_append q (skipWs_ne_nil_of_parse h)]
  rw [parse] at h
  split at h
  case h_1 t ht | h_2 t ht | h_3 t ht =>
    simp only [Option.some.injEq, Prod.mk.injEq] at h
    obtain ⟨rfl, rfl⟩ := h
    simp [ht, parse, skipWs_cons, isWs]
  case h_4 t ht =>
    obtain ⟨⟨cs, u⟩, hcs, heq⟩ := Option.map_eq_some_iff.mp h
    simp only [Prod.mk.injEq] at heq
    obtain ⟨rfl, rfl⟩ := heq
    have hlen : t.length + 1 ≤ (t ++ q).length + 1 := by simp
    have hcs' := parseChars_append q hlen hcs
    rw [ht, List.cons_append, parse, skipWs_cons (by decide)]
    simp only [hcs', Option.map_some]
  case h_5 t ht =>
    rw [ht] at hws ⊢
    exact hk.array hnm hws
  case h_6 t ht =>
    rw [ht] at hws ⊢
    exact hk.object hnm hws
  case h_7 =>
    obtain ⟨c, t, ht, hc⟩ := parseNumber_head h
    have hr : r ≠ [] := hend.resolve_right (by rw [parseNumber_open h]; decide)
    have hnum := parseNumber_append q h hr
    rw [ht, List.cons_append] at hnum ⊢
    rw [parse_number m hc, hnum]

theorem Kept.parseItems_succ (hk : Kept q n) (hnm : n ≤ m) {vs : List Value}
    (h : parseItems (n + 1) s = some (vs, r)) :
    parseItems (m + 1) (s ++ q) = some (vs, r ++ q) := by
  obtain ⟨v, t, hv, hend⟩ := parseItems_some h
  rw [parseItems]
  rcases hend with ⟨ht, rfl⟩ | ⟨u, ws, ht, hws, rfl⟩
  · rw [hk.value hnm hv (.inl (ne_nil_of_skipWs ht))]
    simp [skipWs_append q, ht]
  · rw [hk.value hnm hv (.inl (ne_nil_of_skipWs ht))]
    simp [skipWs_append q, ht, hk.items hnm hws]

theorem Kept.parseMembers_succ (hk : Kept q n) (hnm : n ≤ m) {ms : List (String × Value)}
    (h : parseMembers (n + 1) s = some (ms, r)) :
    parseMembers (m + 1) (s ++ q) = some (ms, r ++ q) := by
  obtain ⟨key, s', v, t, hkey, hv, hend⟩ := parseMembers_some h
  rw [parseMembers, parseKey_append q hkey]
  rcases hend with ⟨ht, rfl⟩ | ⟨u, ms, ht, hms, rfl⟩
  · simp [hk.value hnm hv (.inl (ne_nil_of_skipWs ht)), skipWs_append q, ht]
  · simp [hk.value hnm hv (.inl (ne_nil_of_skipWs ht)), skipWs_append q, ht, hk.members hnm hms]

end

theorem kept_zero : Kept q 0 := ⟨by simp [parse], by simp [parseItems], by simp [parseMembers]⟩

theorem kept_succ {n : ℕ} (hk : Kept q n) : Kept q (n + 1) := by
  have hpred {m : ℕ} (hnm : n + 1 ≤ m) : ∃ m', n ≤ m' ∧ m = m' + 1 :=
    ⟨m - 1, by omega, by omega⟩
  refine ⟨fun hnm h hend => ?_, fun hnm h => ?_, fun hnm h => ?_⟩
  · obtain ⟨m, hle, rfl⟩ := hpred hnm
    exact hk.parse_succ hle h hend
  · obtain ⟨m, hle, rfl⟩ := hpred hnm
    exact hk.parseItems_succ hle h
  · obtain ⟨m, hle, rfl⟩ := hpred hnm
    exact hk.parseMembers_succ hle h

/-- The three readers keep what they have read when the text goes on and the fuel grows. -/
theorem kept (n : ℕ) : Kept q n := by
  induction n with
  | zero => exact kept_zero q
  | succ n ih => exact kept_succ q ih

/-! ### Incomplete objects -/

theorem read_some {s : List Char} {v : Value} (h : read s = some v) :
    ∃ r, parse (s.length + 1) s = some (v, r) ∧ skipWs r = [] := by
  rw [read] at h
  cases hp : parse (s.length + 1) s with
  | none => simp [hp] at h
  | some p =>
    obtain ⟨w, r⟩ := p
    simp only [hp] at h
    split_ifs at h with hr
    obtain rfl : w = v := Option.some.inj h
    exact ⟨r, rfl, hr⟩

/-- A text that is read as a closed value is read so by itself, whatever fuel there is. -/
theorem read_append {s : List Char} {v : Value} (h : read s = some v) (hv : v.closed = true) :
    ∃ r, skipWs r = [] ∧ ∀ q, ∀ m, s.length < m → parse m (s ++ q) = some (v, r ++ q) := by
  obtain ⟨r, hp, hr⟩ := read_some h
  exact ⟨r, hr, fun q m hm => (kept q _).value hm hp (Or.inr hv)⟩

/-- What an opening brace opens is an object. -/
theorem parse_brace {n : ℕ} {s r : List Char} {v : Value} (h : parse n ('{' :: s) = some (v, r)) :
    ∃ members, v = .obj members := by
  cases n with
  | zero => simp [parse] at h
  | succ n =>
    rw [parse, skipWs_cons (by decide)] at h
    simp only at h
    split at h
    · simp only [Option.some.injEq, Prod.mk.injEq] at h
      exact ⟨[], h.1.symm⟩
    · obtain ⟨⟨members, u⟩, -, heq⟩ := Option.map_eq_some_iff.mp h
      simp only [Prod.mk.injEq] at heq
      exact ⟨members, heq.1.symm⟩

/-- A piece of a printed object is empty or starts with its brace. -/
theorem brace_of_prefix {layout : Layout} {members : List (String × Value)} {p : List Char}
    (hp : p <+: print layout 0 (.obj members)) : p = [] ∨ ∃ s, p = '{' :: s := by
  obtain ⟨t, ht⟩ : ∃ t, print layout 0 (.obj members) = '{' :: t := by
    cases members with
    | nil => exact ⟨['}'], by rw [print]⟩
    | cons m ms => exact ⟨_, by rw [print]; rfl⟩
  rw [ht, List.prefix_cons_iff] at hp
  exact hp.imp_right (Exists.imp fun _ => And.left)

/-- What an opening bracket opens is an array. -/
theorem parse_bracket {n : ℕ} {s r : List Char} {v : Value} (h : parse n ('[' :: s) = some (v, r)) :
    ∃ items, v = .arr items := by
  cases n with
  | zero => simp [parse] at h
  | succ n =>
    rw [parse, skipWs_cons (by decide)] at h
    simp only at h
    split at h
    · simp only [Option.some.injEq, Prod.mk.injEq] at h
      exact ⟨[], h.1.symm⟩
    · obtain ⟨⟨items, u⟩, -, heq⟩ := Option.map_eq_some_iff.mp h
      simp only [Prod.mk.injEq] at heq
      exact ⟨items, heq.1.symm⟩

/-- A piece of a printed array is empty or starts with its bracket. -/
theorem bracket_of_prefix {layout : Layout} {items : List Value} {p : List Char}
    (hp : p <+: print layout 0 (.arr items)) : p = [] ∨ ∃ s, p = '[' :: s := by
  obtain ⟨t, ht⟩ : ∃ t, print layout 0 (.arr items) = '[' :: t := by
    cases items with
    | nil => exact ⟨[']'], by rw [print]⟩
    | cons v vs => exact ⟨_, by rw [print]; rfl⟩
  rw [ht, List.prefix_cons_iff] at hp
  exact hp.imp_right (Exists.imp fun _ => And.left)

theorem read_nil : read [] = none := by
  simp [read, parse, skipWs, parseNumber, sign, parseNat, digits]

/-- A proper piece of a printed value cannot be read, if it could only be read as a closed one. -/
theorem read_piece_of_closed (layout : Layout) {w : Value} (hw : w.whole = true) {p : List Char}
    (hp : p <+: print layout 0 w) (hne : p ≠ print layout 0 w)
    (hclosed : ∀ v, read p = some v → v.closed = true) : read p = none := by
  by_contra h
  obtain ⟨v, hr⟩ := Option.ne_none_iff_exists'.mp h
  -- the whole text is read twice: as the value, and as what the prefix was read as
  obtain ⟨r, -, hlong⟩ := read_append hr (hclosed v hr)
  obtain ⟨q, hq⟩ := hp
  have hlt : p.length < (print layout 0 w).length + 1 := by
    have := congrArg List.length hq
    simp only [List.length_append] at this
    omega
  have h₁ := hlong q _ hlt
  have hsize := size_le_length layout w 0 hw
  have h₂ := parse_print layout w 0 ((print layout 0 w).length + 1) [] (by omega) hw endsNumber_nil
  rw [hq] at h₁
  rw [List.append_nil, h₁] at h₂
  simp only [Option.some.injEq, Prod.mk.injEq, List.append_eq_nil_iff] at h₂
  rw [h₂.2.2, List.append_nil] at hq
  exact hne hq

/-- No proper prefix of a printed object can be read. -/
theorem read_piece (layout : Layout) {members : List (String × Value)}
    (hv : (Value.obj members).whole = true) {p : List Char}
    (hp : p <+: print layout 0 (.obj members)) (hne : p ≠ print layout 0 (.obj members)) :
    read p = none := by
  refine read_piece_of_closed layout hv hp hne fun v hr => ?_
  obtain ⟨r, hx, -⟩ := read_some hr
  rcases brace_of_prefix hp with rfl | ⟨s, rfl⟩
  · rw [read_nil] at hr
    cases hr
  · obtain ⟨members', rfl⟩ := parse_brace hx
    rfl

/-- Nor of a printed array. -/
theorem read_array_piece (layout : Layout) {items : List Value}
    (hv : (Value.arr items).whole = true) {p : List Char}
    (hp : p <+: print layout 0 (.arr items)) (hne : p ≠ print layout 0 (.arr items)) :
    read p = none := by
  refine read_piece_of_closed layout hv hp hne fun v hr => ?_
  obtain ⟨r, hx, -⟩ := read_some hr
  rcases bracket_of_prefix hp with rfl | ⟨s, rfl⟩
  · rw [read_nil] at hr
    cases hr
  · obtain ⟨items', rfl⟩ := parse_bracket hx
    rfl

/-! ### Bytes -/

theorem toByteArray_utf8 (s : List Char) : (utf8 s).toByteArray = s.utf8Encode := rfl

theorem fromUTF8_utf8 (s : List Char) :
    String.fromUTF8? (utf8 s).toByteArray = some (String.ofList s) := by
  rw [toByteArray_utf8, String.fromUTF8?, dif_pos ⟨s, rfl⟩]
  rfl

theorem readBytes_utf8 (s : List Char) : readBytes (utf8 s) = read s := by
  rw [readBytes, fromUTF8_utf8]
  simp

theorem utf8_append (s t : List Char) : utf8 (s ++ t) = utf8 s ++ utf8 t := List.flatMap_append

theorem toByteArray_inj {xs ys : List UInt8} (h : xs.toByteArray = ys.toByteArray) : xs = ys := by
  have := congrArg (fun b : ByteArray => b.data.toList) h
  simpa using this

/-- A piece of a text that is a text itself is cut between two characters. -/
theorem fromUTF8_prefix {p : List UInt8} {s : List Char} {str : String} (hp : p <+: utf8 s)
    (h : String.fromUTF8? p.toByteArray = some str) :
    ∃ t, p = utf8 t ∧ t <+: s ∧ str = .ofList t := by
  obtain ⟨q, hq⟩ := hp
  have hvalid := h
  rw [String.fromUTF8?] at hvalid
  split_ifs at hvalid with hv
  obtain ⟨t, ht⟩ := hv
  have hpt : p = utf8 t := toByteArray_inj ht
  refine ⟨t, hpt, ?_, ?_⟩
  · refine List.isPrefix_of_utf8Encode_append_eq_utf8Encode q.toByteArray ?_
    rw [← toByteArray_utf8, ← toByteArray_utf8, ← hq, hpt]
    simp
  · rw [hpt, fromUTF8_utf8] at h
    exact (Option.some.inj h).symm

/-- A piece of a text that can be read is cut between two characters. -/
theorem readBytes_prefix {p : List UInt8} {s : List Char} {v : Value} (hp : p <+: utf8 s)
    (h : readBytes p = some v) : ∃ t, p = utf8 t ∧ t <+: s ∧ read t = some v := by
  obtain ⟨str, hstr, hread⟩ := Option.bind_eq_some_iff.mp h
  obtain ⟨t, hpt, hts, rfl⟩ := fromUTF8_prefix hp hstr
  rw [String.toList_ofList] at hread
  exact ⟨t, hpt, hts, hread⟩

/-! ### One line -/

/-- Only the newline has a newline byte in its encoding. -/
theorem newline_of_mem_encode {c : Char} (h : (10 : UInt8) ∈ String.utf8EncodeChar c) :
    c = '\n' := by
  have hval : c.val.toNat = 10 := by
    rw [String.utf8EncodeChar] at h
    split_ifs at h <;>
      simp only [List.mem_cons, List.not_mem_nil, or_false, ← UInt8.toNat_inj, UInt8.toNat_ofNat,
        UInt8.toNat_ofNat'] at h <;>
      omega
  exact Char.ext (UInt32.toNat_inj.mp hval)

theorem newline_not_mem_escape (c : Char) : '\n' ∉ escape c := by
  unfold escape
  split_ifs with h₁ h₂ h₃ h₄ h₅ h₆ h₇ h₈
  all_goals try decide
  · have hlt : ∀ n < 16, hexDigit n ≠ '\n' := by decide
    have hi := hlt (c.toNat / 16) (by omega)
    have lo := hlt (c.toNat % 16) (by omega)
    simp [hi.symm, lo.symm]
  · simpa using Ne.symm h₅

theorem newline_not_mem_printStr (s : String) : '\n' ∉ printStr s := by
  simp [printStr, printChars, newline_not_mem_escape]

theorem newline_not_mem_toDigits (n : ℕ) : '\n' ∉ Nat.toDigits 10 n := by
  intro h
  exact absurd (isDigit_toDigits n _ h) (by decide)

mutual
/-- The compact text of a value is one line. -/
theorem newline_not_mem_print : ∀ (v : Value) (i : ℕ), v.whole = true → '\n' ∉ print compact i v
  | .null, i, _ => by simp [print]
  | .bool true, i, _ => by simp [print]
  | .bool false, i, _ => by simp [print]
  | .posInt n, i, _ => by simp only [print]; exact newline_not_mem_toDigits _
  | .negInt n, i, _ => by
    have := newline_not_mem_toDigits n
    simp [print, this]
  | .str s, i, _ => by simp only [print]; exact newline_not_mem_printStr s
  | .arr [], i, _ => by simp [print]
  | .arr (v :: vs), i, hv => by
    obtain ⟨hfirst, hrest⟩ := Bool.and_eq_true_iff.mp hv
    have h₁ := newline_not_mem_print v (i + 1) hfirst
    have h₂ := newline_not_mem_printItems vs i hrest
    simp [print, compact] at h₁ h₂ ⊢
    exact ⟨h₁, h₂⟩
  | .obj [], i, _ => by simp [print]
  | .obj ((key, v) :: members), i, hv => by
    obtain ⟨hfirst, hrest⟩ := Bool.and_eq_true_iff.mp hv
    have h₀ := newline_not_mem_printStr key
    have h₁ := newline_not_mem_print v (i + 1) hfirst
    have h₂ := newline_not_mem_printMembers members i hrest
    simp [print, compact] at h₁ h₂ ⊢
    exact ⟨h₀, h₁, h₂⟩

theorem newline_not_mem_printItems : ∀ (vs : List Value) (i : ℕ), Value.itemsWhole vs = true →
    '\n' ∉ printItems compact i vs
  | [], i, _ => by simp [printItems, compact]
  | v :: vs, i, hv => by
    obtain ⟨hfirst, hrest⟩ := Bool.and_eq_true_iff.mp hv
    have h₁ := newline_not_mem_print v (i + 1) hfirst
    have h₂ := newline_not_mem_printItems vs i hrest
    simp [printItems, compact] at h₁ h₂ ⊢
    exact ⟨h₁, h₂⟩

theorem newline_not_mem_printMembers : ∀ (members : List (String × Value)) (i : ℕ),
    Value.membersWhole members = true → '\n' ∉ printMembers compact i members
  | [], i, _ => by simp [printMembers, compact]
  | (key, v) :: members, i, hv => by
    obtain ⟨hfirst, hrest⟩ := Bool.and_eq_true_iff.mp hv
    have h₀ := newline_not_mem_printStr key
    have h₁ := newline_not_mem_print v (i + 1) hfirst
    have h₂ := newline_not_mem_printMembers members i hrest
    simp [printMembers, compact] at h₁ h₂ ⊢
    exact ⟨h₀, h₁, h₂⟩
end

theorem newline_not_mem_utf8 {s : List Char} (h : '\n' ∉ s) : (10 : UInt8) ∉ utf8 s := by
  intro hmem
  obtain ⟨c, hc, hb⟩ := List.mem_flatMap.mp hmem
  exact h (newline_of_mem_encode hb ▸ hc)

end Json
