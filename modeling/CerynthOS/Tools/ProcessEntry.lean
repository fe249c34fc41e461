import CerynthOS.Schemes.Words
import CerynthOS.Telemetry.Source
import CerynthOS.Tools.Monitors

/-! The entry of a process in `/proc`, which the telemetry source and the stability tool read.

    The command is whatever the process calls itself, in parentheses. Both take it to end at the
    last closing parenthesis, and count the fields from there. -/

namespace CerynthOS.Telemetry
open Daemon Words

/-! ### The telemetry source -/

/-- A number may have a plus sign. -/
def unsigned : List Char → List Char
  | '+' :: s => s
  | s => s

/-- `str::parse::<u64>`. -/
def parseU64 (s : List Char) : Option UInt64 :=
  let digits := unsigned s
  let value := Nat.ofDigitChars 10 digits 0
  if digits ≠ [] ∧ digits.all Char.isDigit ∧ value < 2 ^ 64 then some (.ofNat value) else none

/-- What `top_processes` makes of an entry. A slice out of range ends the daemon. -/
inductive Entry where
  | skipped
  | outOfRange
  | seen (stat : ProcStat) (ticks : UInt64)

def readEntry (stat : List Char) : Entry :=
  match stat.idxOf? '(' with
  | none => .skipped
  | some openParen =>
    match lastIdxOf? ')' stat with
    | none => .skipped
    | some closeParen =>
      match slice? stat (openParen + 1) closeParen with
      | none => .outOfRange
      | some command =>
        match slice? stat (closeParen + 1) stat.length with
        | none => .outOfRange
        | some rest =>
          let rest := words isWhitespace rest
          -- The fields are counted from the state, which is field 3.
          let utime := ((rest[11]?).bind parseU64).getD 0
          let stime := ((rest[12]?).bind parseU64).getD 0
          .seen ⟨.ofList command, utime.toNat, stime.toNat⟩ (utime + stime)

end CerynthOS.Telemetry

namespace CerynthOS.Tools
open Telemetry Daemon Words Python

/-! ### The text of an entry -/

/-- The fields after the command: letters, digits and signs. -/
def IsField (field : List Char) : Prop :=
  field ≠ [] ∧ ∀ c ∈ field, c.isAlphanum = true ∨ c = '-'

/-- The text of an entry, which may end with a newline. -/
def entryText (pid : ℤ) (command : List Char) (fields : List (List Char)) (newline : Bool) :
    List Char :=
  (toString pid).toList ++ " (".toList ++ command ++ ')' :: fields.flatMap (' ' :: ·) ++
    if newline then ['\n'] else []

/-- The number that the telemetry source takes a field for. -/
def counter (field : List Char) : ℕ := ((parseU64 field).getD 0).toNat

theorem alphanum_lt {c : Char} (h : c.isAlphanum = true) : c.toNat < 128 := by
  simp only [Char.isAlphanum, Char.isAlpha, Char.isUpper, Char.isLower, Char.isDigit,
    Bool.or_eq_true, Bool.and_eq_true, decide_eq_true_eq, UInt32.le_iff_toNat_le, ge_iff_le] at h
  change ((65 ≤ c.toNat ∧ c.toNat ≤ 90) ∨ 97 ≤ c.toNat ∧ c.toNat ≤ 122) ∨
    48 ≤ c.toNat ∧ c.toNat ≤ 57 at h
  omega

/-- No character of a field separates fields, and none is a plus sign. -/
theorem isField_char {c : Char} (h : c.isAlphanum = true ∨ c = '-') :
    isWhitespace c = false ∧ isSpace c = false ∧ c ≠ '+' := by
  have hascii : ∀ n < 128, (Char.ofNat n).isAlphanum = true ∨ Char.ofNat n = '-' →
      isWhitespace (Char.ofNat n) = false ∧ isSpace (Char.ofNat n) = false ∧
        Char.ofNat n ≠ '+' := by
    decide
  have hlt : c.toNat < 128 := by
    rcases h with h | rfl
    · exact alphanum_lt h
    · decide
  have := hascii c.toNat hlt
  rw [Char.ofNat_toNat] at this
  exact this h

/-- The characters of a pid are those of a field. -/
theorem pid_char {pid : ℤ} {c : Char} (h : c ∈ (toString pid).toList) :
    c.isAlphanum = true ∨ c = '-' := by
  rw [Int.toString_eq_repr, Int.repr_eq_if] at h
  have hdigit {m : ℕ} (hm : c ∈ m.repr.toList) : c.isAlphanum = true := by
    rw [Nat.toList_repr] at hm
    rw [Char.isAlphanum, Json.isDigit_toDigits m c hm, Bool.or_true]
  split_ifs at h
  · exact .inl (hdigit h)
  · rw [String.toList_append, List.mem_append] at h
    rcases h with h | h
    · exact .inr (by simpa using h)
    · exact .inl (hdigit h)

/-- What stands around the command. -/
def Plain (c : Char) : Prop := (c.isAlphanum = true ∨ c = '-') ∨ c = ' ' ∨ c = '\n'

/-- An entry is cut at the first opening and the last closing parenthesis. -/
structure Cut (command : List Char) (fields : List (List Char)) (text before after : List Char) :
    Prop where
  text_eq : text = before ++ '(' :: (command ++ ')' :: after)
  before_plain : ∀ c ∈ before, Plain c
  after_plain : ∀ c ∈ after, Plain c
  words_after : ∀ p : Char → Bool, p ' ' = true → p '\n' = true →
    (∀ c : Char, c.isAlphanum = true ∨ c = '-' → p c = false) → words p after = fields

theorem exists_cut (pid : ℤ) (command : List Char) {fields : List (List Char)}
    (hfields : ∀ field ∈ fields, IsField field) (newline : Bool) :
    ∃ before after, Cut command fields (entryText pid command fields newline) before after := by
  let tail := if newline then ['\n'] else []
  have htail : ∀ c ∈ tail, c = '\n' := by
    cases newline <;> simp [tail]
  refine ⟨(toString pid).toList ++ [' '], fields.flatMap (' ' :: ·) ++ tail, ?_, ?_, ?_, ?_⟩
  · simp [entryText, tail]
  · intro c hc
    rcases List.mem_append.mp hc with hc | hc
    · exact .inl (pid_char hc)
    · exact .inr (.inl (List.mem_singleton.mp hc))
  · intro c hc
    rcases List.mem_append.mp hc with hc | hc
    · obtain ⟨field, hfield, hc⟩ := List.mem_flatMap.mp hc
      rcases List.mem_cons.mp hc with hc | hc
      · exact .inr (.inl hc)
      · exact .inl ((hfields field hfield).2 c hc)
    · exact .inr (.inr (htail c hc))
  · intro p hspace hnewline hfield
    refine words_flatMap hspace (fun field h => ?_) fun c hc => htail c hc ▸ hnewline
    exact ⟨(hfields field h).1, fun c hc => hfield c ((hfields field h).2 c hc)⟩

namespace Cut
variable {command text before after : List Char} {fields : List (List Char)}

theorem first (h : Cut command fields text before after) : '(' ∉ before := by
  intro hc
  exact absurd (h.before_plain _ hc) (by simp [Plain])

theorem last (h : Cut command fields text before after) : ')' ∉ after := by
  intro hc
  exact absurd (h.after_plain _ hc) (by simp [Plain])

/-- The text in the ways in which it is cut. -/
theorem text_command (h : Cut command fields text before after) :
    text = (before ++ ['(']) ++ (command ++ ')' :: after) := by
  rw [h.text_eq]
  simp

theorem text_rest (h : Cut command fields text before after) :
    text = (before ++ '(' :: (command ++ [')'])) ++ after := by
  rw [h.text_eq]
  simp

theorem text_after (h : Cut command fields text before after) :
    text = (before ++ '(' :: command) ++ ')' :: after := by
  rw [h.text_eq]
  simp

theorem length_open (before : List Char) : before.length + 1 = (before ++ ['(']).length := by simp

theorem length_close (before command : List Char) :
    (before ++ '(' :: command).length = (before ++ ['(']).length + command.length := by
  simp
  omega

theorem length_after (before command : List Char) :
    (before ++ '(' :: command).length + 1 = (before ++ '(' :: (command ++ [')'])).length := by
  simp
  omega

/-! ### Two readers -/

theorem readEntry (h : Cut command fields text before after) (hlength : 13 ≤ fields.length) :
    Telemetry.readEntry text =
      .seen ⟨.ofList command, counter fields[11], counter fields[12]⟩
        ((parseU64 fields[11]).getD 0 + (parseU64 fields[12]).getD 0) := by
  have hopen : text.idxOf? '(' = some before.length := by
    rw [h.text_eq, idxOf?_first h.first]
  have hclose : lastIdxOf? ')' text = some (before ++ '(' :: command).length := by
    rw [h.text_after, lastIdxOf?_last h.last]
  have hcommand : slice? text (before.length + 1) (before ++ '(' :: command).length =
      some command := by
    rw [h.text_command, length_close before command, length_open, slice?_between]
  have hrest : slice? text ((before ++ '(' :: command).length + 1) text.length = some after := by
    rw [h.text_rest, length_after, slice?_rest]
  have hwords : words isWhitespace after = fields :=
    h.words_after _ (by decide) (by decide) fun c hc => (isField_char hc).1
  rw [Telemetry.readEntry, hopen]
  dsimp only
  rw [hclose]
  dsimp only
  rw [hcommand]
  dsimp only
  rw [hrest]
  dsimp only
  rw [hwords, List.getElem?_eq_getElem (by omega), List.getElem?_eq_getElem (by omega)]
  rfl

theorem processName (h : Cut command fields text before after) :
    Tools.processName text = command := by
  have hopen : find '(' text + 1 = (before ++ ['(']).length := by
    rw [h.text_eq, find_first h.first, ← length_open]
    rfl
  have hclose : rfind ')' text = ((before ++ ['(']).length + command.length : ℕ) := by
    rw [h.text_after, rfind_last h.last, length_close]
  rw [Tools.processName, hopen, hclose, h.text_command, slice_between]

theorem processFields (h : Cut command fields text before after) :
    Tools.processFields text = fields := by
  have hclose : rfind ')' text + 1 = (before ++ '(' :: (command ++ [')'])).length := by
    rw [h.text_after, rfind_last h.last, ← length_after]
    rfl
  have hsplit : split after = fields :=
    h.words_after _ (by decide) (by decide) fun c hc => (isField_char hc).2.1
  rw [Tools.processFields, hclose, h.text_rest, slice_rest, hsplit]

/-- Python reads the text as it stands, unless the command holds a carriage return. -/
theorem readText (h : Cut command fields text before after) (hcommand : '\r' ∉ command) :
    Python.readText text = text := by
  refine readText_eq fun hc => ?_
  have hplain : ¬ Plain '\r' := by simp [Plain]
  rw [h.text_eq, List.mem_append, List.mem_cons, List.mem_append, List.mem_cons] at hc
  rcases hc with hc | hc | hc | hc | hc
  · exact hplain (h.before_plain _ hc)
  · cases hc
  · exact hcommand hc
  · cases hc
  · exact hplain (h.after_plain _ hc)

end Cut

/-- A field that is a number to the telemetry source is the same number to Python. -/
theorem int_field [Library] [LawfulInt] {field : List Char} (hfield : IsField field) {n : UInt64}
    (h : parseU64 field = some n) (hdigits : field.length ≤ intMaxStrDigits) :
    Library.int (.ofList field) = some (n.toNat : ℤ) := by
  have hunsigned : unsigned field = field := by
    rw [unsigned]
    rintro digits rfl
    exact (isField_char (hfield.2 '+' List.mem_cons_self)).2.2 rfl
  rw [parseU64, hunsigned] at h
  split at h
  case isTrue hnumber =>
    obtain rfl := Option.some.inj h
    rw [LawfulInt.int_digits field hnumber.1 (by simpa using hnumber.2.1) hdigits,
      UInt64.toNat_ofNat_of_lt' hnumber.2.2]
  case isFalse => cases h

/-- For every command, whatever parentheses it holds, both readers find the command and the fields
    after it. The telemetry source counts a field that is no number as zero; where both counters
    are numbers, of no more digits than Python reads, the stability tool finds the same numbers, and
    reports their sum if it accepts. -/
theorem entry_exact [Library] [LawfulInt] (pid : ℤ) (command : List Char)
    (hcommand : '\r' ∉ command) (fields : List (List Char)) (hlength : 13 ≤ fields.length)
    (hfields : ∀ field ∈ fields, IsField field) (newline : Bool) :
    let text := entryText pid command fields newline
    let stat : ProcStat := ⟨.ofList command, counter fields[11], counter fields[12]⟩
    (∃ ticks, readEntry text = .seen stat ticks ∧
      (stat.ticks < 2 ^ 64 → ticks.toNat = stat.ticks)) ∧
    processName (readText text) = command ∧
    ∀ utime stime, parseU64 fields[11] = some utime → parseU64 fields[12] = some stime →
      fields[11].length ≤ intMaxStrDigits → fields[12].length ≤ intMaxStrDigits →
      stat.ticks = utime.toNat + stime.toNat ∧
      (processFields (readText text))[11]?.bind (fun field => Library.int (.ofList field)) =
        some (utime.toNat : ℤ) ∧
      (processFields (readText text))[12]?.bind (fun field => Library.int (.ofList field)) =
        some (stime.toNat : ℤ) ∧
      ∀ (K : Type) [Field K] [LinearOrder K] [FloorRing K] (profile : String) (files : Files)
        (now : K) (health : Health),
        (∀ path contents, files.stat path = some contents → contents.toList = readText text) →
        checkHealth profile files now = .ok health →
          command = "cerynth-scx".toList ∧ health.processCpuTicks = stat.ticks := by
  obtain ⟨before, after, h⟩ := exists_cut pid command hfields newline
  have hread := h.readText hcommand
  have hname := h.processName
  have hsplit := h.processFields
  have hentry := h.readEntry hlength
  generalize entryText pid command fields newline = text at hread hname hsplit hentry
  dsimp only
  rw [hread, hname, hsplit]
  refine ⟨⟨_, hentry, fun hfits => ?_⟩, rfl, fun utime stime hutime hstime hlong hlong' => ?_⟩
  · rw [UInt64.toNat_add]
    exact Nat.mod_eq_of_lt hfits
  · have hint₁ := int_field (hfields _ (List.getElem_mem _)) hutime hlong
    have hint₂ := int_field (hfields _ (List.getElem_mem _)) hstime hlong'
    have hsum : counter fields[11] + counter fields[12] = utime.toNat + stime.toNat := by
      rw [counter, counter, hutime, hstime]
      rfl
    have hfield₁ : fields[11]? = some fields[11] := List.getElem?_eq_getElem _
    have hfield₂ : fields[12]? = some fields[12] := List.getElem?_eq_getElem _
    rw [hfield₁, hfield₂]
    refine ⟨hsum, hint₁, hint₂, fun K _ _ _ profile files now health hstat hok => ?_⟩
    obtain ⟨-, path, contents, utime', stime', hcontents, hname', hutime', hstime', hticks⟩ :=
      checkHealth_ok hok
    rw [hstat path contents hcontents, hname] at hname'
    rw [hstat path contents hcontents, hsplit, hfield₁] at hutime'
    rw [hstat path contents hcontents, hsplit, hfield₂] at hstime'
    obtain rfl := Option.some.inj (hint₁.symm.trans hutime')
    obtain rfl := Option.some.inj (hint₂.symm.trans hstime')
    refine ⟨hname', hticks.trans ?_⟩
    rw [ProcStat.ticks, hsum]
    push_cast
    rfl

section Example

theorem chars_empty : ∀ c ∈ "".toList, c ∈ "0123456789+-.einfa".toList := by simp

/-- A library that reads digits, up to the limit. -/
@[reducible] def digitLibrary : Library where
  loads _ := none
  errorText _ := "unreadable"
  int s :=
    if s.toList ≠ [] ∧ s.toList.all Char.isDigit = true ∧ s.toList.length ≤ intMaxStrDigits then
      some (Nat.ofDigitChars 10 s.toList 0 : ℤ)
    else none
  repr _ := ""
  floatText _ := ""
  floatText_chars _ := chars_empty

theorem digitLibrary_lawful : @LawfulInt digitLibrary := by
  refine @LawfulInt.mk digitLibrary fun digits hne hdigits hlength => ?_
  have hall : digits.all Char.isDigit = true := List.all_eq_true.mpr hdigits
  change (if (String.ofList digits).toList ≠ [] ∧ _ then _ else _) = _
  rw [String.toList_ofList, if_pos ⟨hne, hall, hlength⟩]

/-- The fields of a process that has run for 12 and 30 ticks. -/
def sleeping : List (List Char) :=
  [['S'], ['1'], ['1'], ['1'], ['0'], ['-', '1'], ['4'], ['0'], ['0'], ['0'], ['0'], ['1', '2'],
    ['3', '0']]

/-- A command that closes and opens a parenthesis. -/
def nested : List Char := ['a', ')', ' ', '(', 'b']

theorem entry_exact_nested :
    (∃ ticks, readEntry (entryText 42 nested sleeping true) =
      .seen ⟨.ofList nested, 12, 30⟩ ticks ∧ ticks.toNat = 42) ∧
    processName (readText (entryText 42 nested sleeping true)) = nested ∧
    (processFields (readText (entryText 42 nested sleeping true)))[11]?.bind
      (fun field => digitLibrary.int (.ofList field)) = some 12 := by
  have h := @entry_exact digitLibrary digitLibrary_lawful 42 nested (by decide) sleeping
    (by decide) (by simp [sleeping, IsField]) true
  have hcounters : counter sleeping[11] = 12 ∧ counter sleeping[12] = 30 := by decide +kernel
  dsimp only at h
  rw [hcounters.1, hcounters.2] at h
  obtain ⟨⟨ticks, hentry, hticks⟩, hname, hnumbers⟩ := h
  have hnumbers := hnumbers 12 30 (by decide +kernel) (by decide +kernel) (by decide) (by decide)
  exact ⟨⟨ticks, hentry, hticks (by decide)⟩, hname, hnumbers.2.1⟩

/-- A counter that is zero, with one digit more than Python reads. -/
def zeros : List Char := List.replicate 4301 '0'

/-- The fields of a process whose first counter is written so. -/
def padded : List (List Char) := sleeping.set 11 zeros

theorem ofDigitChars_zeros (n : ℕ) : Nat.ofDigitChars 10 (List.replicate n '0') 0 = 0 := by
  induction n with
  | zero => rfl
  | succ n ih => rw [List.replicate_succ, Nat.ofDigitChars_cons]; exact ih

theorem parseU64_zeros : parseU64 zeros = some 0 := by
  have hunsigned : unsigned zeros = zeros := rfl
  have hall : zeros.all Char.isDigit = true :=
    List.all_eq_true.mpr fun c hc => by rw [List.eq_of_mem_replicate hc]; rfl
  have hvalue : Nat.ofDigitChars 10 zeros 0 = 0 := ofDigitChars_zeros 4301
  rw [parseU64, hunsigned, hvalue]
  exact if_pos ⟨List.cons_ne_nil _ _, hall, by decide⟩

theorem isField_padded : ∀ field ∈ padded, IsField field := by
  have hsleeping : ∀ field ∈ sleeping, IsField field := by simp [sleeping, IsField]
  intro field hfield
  rcases List.mem_or_eq_of_mem_set hfield with hfield | rfl
  · exact hsleeping field hfield
  · refine ⟨List.cons_ne_nil _ _, fun c hc => ?_⟩
    rw [List.eq_of_mem_replicate hc]
    exact .inl rfl

/-- The telemetry source reads the counter, and the stability tool cannot. -/
theorem zeros_refused : ¬ ∀ (pid : ℤ) (command : List Char) (fields : List (List Char))
    (newline : Bool) (_ : 13 ≤ fields.length), '\r' ∉ command →
    (∀ field ∈ fields, IsField field) → ∀ utime stime, parseU64 fields[11] = some utime →
    parseU64 fields[12] = some stime →
    (processFields (readText (entryText pid command fields newline)))[11]?.bind
      (fun field => digitLibrary.int (.ofList field)) = some (utime.toNat : ℤ) := by
  intro h
  have hlength : padded.length = 13 := List.length_set
  have hzeros : padded[11] = zeros := List.getElem_set_self (hlength.ge.trans' (by decide))
  have hthirty : padded[12] = ['3', '0'] := List.getElem_set_ne (by decide) _
  have hread := h 42 nested padded true hlength.ge (by decide) isField_padded 0 30
    (by rw [hzeros, parseU64_zeros]) (by rw [hthirty]; decide +kernel)
  obtain ⟨before, after, hcut⟩ := exists_cut 42 nested isField_padded true
  have hlong : ¬ zeros.length ≤ intMaxStrDigits := by
    rw [zeros, List.length_replicate, intMaxStrDigits]
    decide
  have hint : digitLibrary.int (.ofList zeros) = none := by
    change (if (String.ofList zeros).toList ≠ [] ∧ _ then _ else _) = _
    rw [String.toList_ofList, if_neg fun hc => hlong hc.2.2]
  rw [hcut.readText (by decide), hcut.processFields, List.getElem?_eq_getElem (by omega), hzeros,
    Option.bind_some, hint] at hread
  cases hread

end Example

end CerynthOS.Tools
