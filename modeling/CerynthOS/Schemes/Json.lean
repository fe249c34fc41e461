import Mathlib

/-! JSON values, their text and a recursive-descent reader.

    A value is printed in a layout that says what stands at a line break and after a colon; the
    compact layout has nothing there, the pretty one breaks every line and indents by two. The
    reader accepts any layout. It takes fuel, of which the length of the text is always enough. -/

namespace Json

/-- A JSON value. Whole numbers are kept apart from the others, and an object is the list of its
    members in the order of the text. -/
inductive Value where
  | null
  | bool (b : Bool)
  | posInt (n : UInt64)
  | negInt (n : ℕ)
  | float (x : Float)
  | str (s : String)
  | arr (items : List Value)
  | obj (members : List (String × Value))

namespace Value

/-- The member of a name; of several, the last one. -/
def get (v : Value) (key : String) : Option Value :=
  match v with
  | .obj members => (members.reverse.find? fun member => member.1 == key).map (·.2)
  | _ => none

def asU64 : Value → Option UInt64
  | .posInt n => some n
  | _ => none

def asBool : Value → Option Bool
  | .bool b => some b
  | _ => none

mutual
/-- Arrays and objects are nested at most this deep. -/
def depth : Value → ℕ
  | .arr items => itemsDepth items + 1
  | .obj members => membersDepth members + 1
  | _ => 0

def itemsDepth : List Value → ℕ
  | [] => 0
  | v :: vs => max v.depth (itemsDepth vs)

def membersDepth : List (String × Value) → ℕ
  | [] => 0
  | (_, v) :: members => max v.depth (membersDepth members)
end

mutual
/-- All numbers in the value are whole, and the negative ones are negative. -/
def whole : Value → Bool
  | .float _ => false
  | .negInt n => 0 < n && n ≤ 2 ^ 63
  | .arr items => itemsWhole items
  | .obj members => membersWhole members
  | _ => true

def itemsWhole : List Value → Bool
  | [] => true
  | v :: vs => v.whole && itemsWhole vs

def membersWhole : List (String × Value) → Bool
  | [] => true
  | (_, v) :: members => v.whole && membersWhole members
end

end Value

/-- JSON whitespace. -/
def isWs (c : Char) : Bool := c == ' ' || c == '\n' || c == '\r' || c == '\t'

/-! ### Printing -/

/-- What is printed at a line break, by indentation, and after a colon. -/
structure Layout where
  newline : ℕ → List Char
  space : List Char
  newline_ws : ∀ i, ∀ c ∈ newline i, isWs c = true
  space_ws : ∀ c ∈ space, isWs c = true

def compact : Layout where
  newline _ := []
  space := []
  newline_ws _ _ h := absurd h List.not_mem_nil
  space_ws _ h := absurd h List.not_mem_nil

def pretty : Layout where
  newline i := '\n' :: List.replicate (2 * i) ' '
  space := [' ']
  newline_ws i c h := by
    rcases List.mem_cons.mp h with rfl | h
    · rfl
    · rw [List.eq_of_mem_replicate h]; rfl
  space_ws c h := by rw [List.mem_singleton.mp h]; rfl

/-- The hexadecimal digits. -/
def hexDigit (n : ℕ) : Char := n.digitChar

/-- A character inside a string. -/
def escape (c : Char) : List Char :=
  if c = '"' then ['\\', '"']
  else if c = '\\' then ['\\', '\\']
  else if c = '\x08' then ['\\', 'b']
  else if c = '\x0c' then ['\\', 'f']
  else if c = '\n' then ['\\', 'n']
  else if c = '\r' then ['\\', 'r']
  else if c = '\t' then ['\\', 't']
  else if c.toNat < 32 then ['\\', 'u', '0', '0', hexDigit (c.toNat / 16), hexDigit (c.toNat % 16)]
  else [c]

def printChars (cs : List Char) : List Char := cs.flatMap escape ++ ['"']

def printStr (s : String) : List Char := '"' :: printChars s.toList

section
variable (layout : Layout)

mutual
/-- The text of a value at an indentation. -/
def print (i : ℕ) : Value → List Char
  | .null => ['n', 'u', 'l', 'l']
  | .bool true => ['t', 'r', 'u', 'e']
  | .bool false => ['f', 'a', 'l', 's', 'e']
  | .posInt n => Nat.toDigits 10 n.toNat
  | .negInt n => '-' :: Nat.toDigits 10 n
  | .float x => (toString x).toList
  | .str s => printStr s
  | .arr [] => ['[', ']']
  | .arr (v :: vs) => '[' :: layout.newline (i + 1) ++ print (i + 1) v ++ printItems i vs
  | .obj [] => ['{', '}']
  | .obj ((key, v) :: members) =>
    '{' :: layout.newline (i + 1) ++ printStr key ++ ':' :: layout.space ++ print (i + 1) v ++
      printMembers i members

/-- The items of an array after the first, and its end. -/
def printItems (i : ℕ) : List Value → List Char
  | [] => layout.newline i ++ [']']
  | v :: vs => ',' :: layout.newline (i + 1) ++ print (i + 1) v ++ printItems i vs

/-- The members of an object after the first, and its end. -/
def printMembers (i : ℕ) : List (String × Value) → List Char
  | [] => layout.newline i ++ ['}']
  | (key, v) :: members =>
    ',' :: layout.newline (i + 1) ++ printStr key ++ ':' :: layout.space ++ print (i + 1) v ++
      printMembers i members
end

end

/-! ### Reading -/

def skipWs (s : List Char) : List Char := s.dropWhile isWs

def hexVal (c : Char) : Option ℕ :=
  if '0' ≤ c ∧ c ≤ '9' then some (c.toNat - '0'.toNat)
  else if 'a' ≤ c ∧ c ≤ 'f' then some (c.toNat - 'a'.toNat + 10)
  else if 'A' ≤ c ∧ c ≤ 'F' then some (c.toNat - 'A'.toNat + 10)
  else none

/-- The four digits of a `\u` escape. -/
def hex4 : List Char → Option (ℕ × List Char)
  | a :: b :: c :: d :: r =>
    match hexVal a, hexVal b, hexVal c, hexVal d with
    | some a, some b, some c, some d => some (((a * 16 + b) * 16 + c) * 16 + d, r)
    | _, _, _, _ => none
  | _ => none

/-- The character of a `\u` escape; a high surrogate takes its low one along. -/
def unicode (s : List Char) : Option (Char × List Char) :=
  match hex4 s with
  | none => none
  | some (n, r) =>
    if n < 0xD800 ∨ 0xDFFF < n then some (Char.ofNat n, r)
    else if n < 0xDC00 then
      match r with
      | '\\' :: 'u' :: r =>
        match hex4 r with
        | some (m, r) =>
          if 0xDC00 ≤ m ∧ m ≤ 0xDFFF then
            some (Char.ofNat (0x10000 + (n - 0xD800) * 0x400 + (m - 0xDC00)), r)
          else none
        | none => none
      | _ => none
    else none

/-- The character of an escape, after its backslash. -/
def escaped : List Char → Option (Char × List Char)
  | '"' :: r => some ('"', r)
  | '\\' :: r => some ('\\', r)
  | '/' :: r => some ('/', r)
  | 'b' :: r => some ('\x08', r)
  | 'f' :: r => some ('\x0c', r)
  | 'n' :: r => some ('\n', r)
  | 'r' :: r => some ('\r', r)
  | 't' :: r => some ('\t', r)
  | 'u' :: r => unicode r
  | _ => none

/-- The characters of a string up to the closing quote. -/
def parseChars : ℕ → List Char → Option (List Char × List Char)
  | 0, _ => none
  | _, [] => none
  | n + 1, c :: r =>
    if c = '"' then some ([], r)
    else if c = '\\' then
      match escaped r with
      | none => none
      | some (c, r) => (parseChars n r).map fun (cs, r) => (c :: cs, r)
    else if c.toNat < 32 then none
    else (parseChars n r).map fun (cs, r) => (c :: cs, r)

/-- Digits and what follows them. -/
def digits : List Char → List Char × List Char
  | [] => ([], [])
  | c :: r => if c.isDigit then (c :: (digits r).1, (digits r).2) else ([], c :: r)

def leadingZero : List Char → Bool
  | '0' :: _ :: _ => true
  | _ => false

/-- An unsigned whole number without leading zeros. -/
def parseNat (s : List Char) : Option (ℕ × List Char) :=
  if (digits s).1 = [] ∨ leadingZero (digits s).1 then none
  else some (Nat.ofDigitChars 10 (digits s).1 0, (digits s).2)

/-- The fraction of a number: its digits. -/
def fraction : List Char → Option (List Char × List Char)
  | '.' :: r => if (digits r).1 = [] then none else some (digits r)
  | s => some ([], s)

/-- The sign of an exponent. -/
def exponentSign : List Char → Int × List Char
  | '+' :: r => (1, r)
  | '-' :: r => (-1, r)
  | r => (1, r)

/-- The exponent of a number. -/
def exponent : List Char → Option (Int × List Char)
  | [] => some (0, [])
  | e :: r =>
    if e = 'e' ∨ e = 'E' then
      let (ds, r') := digits (exponentSign r).2
      if ds = [] then none else some ((exponentSign r).1 * Nat.ofDigitChars 10 ds 0, r')
    else some (0, e :: r)

def decimal (mantissa : ℕ) (exponent : Int) : Float :=
  if 0 ≤ exponent then Float.ofScientific mantissa false exponent.toNat
  else Float.ofScientific mantissa true (-exponent).toNat

/-- The sign of a number. -/
def sign : List Char → Bool × List Char
  | '-' :: r => (true, r)
  | s => (false, s)

/-- The number of the parts of a text; `bare` when it has neither fraction nor exponent. A whole
    number that fits is kept as one. -/
def number (neg : Bool) (n : ℕ) (ds : List Char) (e : Int) (bare : Bool) : Value :=
  if bare ∧ ¬ neg ∧ n < 2 ^ 64 then .posInt (.ofNat n)
  else if bare ∧ neg ∧ 0 < n ∧ n ≤ 2 ^ 63 then .negInt n
  else
    let x := decimal (n * 10 ^ ds.length + Nat.ofDigitChars 10 ds 0) (e - ds.length)
    .float (if neg then -x else x)

def parseNumber (s : List Char) : Option (Value × List Char) :=
  match parseNat (sign s).2 with
  | none => none
  | some (n, r) =>
    match fraction r with
    | none => none
    | some (ds, r') =>
      match exponent r' with
      | none => none
      | some (e, r'') => some (number (sign s).1 n ds e (r'' == r), r'')

/-- The name of a member and its colon. -/
def parseKey (s : List Char) : Option (String × List Char) :=
  match skipWs s with
  | '"' :: r =>
    match parseChars (r.length + 1) r with
    | none => none
    | some (key, r) =>
      match skipWs r with
      | ':' :: r => some (.ofList key, r)
      | _ => none
  | _ => none

mutual
/-- A value and what follows it. -/
def parse : ℕ → List Char → Option (Value × List Char)
  | 0, _ => none
  | n + 1, s =>
    match skipWs s with
    | 'n' :: 'u' :: 'l' :: 'l' :: r => some (.null, r)
    | 't' :: 'r' :: 'u' :: 'e' :: r => some (.bool true, r)
    | 'f' :: 'a' :: 'l' :: 's' :: 'e' :: r => some (.bool false, r)
    | '"' :: r => (parseChars (r.length + 1) r).map fun (cs, r) => (.str (.ofList cs), r)
    | '[' :: r =>
      match skipWs r with
      | ']' :: r => some (.arr [], r)
      | _ => (parseItems n r).map fun (vs, r) => (.arr vs, r)
    | '{' :: r =>
      match skipWs r with
      | '}' :: r => some (.obj [], r)
      | _ => (parseMembers n r).map fun (members, r) => (.obj members, r)
    | r => parseNumber r

/-- At least one item, and the end of the array. -/
def parseItems : ℕ → List Char → Option (List Value × List Char)
  | 0, _ => none
  | n + 1, s =>
    match parse n s with
    | none => none
    | some (v, r) =>
      match skipWs r with
      | ']' :: r => some ([v], r)
      | ',' :: r => (parseItems n r).map fun (vs, r) => (v :: vs, r)
      | _ => none

/-- At least one member, and the end of the object. -/
def parseMembers : ℕ → List Char → Option (List (String × Value) × List Char)
  | 0, _ => none
  | n + 1, s =>
    match parseKey s with
    | none => none
    | some (key, r) =>
      match parse n r with
      | none => none
      | some (v, r) =>
        match skipWs r with
        | '}' :: r => some ([(key, v)], r)
        | ',' :: r => (parseMembers n r).map fun (members, r) => ((key, v) :: members, r)
        | _ => none
end

/-- A whole text: one value and whitespace. -/
def read (s : List Char) : Option Value :=
  match parse (s.length + 1) s with
  | some (v, r) => if skipWs r = [] then some v else none
  | none => none

/-- The bytes of a text. -/
def utf8 (s : List Char) : List UInt8 := s.flatMap String.utf8EncodeChar

/-- A whole text in bytes. -/
def readBytes (bytes : List UInt8) : Option Value :=
  (String.fromUTF8? bytes.toByteArray).bind fun s => read s.toList

end Json
