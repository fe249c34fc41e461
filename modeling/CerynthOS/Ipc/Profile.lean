import Mathlib

/-! The performance profiles shared by the daemon, the command line and the policy engine, and
    their textual form. -/

namespace CerynthOS.Ipc

/-- A scheduler performance profile. -/
inductive Profile where
  | balanced | interactive | performance | background
  deriving DecidableEq, Repr

/-- All profiles in declaration order. -/
def Profile.all : List Profile := [.balanced, .interactive, .performance, .background]

instance : ToString Profile where
  toString
    | .balanced => "balanced"
    | .interactive => "interactive"
    | .performance => "performance"
    | .background => "background"

/-- Lowercasing one character, as far as a comparison with ASCII text can see it: besides `A`-`Z`
    only the Kelvin sign and the dotted capital I have ASCII letters in their lowercase form, and
    all other characters outside ASCII keep a lowercase form outside ASCII. -/
def lowercaseChar (c : Char) : List Char :=
  if c.isUpper then [c.toLower]
  else if c = '\u212A' then ['k']
  else if c = '\u0130' then ['i', '\u0307']
  else [c]

/-- `str::to_lowercase`, up to what `lowercaseChar` keeps. -/
def toLowercase (s : String) : String := .ofList (s.toList.flatMap lowercaseChar)

/-- `Profile::from_str`. -/
def Profile.fromStr (s : String) : Except String Profile :=
  match toLowercase s with
  | "balanced" => .ok .balanced
  | "interactive" => .ok .interactive
  | "performance" => .ok .performance
  | "background" => .ok .background
  | _ => .error s!"unknown profile: {s}"

/-- Every profile is read back from the text it is displayed as. -/
theorem fromStr_toString (p : Profile) : Profile.fromStr (toString p) = .ok p := by
  cases p <;> rfl

end CerynthOS.Ipc
