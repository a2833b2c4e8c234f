/-!
# Whole numbers in decimal

Reading of unsigned whole numbers below a bound, as settings are given: ASCII digits, at least one,
after an optional plus sign, with any number of leading zeros. The digits are read from the left, so
of a bad digit and a number that is too large the one met first is reported.
-/

namespace TenantStore.Text

/-- The value of an ASCII decimal digit. -/
def digit? (c : Char) : Option Nat :=
  if '0' ≤ c ∧ c ≤ '9' then some (c.toNat - '0'.toNat) else none

/-- The value of an ASCII hexadecimal digit, of either case. -/
def hexDigit? (c : Char) : Option Nat :=
  if '0' ≤ c ∧ c ≤ '9' then some (c.toNat - '0'.toNat)
  else if 'a' ≤ c ∧ c ≤ 'f' then some (c.toNat - 'a'.toNat + 10)
  else if 'A' ≤ c ∧ c ≤ 'F' then some (c.toNat - 'A'.toNat + 10)
  else none

/-- The lower-case hexadecimal digit of a value below sixteen. -/
def hexDigit (n : Nat) : Char :=
  if n < 10 then Char.ofNat ('0'.toNat + n) else Char.ofNat ('a'.toNat + (n - 10))

/-- Why a text is no whole number below the bound. -/
inductive NumeralError where
  /-- There is no character at all. -/
  | empty
  /-- A character is no digit, or the sign stands alone. -/
  | invalidDigit
  /-- The number reaches the bound. -/
  | tooLarge
  deriving DecidableEq, Repr

/-- The wording of a refusal. -/
def NumeralError.message : NumeralError → String
  | .empty => "cannot parse integer from empty string"
  | .invalidDigit => "invalid digit found in string"
  | .tooLarge => "number too large to fit in target type"

/-- Reads digits onto the number read so far, as long as it stays below the bound. -/
def readDigits (bound : Nat) : Nat → List Char → Except NumeralError Nat
  | n, [] => .ok n
  | n, c :: cs =>
    match digit? c with
    | none => .error .invalidDigit
    | some d => if 10 * n + d < bound then readDigits bound (10 * n + d) cs else .error .tooLarge

/-- Reads a whole number below the bound. -/
def readNat (bound : Nat) (s : String) : Except NumeralError Nat :=
  match s.toList with
  | [] => .error .empty
  | ['+'] => .error .invalidDigit
  | '+' :: cs => readDigits bound 0 cs
  | cs => readDigits bound 0 cs

/-- A number that was read stays below the bound. -/
theorem readDigits_lt {bound : Nat} {cs : List Char} {n m : Nat} (hn : n < bound)
    (h : readDigits bound n cs = .ok m) : m < bound := by
  induction cs generalizing n with
  | nil =>
    cases h
    exact hn
  | cons c cs ih =>
    simp only [readDigits] at h
    split at h
    · cases h
    · split at h
      · rename_i hlt
        exact ih hlt h
      · cases h

end TenantStore.Text
