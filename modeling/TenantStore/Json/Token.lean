import TenantStore.Json.Basic
import TenantStore.Text.Numeral

/-!
# Tokens of a JSON text

`Token.scan` cuts a text into tokens with a machine that reads one character at a time. It never
fails: where no token can go on, the list ends with `Token.invalid`, so that a reader of the tokens
meets the flaw only when it gets there.

Two judgements are left to the reader, because text that is skipped is not held to them: whether a
number is in range (`Numeral.number?`), and whether the surrogate escapes of a string pair up.
-/

namespace TenantStore.Json

/-- The parts of a number as they were written. -/
structure Numeral where
  negative : Bool
  /-- The digits before the point. -/
  whole : List Nat
  /-- The digits after the point. -/
  fraction : List Nat
  /-- The sign of the exponent, `true` for minus, and its digits. -/
  exponent : Option (Bool × List Nat)
  /-- There is a point or an exponent. -/
  isReal : Bool
  deriving Repr, DecidableEq

namespace Numeral

/-- The number that digits write. -/
def digitsValue (ds : List Nat) : Nat :=
  ds.foldl (fun n d => 10 * n + d) 0

/-- Takes the digits that keep the number below `2 ^ 64`, and counts the digits left over. -/
def leading : Nat → List Nat → Nat × Nat
  | n, [] => (n, 0)
  | n, d :: ds => if 10 * n + d < Nat.pow 2 64 then leading (10 * n + d) ds else (n, ds.length + 1)

/-- The significand and the decimal exponent: the leading digits that fit 64 bits, where left over
digits before the point count as zeros and left over digits after it as nothing. -/
def scaled (lit : Numeral) : Nat × Int :=
  let (n, dropped) := leading 0 lit.whole
  let (significand, unread) := leading n lit.fraction
  let written : Int :=
    match lit.exponent with
    | some (true, ds) => -(digitsValue ds : Int)
    | some (false, ds) => digitsValue ds
    | none => 0
  (significand, written + dropped - ((lit.fraction.length - unread : Nat) : Int))

/-- The number, or `none` if its magnitude is not finite. Without a point and an exponent it is
whole if it fits 64 bits and is not a negative zero. -/
def number? (lit : Numeral) : Option Number :=
  let n := digitsValue lit.whole
  if !lit.isReal && !lit.negative && decide (n < Nat.pow 2 64) then some (.whole n)
  else if !lit.isReal && lit.negative && decide (0 < n ∧ n ≤ Nat.pow 2 63) then some (.whole (-n))
  else
    let (significand, exponent) := lit.scaled
    (Binary64.scale? significand exponent).map fun units => .real ⟨lit.negative, units⟩

end Numeral

/-- A token of a JSON text. -/
inductive Token where
  | openArray
  | closeArray
  | openObject
  | closeObject
  | colon
  | comma
  /-- One of the words `null`, `true` and `false`. -/
  | word (value : Json)
  | number (lit : Numeral)
  /-- A string, or `none` if it has a surrogate escape without its partner. -/
  | string (text : Option String)
  /-- No token starts here, or one breaks off. -/
  | invalid
  deriving Repr, DecidableEq

namespace Token

/-- How far a number has been read. -/
inductive NumberPart where
  /-- After the minus sign. -/
  | sign
  /-- After a leading zero. -/
  | zero
  | whole
  /-- After the point. -/
  | point
  | fraction
  /-- After the letter of the exponent. -/
  | exponent
  /-- After the sign of the exponent. -/
  | exponentSign
  | exponentDigits
  deriving DecidableEq

/-- The number may end here. -/
def NumberPart.complete : NumberPart → Bool
  | .zero | .whole | .fraction | .exponentDigits => true
  | _ => false

/-- What has been read of a string. -/
structure StringPart where
  /-- The characters, last first. -/
  read : List Char := []
  /-- A leading surrogate that waits for its partner. -/
  pending : Option Nat := none
  /-- Some surrogate has no partner. -/
  broken : Bool := false

/-- Where the machine stands. -/
inductive Mode where
  /-- Between tokens. -/
  | between
  /-- Inside a word: the characters still to come. -/
  | word (rest : List Char) (value : Json)
  /-- Inside a number; the digits are held last first. -/
  | number (lit : Numeral) (part : NumberPart)
  /-- Inside a string. -/
  | string (read : StringPart)
  /-- After a backslash. -/
  | escape (read : StringPart)
  /-- Inside a `\u` escape: the digits still to come and the value so far. -/
  | unicode (read : StringPart) (digits : Nat) (value : Nat)
  /-- After a flaw. -/
  | stopped

/-- The token of a number whose digits were held last first. -/
def ofNumeral (lit : Numeral) : Token :=
  .number
    { lit with
      whole := lit.whole.reverse
      fraction := lit.fraction.reverse
      exponent := lit.exponent.map fun (negative, ds) => (negative, ds.reverse) }

/-- The first character of a token, or a blank between tokens. -/
def start (c : Char) : List Token × Mode :=
  if c = ' ' ∨ c = '\n' ∨ c = '\t' ∨ c = '\r' then ([], .between)
  else if c = '[' then ([.openArray], .between)
  else if c = ']' then ([.closeArray], .between)
  else if c = '\x7b' then ([.openObject], .between)
  else if c = '\x7d' then ([.closeObject], .between)
  else if c = ':' then ([.colon], .between)
  else if c = ',' then ([.comma], .between)
  else if c = '"' then ([], .string {})
  else if c = 'n' then ([], .word ['u', 'l', 'l'] .null)
  else if c = 't' then ([], .word ['r', 'u', 'e'] (.bool true))
  else if c = 'f' then ([], .word ['a', 'l', 's', 'e'] (.bool false))
  else if c = '-' then ([], .number ⟨true, [], [], none, false⟩ .sign)
  else
    match Text.digit? c with
    | some 0 => ([], .number ⟨false, [0], [], none, false⟩ .zero)
    | some d => ([], .number ⟨false, [d], [], none, false⟩ .whole)
    | none => ([.invalid], .stopped)

/-- A character that may go on a number; one that does not ends it, if it may end. -/
def stepNumber (lit : Numeral) (part : NumberPart) (c : Char) : List Token × Mode :=
  let ended : List Token × Mode :=
    if part.complete then
      let (tokens, mode) := start c
      (ofNumeral lit :: tokens, mode)
    else ([.invalid], .stopped)
  match part, Text.digit? c with
  | .sign, some 0 => ([], .number { lit with whole := [0] } .zero)
  | .sign, some d => ([], .number { lit with whole := [d] } .whole)
  | .zero, some _ => ([.invalid], .stopped)
  | .whole, some d => ([], .number { lit with whole := d :: lit.whole } .whole)
  | .point, some d => ([], .number { lit with fraction := [d] } .fraction)
  | .fraction, some d => ([], .number { lit with fraction := d :: lit.fraction } .fraction)
  | .exponent, some d => ([], .number { lit with exponent := some (false, [d]) } .exponentDigits)
  | .exponentSign, some d | .exponentDigits, some d =>
    match lit.exponent with
    | some (negative, ds) =>
      ([], .number { lit with exponent := some (negative, d :: ds) } .exponentDigits)
    | none => ([.invalid], .stopped)
  | .exponent, none =>
    if c = '+' then ([], .number { lit with exponent := some (false, []) } .exponentSign)
    else if c = '-' then ([], .number { lit with exponent := some (true, []) } .exponentSign)
    else ended
  | .zero, none | .whole, none =>
    if c = '.' then ([], .number { lit with isReal := true } .point)
    else if c = 'e' ∨ c = 'E' then ([], .number { lit with isReal := true } .exponent)
    else ended
  | .fraction, none =>
    if c = 'e' ∨ c = 'E' then ([], .number lit .exponent) else ended
  | _, none => ended

/-- Takes a character that is written as itself or by a short escape. -/
def StringPart.push (read : StringPart) (c : Char) : StringPart :=
  { read with
    read := c :: read.read
    pending := none
    broken := read.broken || read.pending.isSome }

/-- Takes the code unit of a `\u` escape: a leading surrogate waits for the trailing one. -/
def StringPart.pushUnit (read : StringPart) (unit : Nat) : StringPart :=
  let leading := decide (0xD800 ≤ unit ∧ unit < 0xDC00)
  let trailing := decide (0xDC00 ≤ unit ∧ unit < 0xE000)
  match read.pending with
  | some high =>
    if trailing then
      { read with
        read := Char.ofNat (0x10000 + (high - 0xD800) * 0x400 + (unit - 0xDC00)) :: read.read
        pending := none }
    else { read with pending := none, broken := true }
  | none =>
    if leading then { read with pending := some unit }
    else if trailing then { read with broken := true }
    else { read with read := Char.ofNat unit :: read.read }

/-- The token of a finished string. -/
def StringPart.token (read : StringPart) : Token :=
  if read.broken || read.pending.isSome then .string none
  else .string (some (String.ofList read.read.reverse))

/-- The character that a short escape stands for. -/
def shortEscape? (c : Char) : Option Char :=
  if c = '"' ∨ c = '\\' ∨ c = '/' then some c
  else if c = 'b' then some (Char.ofNat 8)
  else if c = 'f' then some (Char.ofNat 12)
  else if c = 'n' then some '\n'
  else if c = 'r' then some '\r'
  else if c = 't' then some '\t'
  else none

/-- One character of the text. -/
def step : Mode → Char → List Token × Mode
  | .between, c => start c
  | .word [] _, _ => ([.invalid], .stopped)
  | .word [e] value, c => if c = e then ([.word value], .between) else ([.invalid], .stopped)
  | .word (e :: rest) value, c =>
    if c = e then ([], .word rest value) else ([.invalid], .stopped)
  | .number lit part, c => stepNumber lit part c
  | .string read, c =>
    if c = '"' then ([read.token], .between)
    else if c = '\\' then ([], .escape read)
    else if c.toNat < 0x20 then ([.invalid], .stopped)
    else ([], .string (read.push c))
  | .escape read, c =>
    if c = 'u' then ([], .unicode read 4 0)
    else
      match shortEscape? c with
      | some e => ([], .string (read.push e))
      | none => ([.invalid], .stopped)
  | .unicode read digits value, c =>
    match Text.hexDigit? c with
    | some d =>
      if digits ≤ 1 then ([], .string (read.pushUnit (16 * value + d)))
      else ([], .unicode read (digits - 1) (16 * value + d))
    | none => ([.invalid], .stopped)
  | .stopped, _ => ([], .stopped)

/-- The end of the text. -/
def finish : Mode → List Token
  | .between | .stopped => []
  | .number lit part => if part.complete then [ofNumeral lit] else [.invalid]
  | _ => [.invalid]

/-- The tokens of the text from a mode on. -/
def scanFrom : Mode → List Char → List Token
  | mode, [] => finish mode
  | mode, c :: cs =>
    let (tokens, next) := step mode c
    tokens ++ scanFrom next cs

/-- The tokens of a text. -/
def scan (s : String) : List Token :=
  scanFrom .between s.toList

end Token
end TenantStore.Json
