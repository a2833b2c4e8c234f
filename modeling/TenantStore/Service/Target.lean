import TenantStore.Text.Numeral
import TenantStore.Text.Split

/-!
# Targets of requests

The target of a request names a path; a query behind it does not count. The path is cut into
segments before any escape is decoded, so an escaped slash is a character of its segment.
`Target.decode?` decodes the escapes of a segment, which has to be UTF-8 then.
-/

namespace TenantStore.Target

/-- The path of a target. -/
def path (target : String) : List Char :=
  target.toList.takeWhile fun c => c ≠ '?' ∧ c ≠ '#'

/-- The segments of a path that starts with a slash. -/
def segments (target : String) : List String :=
  match path target with
  | '/' :: cs => (Text.pieces '/' cs).map String.ofList
  | _ => []

/-- The value of a byte that is a hexadecimal digit. -/
def hexByte? (b : UInt8) : Option Nat :=
  Text.hexDigit? (Char.ofNat b.toNat)

/-- The byte of an escape. -/
def escaped? (high low : UInt8) : Option UInt8 := do
  return UInt8.ofNat (16 * (← hexByte? high) + (← hexByte? low))

/-- Replaces escapes by the bytes that they stand for; a percent sign without two hexadecimal digits
behind it stands for itself. -/
def decodeBytes : List UInt8 → List UInt8
  | a :: b :: c :: rest =>
    if a = 0x25 then
      match escaped? b c with
      | some byte => byte :: decodeBytes rest
      | none => a :: decodeBytes (b :: c :: rest)
    else a :: decodeBytes (b :: c :: rest)
  | bytes => bytes

/-- The text of a segment, if it is UTF-8. -/
def decode? (segment : String) : Option String :=
  String.fromUTF8? ⟨(decodeBytes segment.toUTF8.toList).toArray⟩

end TenantStore.Target
