import TenantStore.Text.Numeral
import TenantStore.Text.Split

/-!
# Internet addresses

A host is an IPv4 address with dots, or an IPv6 address in brackets, which may have a zone behind a
percent sign. Parts of an IPv4 address have no leading zeros. An IPv6 address has eight groups of up
to four hexadecimal digits; `::` stands for at least one group of zeros, and the last two groups may
be written as an IPv4 address.

`SocketAddress.text` writes addresses as RFC 5952 asks for: without leading zeros, in lower case,
and with `::` for the first of the longest runs of at least two zero groups.
-/

namespace TenantStore

/-- The address of a host. -/
inductive Address where
  /-- Four numbers below 256. -/
  | v4 (parts : List Nat)
  /-- Eight numbers below 65536, and the zone, zero if there is none. -/
  | v6 (groups : List Nat) (zone : Nat)
  deriving DecidableEq, Repr

namespace Address

/-- A part of an IPv4 address. -/
def part? (cs : List Char) : Option Nat :=
  if cs.length ≤ 3 ∧ (cs.head? = some '0' → cs.length = 1) then
    match cs with
    | [] => none
    | _ => (Text.readDigits 256 0 cs).toOption
  else none

/-- The parts of an IPv4 address. -/
def parts? (cs : List Char) : Option (List Nat) :=
  match Text.pieces '.' cs with
  | [a, b, c, d] => [a, b, c, d].mapM part?
  | _ => none

/-- A group of an IPv6 address. -/
def group? (cs : List Char) : Option Nat :=
  if cs.length ≤ 4 then
    match cs with
    | [] => none
    | _ => cs.foldlM (fun n c => (Text.hexDigit? c).map (16 * n + ·)) 0
  else none

/-- The groups at the end of an address, of which the last two may be written as an IPv4 address. -/
def tailGroups? : List (List Char) → Option (List Nat)
  | [] => some []
  | [last] =>
    match parts? last with
    | some [a, b, c, d] => some [256 * a + b, 256 * c + d]
    | _ => (group? last).map ([·])
  | piece :: rest => do
    let g ← group? piece
    return g :: (← tailGroups? rest)

/-- The pieces between colons; the empty text has none. -/
def pieces (cs : List Char) : List (List Char) :=
  if cs = [] then [] else Text.pieces ':' cs

/-- The text before and after the first double colon. -/
def splitAtDouble : List Char → Option (List Char × List Char)
  | ':' :: ':' :: back => some ([], back)
  | c :: cs => (splitAtDouble cs).map fun (front, back) => (c :: front, back)
  | [] => none

/-- The groups of an IPv6 address. -/
def groups? (cs : List Char) : Option (List Nat) := do
  match splitAtDouble cs with
  | none =>
    let groups ← tailGroups? (pieces cs)
    if groups.length = 8 then some groups else none
  | some (front, back) =>
    let head ← (pieces front).mapM group?
    let tail ← tailGroups? (pieces back)
    -- The double colon stands for one group at least.
    if head.length + tail.length < 8 then
      some (head ++ List.replicate (8 - (head.length + tail.length)) 0 ++ tail)
    else none

/-- The zone behind a percent sign. -/
def zone? (cs : List Char) : Option Nat :=
  if cs = [] then none else (Text.readDigits (Nat.pow 2 32) 0 cs).toOption

/-- The address between brackets. -/
def v6? (cs : List Char) : Option Address :=
  match Text.splitAtFirst '%' cs with
  | none => (groups? cs).map (.v6 · 0)
  | some (address, zone) => do return .v6 (← groups? address) (← zone? zone)

/-- Reads the address of a host. -/
def read? (host : String) : Option Address :=
  match host.toList with
  | '[' :: cs => if cs.getLast? = some ']' then v6? cs.dropLast else none
  | cs => (parts? cs).map .v4

/-- The text of an IPv4 address. -/
def partsText (parts : List Nat) : String :=
  String.intercalate "." (parts.map toString)

/-- The text of groups with colons between them. -/
def groupsText (groups : List Nat) : String :=
  String.intercalate ":" (groups.map fun g => String.ofList (Nat.toDigits 16 g))

/-- The number of zeros at the start of a list. -/
def leadingZeros : List Nat → Nat
  | 0 :: gs => leadingZeros gs + 1
  | _ => 0

/-- The place and the length of the first of the longest runs of zeros, from a position on. -/
def longestZeros (position : Nat) : List Nat → Nat × Nat
  | [] => (position, 0)
  | g :: gs =>
    let here := leadingZeros (g :: gs)
    let (start, length) := longestZeros (position + 1) gs
    if length ≤ here then (position, here) else (start, length)

/-- The text of an IPv6 address. An address that embeds an IPv4 address shows it. -/
def v6Text (groups : List Nat) : String :=
  match groups with
  | [0, 0, 0, 0, 0, 65535, a, b] => "::ffff:" ++ partsText [a / 256, a % 256, b / 256, b % 256]
  | _ =>
    let (start, length) := longestZeros 0 groups
    if 1 < length then
      groupsText (groups.take start) ++ "::" ++ groupsText (groups.drop (start + length))
    else groupsText groups

end Address

/-- The address of a host and the number of a socket on it. -/
structure SocketAddress where
  address : Address
  socket : Nat
  deriving DecidableEq, Repr

/-- The text of an address with its socket. -/
def SocketAddress.text (a : SocketAddress) : String :=
  let host :=
    match a.address with
    | .v4 parts => Address.partsText parts
    | .v6 groups 0 => "[" ++ Address.v6Text groups ++ "]"
    | .v6 groups zone => "[" ++ Address.v6Text groups ++ "%" ++ toString zone ++ "]"
  host ++ ":" ++ toString a.socket

end TenantStore
