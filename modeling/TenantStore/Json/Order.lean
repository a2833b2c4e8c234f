import TenantStore.Json.Basic

/-!
# The order of JSON values

Values of one of the kinds number, string, boolean and null compare with each other and with no
other kind: numbers by their nearest binary64 numbers, strings by code points, `false` before
`true`. Arrays and objects do not compare at all.

To sort, every two values need an order: `Json.order` falls back on the ranks of their kinds.
-/

namespace TenantStore.Json

/-- The order of two values that compare. -/
def compare? : Json → Json → Option Ordering
  | .number a, .number b => some (Binary64.compare a.toBinary64 b.toBinary64)
  | .string a, .string b => some (Ord.compare a b)
  | .bool a, .bool b => some (Ord.compare a b)
  | .null, .null => some .eq
  | _, _ => none

/-- The values compare as equal or are the same. -/
def equals (a b : Json) : Bool :=
  compare? a b = some .eq || same a b

/-- The place of the kind of a value among the kinds. -/
def rank : Json → Nat
  | .null => 0
  | .number _ => 1
  | .string _ => 2
  | .object _ => 3
  | .array _ => 4
  | .bool _ => 5

/-- The order of any two values: arrays have the same place, and so have objects. -/
def order (a b : Json) : Ordering :=
  (compare? a b).getD (Ord.compare (rank a) (rank b))

theorem equals_refl (v : Json) : equals v v = true := by
  simp [equals, same_refl]

end TenantStore.Json
