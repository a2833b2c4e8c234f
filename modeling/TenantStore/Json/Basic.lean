import TenantStore.Binary64.Basic
import TenantStore.Json.Members

/-!
# JSON values

A number is a whole number of 64 bits or a finite binary64 number, and the two stay apart: `1` is
not `1.0`. The members of an object are sorted by name, see `TenantStore.Members`.

`Json.same` is the equality of stored values. It is equality of the value (`same_refl`), except that
the two zeros of binary64 are the same.
-/

namespace TenantStore

/-- A number of a JSON text. -/
inductive Number where
  /-- A whole number, written without a point and an exponent. -/
  | whole (n : Int)
  /-- A binary64 number. -/
  | real (x : Binary64)
  deriving DecidableEq, Repr, Inhabited

namespace Number

/-- The binary64 number nearest to the number. -/
def toBinary64 : Number → Binary64
  | whole n => Binary64.ofInt n
  | real x => x

/-- A whole number never is a binary64 number; of those, zeros are the same. -/
def same : Number → Number → Bool
  | whole n, whole m => n = m
  | real x, real y => x.value = y.value
  | _, _ => false

theorem same_refl (n : Number) : same n n = true := by
  cases n <;> simp [same]

end Number

/-- A JSON value. -/
inductive Json where
  | null
  | bool (b : Bool)
  | number (n : Number)
  | string (s : String)
  | array (items : List Json)
  | object (members : List (String × Json))
  deriving Repr, Inhabited

namespace Json

mutual

/-- Equality of values is decided structurally. -/
def decEq : (a b : Json) → Decidable (a = b)
  | .null, b => by cases b <;> first | exact isTrue rfl | exact isFalse (by simp)
  | .bool x, b => by
    cases b
    case bool y => exact decidable_of_iff (x = y) (by simp)
    all_goals exact isFalse (by simp)
  | .number x, b => by
    cases b
    case number y => exact decidable_of_iff (x = y) (by simp)
    all_goals exact isFalse (by simp)
  | .string x, b => by
    cases b
    case string y => exact decidable_of_iff (x = y) (by simp)
    all_goals exact isFalse (by simp)
  | .array xs, b => by
    cases b
    case array ys => exact @decidable_of_iff _ (xs = ys) (by simp) (decEqItems xs ys)
    all_goals exact isFalse (by simp)
  | .object xs, b => by
    cases b
    case object ys => exact @decidable_of_iff _ (xs = ys) (by simp) (decEqMembers xs ys)
    all_goals exact isFalse (by simp)

/-- Equality of items is decided one after the other. -/
def decEqItems : (xs ys : List Json) → Decidable (xs = ys)
  | [], [] => isTrue rfl
  | [], _ :: _ => isFalse (by simp)
  | _ :: _, [] => isFalse (by simp)
  | x :: xs, y :: ys =>
    @decidable_of_iff _ (x = y ∧ xs = ys) (by simp)
      (@instDecidableAnd _ _ (decEq x y) (decEqItems xs ys))

/-- Equality of members is decided one after the other. -/
def decEqMembers : (xs ys : List (String × Json)) → Decidable (xs = ys)
  | [], [] => isTrue rfl
  | [], _ :: _ => isFalse (by simp)
  | _ :: _, [] => isFalse (by simp)
  | (k, x) :: xs, (l, y) :: ys =>
    @decidable_of_iff _ ((k = l ∧ x = y) ∧ xs = ys) (by simp)
      (@instDecidableAnd _ _ (@instDecidableAnd _ _ inferInstance (decEq x y)) (decEqMembers xs ys))

end

instance : DecidableEq Json := decEq

mutual

/-- The two are the same stored value: equal but for the sign of a binary64 zero. -/
def same : Json → Json → Bool
  | .null, .null => true
  | .bool a, .bool b => a = b
  | .number n, .number m => n.same m
  | .string s, .string t => s = t
  | .array xs, .array ys => sameItems xs ys
  | .object xs, .object ys => sameMembers xs ys
  | _, _ => false

/-- The same items in the same order. -/
def sameItems : List Json → List Json → Bool
  | [], [] => true
  | x :: xs, y :: ys => same x y && sameItems xs ys
  | _, _ => false

/-- The same values under the same names. -/
def sameMembers : List (String × Json) → List (String × Json) → Bool
  | [], [] => true
  | (k, x) :: xs, (l, y) :: ys => decide (k = l) && same x y && sameMembers xs ys
  | _, _ => false

end

mutual

theorem same_refl : (v : Json) → same v v = true
  | .null => rfl
  | .bool _ => by simp [same]
  | .number n => by simp [same, Number.same_refl]
  | .string _ => by simp [same]
  | .array xs => by simp [same, sameItems_refl xs]
  | .object xs => by simp [same, sameMembers_refl xs]

theorem sameItems_refl : (xs : List Json) → sameItems xs xs = true
  | [] => rfl
  | x :: xs => by simp [sameItems, same_refl x, sameItems_refl xs]

theorem sameMembers_refl : (xs : List (String × Json)) → sameMembers xs xs = true
  | [] => rfl
  | (_, x) :: xs => by simp [sameMembers, same_refl x, sameMembers_refl xs]

end

mutual

/-- Every object in the value has its members sorted by name. -/
def Canonical : Json → Prop
  | .array xs => CanonicalItems xs
  | .object ms => Members.Sorted ms ∧ CanonicalMembers ms
  | _ => True

/-- Every item is canonical. -/
def CanonicalItems : List Json → Prop
  | [] => True
  | x :: xs => Canonical x ∧ CanonicalItems xs

/-- Every member is canonical. -/
def CanonicalMembers : List (String × Json) → Prop
  | [] => True
  | (_, x) :: xs => Canonical x ∧ CanonicalMembers xs

end

/-- A whole number. -/
def ofInt (n : Int) : Json := .number (.whole n)

/-- A natural number. -/
def ofNat (n : Nat) : Json := ofInt n

/-- An object with the given members, the last of a name counting. -/
def ofMembers (pairs : List (String × Json)) : Json := .object (Members.ofList pairs)

/-- The value, or null if there is none. -/
def ofOption {α : Type} (f : α → Json) : Option α → Json
  | some a => f a
  | none => .null

/-- The text of a string. -/
def string? : Json → Option String
  | .string s => some s
  | _ => none

/-- The items of an array. -/
def items? : Json → Option (List Json)
  | .array xs => some xs
  | _ => none

/-- The members of an object. -/
def members? : Json → Option (Members Json)
  | .object ms => some ms
  | _ => none

/-- The value of a member, if the value is an object and has it. -/
def member? (v : Json) (name : String) : Option Json :=
  v.members?.bind (Members.get? · name)

/-- Unsigned whole numbers are those below `2 ^ 64`. -/
def natural? : Json → Option Nat
  | .number (.whole n) => if 0 ≤ n ∧ n < Int.pow 2 64 then some n.toNat else none
  | _ => none

/-- Signed whole numbers are those from `-2 ^ 63` up to below `2 ^ 63`. -/
def integer? : Json → Option Int
  | .number (.whole n) => if -Int.pow 2 63 ≤ n ∧ n < Int.pow 2 63 then some n else none
  | _ => none

end Json
end TenantStore
