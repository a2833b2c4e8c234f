/-!
# Finite binary64 numbers

Every finite binary64 number is a whole multiple of `2 ^ -1074`, the least positive one. A number is
therefore held as its sign and that multiple, and all arithmetic on it is exact arithmetic on
natural numbers: comparing two numbers compares two integers, and rounding is a division.

`roundDiv_spec` says that division to nearest stays within half a unit. `compare_eq_iff` says that
two numbers compare as equal exactly when they have the same value, so the two zeros do.
-/

namespace TenantStore

/-- A finite binary64 number: `units` counts `2 ^ -1074`, and zero has either sign. -/
structure Binary64 where
  negative : Bool
  units : Nat
  deriving DecidableEq, Repr, Inhabited

namespace Binary64

/-- The unit is `2 ^ -unitExponent`. -/
def unitExponent : Nat := 1074

/-- Numbers of at least `2 ^ 1024` are not finite. -/
def unitsBound : Nat := Nat.pow 2 (1024 + unitExponent)

/-- The number with its sign, in units. -/
def value (x : Binary64) : Int :=
  if x.negative then -(x.units : Int) else x.units

/-- The quotient rounded to the nearest whole number, a half to the even one. -/
def roundDiv (num den : Nat) : Nat :=
  let quotient := num / den
  let rest := 2 * (num % den)
  if den < rest ∨ (den = rest ∧ quotient % 2 = 1) then quotient + 1 else quotient

/-- The binary64 magnitude nearest to `num / den` units: below 53 bits every whole number of units
is one, above that the number keeps its 53 leading bits. -/
def nearestUnits (num den : Nat) : Nat :=
  let whole := num / den
  -- Rounding up to `2 ^ 53` itself is harmless: that number is exact too.
  if whole < Nat.pow 2 53 then roundDiv num den
  else
    let shift := whole.log2 - 52
    roundDiv num (den * Nat.pow 2 shift) * Nat.pow 2 shift

/-- The binary64 number nearest to a whole number. -/
def ofInt (n : Int) : Binary64 :=
  ⟨n < 0, nearestUnits (n.natAbs * Nat.pow 2 unitExponent) 1⟩

/-- The units of the binary64 number nearest to `10 ^ e`. -/
def powerOfTen (e : Nat) : Nat :=
  nearestUnits (Nat.pow 10 e * Nat.pow 2 unitExponent) 1

/-- The product of two magnitudes, rounded. -/
def mulUnits (a b : Nat) : Nat :=
  nearestUnits (a * b) (Nat.pow 2 unitExponent)

/-- The quotient of two magnitudes, rounded. -/
def divUnits (a b : Nat) : Nat :=
  nearestUnits (a * Nat.pow 2 unitExponent) b

/-- The greatest exponent for which the power of ten is finite. -/
def maxPower : Nat := 308

/-- Divides a magnitude by `10 ^ e`, in steps that keep the power finite. -/
def divByPower (units e : Nat) : Nat :=
  if _h : e ≤ maxPower then divUnits units (powerOfTen e)
  else if units = 0 then 0
  else divByPower (divUnits units (powerOfTen maxPower)) (e - maxPower)
termination_by e
decreasing_by simp only [maxPower] at *; omega

/-- The magnitude of `significand * 10 ^ exponent`, or `none` if it is not finite: the significand,
the power of ten and their product or quotient are rounded one after the other. -/
def scale? (significand : Nat) (exponent : Int) : Option Nat :=
  let start := nearestUnits (significand * Nat.pow 2 unitExponent) 1
  if 0 ≤ exponent then
    if exponent ≤ maxPower then
      let units := mulUnits start (powerOfTen exponent.toNat)
      if units < unitsBound then some units else none
    -- Beyond the greatest power only zero stays finite.
    else if start = 0 then some 0
    else none
  else some (divByPower start exponent.natAbs)

/-- The order of values. -/
def compare (x y : Binary64) : Ordering :=
  Ord.compare x.value y.value

/-- Rounding moves a quotient by at most half a unit. -/
theorem roundDiv_spec (num : Nat) {den : Nat} (hden : 0 < den) :
    2 * num ≤ 2 * (roundDiv num den * den) + den ∧
      2 * (roundDiv num den * den) ≤ 2 * num + den := by
  have hdiv := Nat.div_add_mod num den
  have hmod := Nat.mod_lt num hden
  have hcomm : num / den * den = den * (num / den) := Nat.mul_comm _ _
  rw [roundDiv]
  split
  · have hexp : (num / den + 1) * den = num / den * den + den := Nat.succ_mul _ _
    rw [hexp]
    omega
  · omega

/-- Two numbers compare as equal exactly when they have the same value. -/
theorem compare_eq_iff {x y : Binary64} : compare x y = .eq ↔ x.value = y.value := by
  simp [compare]

end Binary64
end TenantStore
