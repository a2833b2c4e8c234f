import TenantStore.Binary64.Basic

/-!
# The shortest decimal text of a number

`shortest` finds the decimal with the fewest digits that rounds to a given binary64 magnitude and,
of those with that many digits, the one nearest to it, an exact tie going to the even last digit. It
looks only at the two neighbours of the magnitude on each decimal grid, coarse grids first: if any
point of a grid rounds to the magnitude, then one of these two does.

`Layout` holds the decisions of a written form, and `Layout.json` those of JSON text.
-/

namespace TenantStore.Binary64

/-- The binary exponent of the last place of a magnitude that is held with 53 bits. -/
def lastPlace (units : Nat) : Nat :=
  units.log2 - 52

/-- Four times the ends of the interval of reals that round to the magnitude. Its lower half is
shorter below a power of two, where the numbers start to lie closer. -/
def roundingInterval (units : Nat) : Nat × Nat :=
  let place := lastPlace units
  let step := Nat.pow 2 place
  let below := if place ≠ 0 ∧ units = Nat.pow 2 (52 + place) then step else 2 * step
  (4 * units - below, 4 * units + 2 * step)

/-- The ends of the interval round to the magnitude exactly when its last bit is even. -/
def roundsTo (units num den : Nat) : Bool :=
  let (low, high) := roundingInterval units
  let point := 4 * num * Nat.pow 2 unitExponent
  if units / Nat.pow 2 (lastPlace units) % 2 = 0 then low * den ≤ point && point ≤ high * den
  else low * den < point && point < high * den

/-- The decimal exponent of the leading digit of a magnitude that is not zero. -/
def leadingExponent (units : Nat) : Int :=
  let whole := units / Nat.pow 2 unitExponent
  if whole = 0 then
    match (List.range 400).find? fun t => Nat.pow 2 unitExponent ≤ units * Nat.pow 10 t with
    | some t => -(t : Int)
    | none => 0
  else ((Nat.toDigits 10 whole).length : Int) - 1

/-- The fraction `significand * 10 ^ exponent`. -/
def decimalFraction (significand : Nat) (exponent : Int) : Nat × Nat :=
  if 0 ≤ exponent then (significand * Nat.pow 10 exponent.toNat, 1)
  else (significand, Nat.pow 10 exponent.natAbs)

/-- The neighbours of the magnitude on the grid of multiples of `10 ^ exponent` that round to it,
the nearer first. -/
def onGrid (units : Nat) (exponent : Int) : List Nat :=
  let (num, den) := decimalFraction 1 exponent
  let scaled := units * den
  let step := num * Nat.pow 2 unitExponent
  let floor := scaled / step
  let rest := 2 * (scaled % step)
  let ordered :=
    if rest < step ∨ (rest = step ∧ floor % 2 = 0) then [floor, floor + 1] else [floor + 1, floor]
  ordered.filter fun c =>
    let (num, den) := decimalFraction c exponent
    roundsTo units num den

/-- Takes trailing zeros into the exponent. -/
def stripZeros : Nat → Nat → Int → Nat × Int
  | 0, significand, exponent => (significand, exponent)
  | fuel + 1, significand, exponent =>
    if significand ≠ 0 ∧ significand % 10 = 0 then stripZeros fuel (significand / 10) (exponent + 1)
    else (significand, exponent)

/-- The significand and the exponent of the shortest decimal that rounds to the magnitude. -/
def shortest (units : Nat) : Nat × Int :=
  if units = 0 then (0, 0)
  else
    let leading := leadingExponent units
    let grids := (List.range 17).map fun (n : Nat) => leading - (n : Int)
    match grids.findSome? fun e => (onGrid units e).head?.map fun c => (c, e) with
    | some (c, e) => stripZeros 20 c e
    | none => (0, 0)

/-- The decisions of a written form of decimals. -/
structure Layout where
  /-- The least exponent of the leading digit that is written positionally. -/
  leastPositional : Int
  /-- The greatest exponent of the leading digit that is written positionally. -/
  greatestPositional : Int
  /-- What follows a positional number without a fraction. -/
  wholeMark : String
  /-- What precedes an exponent that is not negative. -/
  positiveExponent : String
  /-- What precedes the magnitude of a negative exponent. -/
  negativeExponent : String

/-- JSON text: positional from `10 ^ -5` up to below `10 ^ 16` with `.0` after a whole number,
beyond that an exponent that always has a sign. -/
def Layout.json : Layout where
  leastPositional := -5
  greatestPositional := 15
  wholeMark := ".0"
  positiveExponent := "e+"
  negativeExponent := "e-"

/-- The text of `digits * 10 ^ exponent` without a sign. -/
def Layout.text (layout : Layout) (significand : Nat) (exponent : Int) : String :=
  let digits := Nat.toDigits 10 significand
  let leading := exponent + digits.length - 1
  if layout.leastPositional ≤ leading ∧ leading ≤ layout.greatestPositional then
    if 0 ≤ exponent then
      String.ofList (digits ++ List.replicate exponent.toNat '0') ++ layout.wholeMark
    else if 0 ≤ leading then
      let whole := digits.take (leading.toNat + 1)
      String.ofList (whole ++ '.' :: digits.drop whole.length)
    else
      String.ofList ('0' :: '.' :: (List.replicate (leading.natAbs - 1) '0' ++ digits))
  else
    let mantissa :=
      match digits with
      | [] => []
      | [d] => [d]
      | d :: rest => d :: '.' :: rest
    let mark := if leading < 0 then layout.negativeExponent else layout.positiveExponent
    String.ofList mantissa ++ mark ++ toString leading.natAbs

/-- The shortest text in a layout. -/
def text (layout : Layout) (x : Binary64) : String :=
  let (significand, exponent) := shortest x.units
  let magnitude := layout.text significand exponent
  if x.negative then "-" ++ magnitude else magnitude

example : text .json ⟨true, 0⟩ = "-0.0" := by decide +kernel
example : text .json (ofInt 1) = "1.0" := by decide +kernel

end TenantStore.Binary64
