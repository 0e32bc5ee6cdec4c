/-!
# Shortest decimals

Among the decimal fractions that lie closer to a binary fraction than to its neighbours, this module
finds one with the fewest digits, and of these the nearest.

For one digit, two digits and so on, the two points of the decimal grid next to the value are tested
in exact arithmetic; the first grid with a hit wins. If a grid has a point in the interval at all,
one of these two is in it.
-/

namespace UrlRouting.Decimal

/-- A decimal fraction, `digits * 10 ^ exponent`. -/
structure Fraction where
  digits : Nat
  exponent : Int
  deriving DecidableEq, Repr

/-- A value between two bounds, all of them over one denominator; `closed` says whether the bounds
belong to the interval. -/
structure Interval where
  low : Nat
  value : Nat
  high : Nat
  denominator : Nat
  closed : Bool
  deriving DecidableEq, Repr

/-- The interval in units of a power of ten. -/
def Interval.inUnits (i : Interval) (exponent : Int) : Interval :=
  if 0 ≤ exponent then { i with denominator := i.denominator * Nat.pow 10 exponent.toNat }
  else
    let scale := Nat.pow 10 (-exponent).toNat
    { i with low := i.low * scale, value := i.value * scale, high := i.high * scale }

/-- The whole number in an interval that is nearest to its value; of two, the even one. -/
def Interval.nearest? (i : Interval) : Option Nat :=
  let d := i.denominator
  let n := i.value / d
  let below := if i.closed then i.low ≤ n * d else i.low < n * d
  let above := if i.closed then (n + 1) * d ≤ i.high else (n + 1) * d < i.high
  let rest := i.value - n * d
  if below ∧ above then
    if 2 * rest < d then some n
    else if d < 2 * rest then some (n + 1)
    else some (if n % 2 = 0 then n else n + 1)
  else if below then some n
  else if above then some (n + 1)
  else none

/-- The number of decimal digits. -/
def digitCount (n : Nat) : Nat := n.repr.length

/-- The number of places by which a fraction has to be moved to reach 1, at most `fuel`. -/
def placesBelowOne (fuel numerator denominator : Nat) : Nat :=
  match fuel with
  | 0 => 0
  | fuel + 1 =>
    if denominator ≤ numerator then 0 else placesBelowOne fuel (10 * numerator) denominator + 1

/-- The exponent of the power of ten just above a value. -/
def Interval.magnitude (i : Interval) : Int :=
  if i.denominator ≤ i.value then digitCount (i.value / i.denominator)
  else 1 - (placesBelowOne 400 i.value i.denominator : Int)

/-- Takes zeros off the end of a number, at most `fuel`, and counts them. -/
def dropZeros (fuel n : Nat) : Nat × Nat :=
  match fuel with
  | 0 => (n, 0)
  | fuel + 1 =>
    if n % 10 = 0 then
      let (n, zeros) := dropZeros fuel (n / 10)
      (n, zeros + 1)
    else (n, 0)

/-- The fraction without zeros at its end. -/
def Fraction.reduced (f : Fraction) : Fraction :=
  let (digits, zeros) := dropZeros (digitCount f.digits) f.digits
  ⟨digits, f.exponent + zeros⟩

/-- The first hit on grids of the given numbers of digits. -/
def shortestFrom (i : Interval) : List Nat → Option Fraction
  | [] => none
  | digits :: more =>
    let exponent := i.magnitude - digits
    match (i.inUnits exponent).nearest? with
    | some n => some (Fraction.reduced ⟨n, exponent⟩)
    | none => shortestFrom i more

/-- The decimal with the fewest digits in an interval. Seventeen digits tell all binary fractions of
53 bits apart. -/
def shortest? (i : Interval) : Option Fraction := shortestFrom i (List.range' 1 17)

end UrlRouting.Decimal
