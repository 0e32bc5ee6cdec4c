import UrlRouting.Decimal.Float

/-!
# Scalars

The values that parameters may be given as: texts, truth values, and numbers. A parameter keeps only
the text of its value.
-/

namespace UrlRouting

/-- A value without parts. -/
inductive Scalar
  | text (t : Text)
  | bool (b : Bool)
  | int (n : Int)
  | float (x : Float)

namespace Scalar

/-- The text of a truth value. -/
def boolText (b : Bool) : Text := (if b then "true" else "false").toList

/-- The text of a scalar, with floating-point numbers written by a given function. -/
def textWith (float : Float → Text) : Scalar → Text
  | .text t => t
  | .bool b => boolText b
  | .int n => (toString n).toList
  | .float x => float x

/-- The text of a scalar as the value of a parameter. -/
def toText (s : Scalar) : Text := s.textWith Decimal.positional

/-- The least and the greatest whole number that are kept exactly. -/
def leastInt : Int := -Int.pow 2 63

/-- The greatest whole number that is kept exactly. -/
def greatestInt : Int := Int.pow 2 64 - 1

/-- The number that digits write. -/
def number (digits : Text) : Nat := Nat.ofDigitChars 10 digits 0

/-- The floating-point number nearest to `digits * 10 ^ exponent`. Exponents are cut where the
result is zero or infinite anyway. -/
def floatOf (negative : Bool) (digits : Text) (exponent : Int) : Float :=
  let bound : Int := digits.length + 400
  let exponent := max (-bound) (min bound exponent)
  let x := Float.ofScientific (number digits) (exponent < 0) exponent.natAbs
  if negative then -x else x

/-- The scalar of a JSON numeral: a whole number if it is written as one and kept exactly, otherwise
a floating-point number. Minus zero is the latter. -/
def ofNumeral (numeral : Text) : Scalar :=
  let (negative, t) :=
    match numeral with
    | '-' :: t => (true, t)
    | t => (false, t)
  let whole := t.takeWhile Char.isDigit
  match t.dropWhile Char.isDigit with
  | [] =>
    let n : Int := if negative then -(number whole : Int) else number whole
    if leastInt ≤ n ∧ n ≤ greatestInt ∧ ¬(negative ∧ n = 0) then .int n
    else .float (floatOf negative whole 0)
  | rest =>
    let (fraction, exponent) :=
      match rest with
      | '.' :: t => (t.takeWhile Char.isDigit, t.dropWhile Char.isDigit)
      | t => ([], t)
    let (exponentNegative, exponent) :=
      match exponent.drop 1 with
      | '-' :: t => (true, t)
      | '+' :: t => (false, t)
      | t => (false, t)
    let shift : Int := if exponentNegative then -(number exponent : Int) else number exponent
    .float (floatOf negative (whole ++ fraction) (shift - fraction.length))

end Scalar

end UrlRouting
