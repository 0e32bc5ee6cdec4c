import UrlRouting.Decimal.Shortest
import UrlRouting.Text

/-!
# Floating-point numbers in decimal

Finite floating-point numbers are written with the fewest digits that tell them from their
neighbours, in one of two notations: `positional` never uses an exponent and writes whole numbers
without a point; `scientific` writes large and small numbers with an exponent and always has a point
otherwise.
-/

namespace UrlRouting.Decimal

/-- The numbers that are read as a floating-point number, given by its bits without the sign. -/
def intervalOfBits (bits : Nat) : Interval :=
  let fraction := bits % Nat.pow 2 52
  let exponent := bits / Nat.pow 2 52
  let mantissa := if exponent = 0 then fraction else fraction + Nat.pow 2 52
  let low := if fraction = 0 ∧ 1 < exponent then 4 * mantissa - 1 else 4 * mantissa - 2
  let power := max exponent 1
  let up := Nat.pow 2 (power - 1077)
  { low := low * up
    value := 4 * mantissa * up
    high := (4 * mantissa + 2) * up
    denominator := Nat.pow 2 (1077 - power)
    closed := mantissa % 2 = 0 }

/-- The bits of a number without its sign, and whether it is negative. -/
def magnitudeBits (x : Float) : Bool × Nat :=
  let bits := x.toBits.toNat
  (Nat.pow 2 63 ≤ bits, bits % Nat.pow 2 63)

/-- The shortest decimal for the bits of a number; zero for zero. -/
def ofBits (bits : Nat) : Fraction :=
  if bits = 0 then ⟨0, 0⟩ else (shortest? (intervalOfBits bits)).getD ⟨0, 0⟩

/-- The decimal digits of a number. -/
def digitsOf (n : Nat) : Text := n.repr.toList

/-- As many zeros. -/
def zeros (n : Nat) : Text := List.replicate n '0'

/-- Digits with a point before the last `places` of them. -/
def withPoint (digits : Text) (places : Nat) : Text :=
  let padded := zeros (places + 1 - digits.length) ++ digits
  padded.take (padded.length - places) ++ '.' :: padded.drop (padded.length - places)

/-- A decimal without an exponent. Whole numbers end in a given text. -/
def positionalText (wholeEnding : Text) (f : Fraction) : Text :=
  if 0 ≤ f.exponent then digitsOf f.digits ++ zeros f.exponent.toNat ++ wholeEnding
  else withPoint (digitsOf f.digits) (-f.exponent).toNat

/-- A decimal with an exponent, one digit standing before the point. -/
def exponentText (f : Fraction) : Text :=
  let digits := digitsOf f.digits
  let mantissa := if digits.length = 1 then digits else withPoint digits (digits.length - 1)
  mantissa ++ 'e' :: (toString (f.exponent + (digits.length - 1 : Nat))).toList

/-- A decimal with an exponent where it has more than sixteen digits before the point or more than
four zeros after it, and otherwise with a point. -/
def scientificText (f : Fraction) : Text :=
  let places := f.exponent + (digitCount f.digits : Nat)
  if -5 < places ∧ places ≤ 16 then positionalText ".0".toList f else exponentText f

/-- A number with its sign, which zero may have too. -/
def signed (write : Fraction → Text) (x : Float) : Text :=
  let (negative, bits) := magnitudeBits x
  let t := write (ofBits bits)
  if negative then '-' :: t else t

/-- A number without an exponent, and without a point if it is whole. -/
def positional (x : Float) : Text := signed (positionalText []) x

/-- A number with an exponent if it is large or small, and otherwise with a point. -/
def scientific (x : Float) : Text := signed scientificText x

end UrlRouting.Decimal
