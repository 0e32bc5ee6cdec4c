import UrlRouting.Text

/-!
# UTF-8

`Utf8.encode` writes text as bytes. `Utf8.decode` reads any bytes as text: each longest beginning
of a character that is not completed, and each byte that can begin none, becomes one U+FFFD.

The reader is a machine that takes one byte at a time. Between characters its state is `none`;
inside one it is a `Partial`, which says how many bytes are owed and what the next one may be.
-/

namespace UrlRouting.Utf8

/-- A byte with the given value. -/
private def byte (n : Nat) : UInt8 := UInt8.ofNat n

/-- The bytes of one character. -/
def encodeChar (c : Char) : List UInt8 :=
  let n := c.toNat
  if n < 0x80 then [byte n]
  else if n < 0x800 then [byte (0xC0 + n / 0x40), byte (0x80 + n % 0x40)]
  else if n < 0x10000 then
    [byte (0xE0 + n / 0x1000), byte (0x80 + n / 0x40 % 0x40), byte (0x80 + n % 0x40)]
  else
    [byte (0xF0 + n / 0x40000), byte (0x80 + n / 0x1000 % 0x40), byte (0x80 + n / 0x40 % 0x40),
      byte (0x80 + n % 0x40)]

/-- The bytes of a text. -/
def encode (t : Text) : List UInt8 := t.flatMap encodeChar

/-! ## Reading bytes -/

/-- The character that stands for bytes which are no character. -/
def replacement : Char := '\uFFFD'

/-- A character that has begun: the value read so far, how many bytes it still needs, and the
least and greatest value that the next of them may have. -/
structure Partial where
  value : Nat
  owed : Nat
  low : Nat
  high : Nat

/-- What a byte between characters gives: the characters it completes and the state after it. -/
def lead (b : UInt8) : Text × Option Partial :=
  let n := b.toNat
  if n < 0x80 then ([Char.ofNat n], none)
  else if 0xC2 ≤ n ∧ n ≤ 0xDF then ([], some ⟨n - 0xC0, 1, 0x80, 0xBF⟩)
  else if 0xE0 ≤ n ∧ n ≤ 0xEF then
    ([], some ⟨n - 0xE0, 2, if n = 0xE0 then 0xA0 else 0x80, if n = 0xED then 0x9F else 0xBF⟩)
  else if 0xF0 ≤ n ∧ n ≤ 0xF4 then
    ([], some ⟨n - 0xF0, 3, if n = 0xF0 then 0x90 else 0x80, if n = 0xF4 then 0x8F else 0xBF⟩)
  else ([replacement], none)

/-- Whether a byte continues a character that has begun. -/
def Partial.accepts (p : Partial) (b : UInt8) : Bool := p.low ≤ b.toNat && b.toNat ≤ p.high

/-- What a byte that continues a character gives. -/
def Partial.advance (p : Partial) (b : UInt8) : Text × Option Partial :=
  let value := p.value * 0x40 + (b.toNat - 0x80)
  if p.owed ≤ 1 then ([Char.ofNat value], none) else ([], some ⟨value, p.owed - 1, 0x80, 0xBF⟩)

/-- What a byte gives in any state. -/
def step : Option Partial → UInt8 → Text × Option Partial
  | none, b => lead b
  | some p, b =>
    if p.accepts b then p.advance b
    else
      let (out, state) := lead b
      (replacement :: out, state)

/-- Reads bytes from a state on. -/
def decodeFrom : Option Partial → List UInt8 → Text
  | none, [] => []
  | some _, [] => [replacement]
  | state, b :: bytes =>
    let (out, state) := step state b
    out ++ decodeFrom state bytes

/-- Reads bytes as text, with U+FFFD for what is no character. -/
def decode (bytes : List UInt8) : Text := decodeFrom none bytes

end UrlRouting.Utf8
