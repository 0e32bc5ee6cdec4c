import UrlRouting.Text.Utf8
import UrlRouting.Unicode.Runs

/-!
# Percent escapes

`Percent.encode` writes text so that it can stand as one component of a URL; `Percent.decode` reads
the escapes in any text. A percent sign that begins no escape stands for itself, and bytes that are
no UTF-8 become U+FFFD.
-/

namespace UrlRouting.Percent

/-- The upper case hexadecimal digit of a number below 16. -/
def hexDigit (n : Nat) : Char := Char.ofNat (if n < 10 then '0'.toNat + n else 'A'.toNat + (n - 10))

/-- The escape of a byte. -/
def escape (b : UInt8) : Text := ['%', hexDigit (b.toNat / 16), hexDigit (b.toNat % 16)]

/-- The escapes of the bytes of a character. -/
def escapeChar (c : Char) : Text := (Utf8.encodeChar c).flatMap escape

/-- The marks that components hold unescaped, besides letters and digits. -/
def componentMarks : List Char := ['-', '_', '.', '!', '~', '*', '\'', '(', ')']

/-- Whether a character stands unescaped in a component. -/
def isComponentChar (c : Char) : Bool := c.isAlphanum || componentMarks.contains c

/-- The text as a component, with escapes for all but letters, digits and some marks. -/
def encode (t : Text) : Text :=
  t.flatMap fun c => if isComponentChar c then [c] else escapeChar c

/-- The bytes of a text, those of its escapes as they are given. -/
def bytes : Text → List UInt8
  | [] => []
  | '%' :: h :: l :: t =>
    match Unicode.hexValue? h, Unicode.hexValue? l with
    | some high, some low => UInt8.ofNat (16 * high + low) :: bytes t
    | _, _ => Utf8.encodeChar '%' ++ bytes (h :: l :: t)
  | c :: t => Utf8.encodeChar c ++ bytes t

/-- The text with its escapes read. -/
def decode (t : Text) : Text := Utf8.decode (bytes t)

end UrlRouting.Percent
