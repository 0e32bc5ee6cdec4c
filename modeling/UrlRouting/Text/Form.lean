import UrlRouting.Text.Percent

/-!
# The form notation

Lists of keys and values as the text of a query: `key=value` pairs between `&`, with `+` for a blank
and percent escapes. `Form.write` writes a list and `Form.read` reads any text.
-/

namespace UrlRouting.Form

/-- Whether a character stands for itself when a form is written. -/
def isPlain (c : Char) : Bool := c.isAlphanum || ['*', '-', '.', '_'].contains c

/-- A key or value as it is written. -/
def encode (t : Text) : Text :=
  t.flatMap fun c => if isPlain c then [c] else if c = ' ' then ['+'] else Percent.escapeChar c

/-- Reads a key or value: a plus sign is a blank, then come the escapes. -/
def decode (t : Text) : Text := Percent.decode (t.map fun c => if c = '+' then ' ' else c)

/-- One pair as it is written. -/
def writePair (pair : Text × Text) : Text := encode pair.1 ++ '=' :: encode pair.2

/-- A list of pairs as it is written. -/
def write (pairs : List (Text × Text)) : Text := Text.joinWith '&' (pairs.map writePair)

/-- Reads a pair; without an equals sign the value is empty. -/
def readPair (t : Text) : Text × Text :=
  let (key, value) := Text.splitFirst '=' t
  (decode key, decode (value.getD []))

/-- The pairs of a text. Empty pieces are no pairs. -/
def read (t : Text) : List (Text × Text) :=
  ((Text.pieces '&' t).filter (· ≠ [])).map readPair

end UrlRouting.Form
