import UrlRouting.Json.Basic

/-!
# Tokens of JSON texts

A JSON text is a sequence of tokens with blanks between them. `Json.tokens?` takes a text apart.
-/

namespace UrlRouting.Json

/-- A token. -/
inductive Token
  | openBrace
  | closeBrace
  | openBracket
  | closeBracket
  | colon
  | comma
  | null
  | bool (b : Bool)
  | number (numeral : Text)
  | string (t : Option Text)
  deriving DecidableEq, Repr

/-- Whether a character is a blank between tokens. -/
def isBlank (c : Char) : Bool := c == ' ' || c == '\t' || c == '\n' || c == '\r'

/-! ## Strings -/

/-- A unit of a string: a character, or a code unit given by its number. -/
inductive StringUnit
  | char (c : Char)
  | code (n : Nat)
  deriving DecidableEq, Repr

/-- The number that four hexadecimal digits write. -/
def fourDigits? (a b c d : Char) : Option Nat := do
  let a ← Unicode.hexValue? a
  let b ← Unicode.hexValue? b
  let c ← Unicode.hexValue? c
  let d ← Unicode.hexValue? d
  pure (((a * 16 + b) * 16 + c) * 16 + d)

/-- The character that a letter or mark stands for after a backslash. -/
def escaped? (c : Char) : Option Char :=
  if c = '"' ∨ c = '\\' ∨ c = '/' then some c
  else (controlLetters.find? fun (_, letter) => letter = c).map Prod.fst

/-- The units of a string up to its closing quote, and what follows. -/
def stringUnits? : Text → Option (List StringUnit × Text)
  | [] => none
  | '"' :: t => some ([], t)
  | '\\' :: 'u' :: a :: b :: c :: d :: t => do
    let n ← fourDigits? a b c d
    let (units, rest) ← stringUnits? t
    pure (.code n :: units, rest)
  | '\\' :: c :: t => do
    let c ← escaped? c
    let (units, rest) ← stringUnits? t
    pure (.char c :: units, rest)
  | c :: t =>
    if c.toNat < 0x20 then none
    else do
      let (units, rest) ← stringUnits? t
      pure (.char c :: units, rest)

/-- Whether a code unit is the first half of a surrogate pair. -/
def isHighHalf (n : Nat) : Bool := 0xD800 ≤ n && n < 0xDC00

/-- Whether a code unit is the second half of a surrogate pair. -/
def isLowHalf (n : Nat) : Bool := 0xDC00 ≤ n && n < 0xE000

/-- The text of the units, if every half of a surrogate pair has its other half. -/
def unitsText? : List StringUnit → Option Text
  | [] => some []
  | .char c :: units => (unitsText? units).map (c :: ·)
  | .code high :: .code low :: units =>
    if isHighHalf high then
      if isLowHalf low then
        (unitsText? units).map
          (Char.ofNat (0x10000 + (high - 0xD800) * 0x400 + (low - 0xDC00)) :: ·)
      else none
    else if isLowHalf high then none
    else (unitsText? (.code low :: units)).map (Char.ofNat high :: ·)
  | .code n :: units =>
    if isHighHalf n || isLowHalf n then none else (unitsText? units).map (Char.ofNat n :: ·)

/-! ## Numbers -/

/-- The digits at the front of a text, at least one, and what follows. -/
def digits? (t : Text) : Option (Text × Text) :=
  match t.takeWhile Char.isDigit with
  | [] => none
  | ds => some (ds, t.dropWhile Char.isDigit)

/-- The digits of a whole number, without leading zeros. -/
def wholeDigits? : Text → Option (Text × Text)
  | '0' :: t => some (['0'], t)
  | t => digits? t

/-- The point and digits of a fraction, if there is one. -/
def fraction? : Text → Option (Text × Text)
  | '.' :: t => (digits? t).map fun (ds, rest) => ('.' :: ds, rest)
  | t => some ([], t)

/-- The sign at the front of a text, and what follows. -/
def signAndRest (signs : List Char) : Text → Text × Text
  | [] => ([], [])
  | c :: t => if signs.contains c then ([c], t) else ([], c :: t)

/-- The exponent, if there is one. -/
def exponent? : Text → Option (Text × Text)
  | [] => some ([], [])
  | c :: t =>
    if c = 'e' ∨ c = 'E' then
      let (sign, t) := signAndRest ['+', '-'] t
      (digits? t).map fun (ds, rest) => (c :: sign ++ ds, rest)
    else some ([], c :: t)

/-- The numeral at the front of a text, and what follows. -/
def numeral? (t : Text) : Option (Text × Text) := do
  let (sign, t) := signAndRest ['-'] t
  let (whole, t) ← wholeDigits? t
  let (fraction, t) ← fraction? t
  let (exponent, t) ← exponent? t
  pure (sign ++ whole ++ fraction ++ exponent, t)

/-! ## Tokens -/

/-- The words that are tokens. -/
def words : List (String × Token) :=
  [("null", .null), ("true", .bool true), ("false", .bool false)]

/-- The token that is a word, and what follows. -/
def word? (t : Text) : Option (Token × Text) :=
  words.findSome? fun (word, token) =>
    (Text.dropBeginning word.toList t).map fun rest => (token, rest)

/-- The token at the front of a text, and what follows. -/
def token? : Text → Option (Token × Text)
  | [] => none
  | '\x7b' :: t => some (.openBrace, t)
  | '\x7d' :: t => some (.closeBrace, t)
  | '[' :: t => some (.openBracket, t)
  | ']' :: t => some (.closeBracket, t)
  | ':' :: t => some (.colon, t)
  | ',' :: t => some (.comma, t)
  | '"' :: t => (stringUnits? t).map fun (units, rest) => (.string (unitsText? units), rest)
  | t => (word? t).or ((numeral? t).map fun (numeral, rest) => (.number numeral, rest))

/-- The tokens of a text. -/
def tokens? (t : Text) : Option (List Token) :=
  match t.dropWhile isBlank with
  | [] => some []
  | c :: t' =>
    match token? (c :: t') with
    | none => none
    | some (token, rest) =>
      if _h : rest.length < t.length then (tokens? rest).map (token :: ·) else none
termination_by t.length

end UrlRouting.Json
