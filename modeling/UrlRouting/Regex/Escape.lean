import UrlRouting.Regex.Basic
import UrlRouting.Regex.SyntaxError
import UrlRouting.Unicode.Runs

/-!
# Escapes in regular expressions

Reads what follows a backslash. Outside a character class an escape may stand for a character, a
set, or an assertion or other expression; inside a class only for one of the first two.

Under case folding a property stands for the characters that have a case variant with the property,
and its negation for all others.
-/

namespace UrlRouting.Regex

/-- What an escape stands for. A character may be subject to case folding or stand only for
itself. -/
inductive Escape
  | char (c : Char) (folds : Bool)
  | set (cs : CharSet)
  | expr (r : Regex)
  | backref (name : Text)
  deriving DecidableEq, Repr

/-- Whether a character may occur in the name of a group. -/
def isNameChar (c : Char) : Bool := c == '_' || Unicode.isAlphanumeric c

/-- Reads the name of a group, up to its closing mark. -/
def readName (mark : Char) (t : Text) : Except SyntaxError (Text × Text) :=
  match t.takeWhile isNameChar, t.dropWhile isNameChar with
  | [], _ => .error .invalidGroupName
  | name, c :: rest => if c = mark then .ok (name, rest) else .error .invalidGroupName
  | _, [] => .error .invalidGroupName

/-- The character with a given number. -/
def charOfNumber (n : Nat) : Except SyntaxError Char :=
  if n.isValidChar then .ok (Char.ofNat n) else .error .invalidHex

/-- Whether a character is a hexadecimal digit. -/
def isHexDigit (c : Char) : Bool := (Unicode.hexValue? c).isSome

/-- Reads the number of a character: exactly `count` hexadecimal digits, or one to eight of them in
braces. -/
def readHex (count : Nat) (t : Text) : Except SyntaxError (Char × Text) :=
  if (t.takeWhile isHexDigit).length ≥ count then do
    pure (← charOfNumber (Unicode.hexNumber (t.take count)), t.drop count)
  else
    match t with
    | '\x7b' :: t =>
      let digits := t.takeWhile isHexDigit
      match t.dropWhile isHexDigit with
      | '\x7d' :: rest =>
        if digits = [] ∨ 8 < digits.length then .error .invalidHex
        else do pure (← charOfNumber (Unicode.hexNumber digits), rest)
      | _ => .error .invalidHex
    | _ => .error .invalidHex

/-- The property that a text names, as `name`, `kind=value` or `kind:value`, or as `kind!=value`
with `true` beside it, which negates. -/
def propertyOfText? (t : Text) : Option (Bool × Unicode.Property) :=
  match Text.splitFirst '!' t with
  | (kind, some ('=' :: value)) =>
    (Unicode.Property.ofName? (kind ++ '=' :: value)).map fun p => (true, p)
  | _ => (Unicode.Property.ofName? t).map fun p => (false, p)

/-- The characters that have a property which a text names, or those that do not. -/
def propertySet (caseless negated : Bool) (t : Text) : Except SyntaxError CharSet :=
  match propertyOfText? t with
  | some (differs, p) => .ok (.negateIf (negated != differs) (.caselessIf caseless (.property p)))
  | none => .error .unknownProperty

/-- Reads the name of a property: one character, or a text in braces. -/
def readProperty : Text → Except SyntaxError (Text × Text)
  | [] => .error .invalidEscape
  | '\x7b' :: t =>
    match Text.splitFirst '\x7d' t with
    | (name, some rest) => .ok (name, rest)
    | (_, none) => .error .unclosedPropertyName
  | c :: t => .ok ([c], t)

/-- The escapes of one letter that mean the same everywhere. -/
def letterEscape? : Char → Option Escape
  | 'd' => some (.set .digits)
  | 'D' => some (.set (.compl .digits))
  | 's' => some (.set .blanks)
  | 'S' => some (.set (.compl .blanks))
  | 'w' => some (.set .words)
  | 'W' => some (.set (.compl .words))
  | 'h' => some (.set .hexDigits)
  | 'H' => some (.set (.compl .hexDigits))
  | 'a' => some (.char '\x07' false)
  | 'f' => some (.char '\x0c' false)
  | 'n' => some (.char '\n' false)
  | 'r' => some (.char '\r' false)
  | 't' => some (.char '\t' false)
  | 'v' => some (.char '\x0b' false)
  | 'e' => some (.char '\x1b' false)
  | _ => none

/-- The letters that a class takes literally although they mean something outside of classes. -/
def plainInClass : List Char := ['k', 'A', 'z', 'B', 'K', 'G']

/-- The escapes of one character that classes do not have. The end of the text may be asked for
with or without line feeds before it. What takes no character but may be repeated is atomic. -/
def expressionEscape? : Char → Option Regex
  | 'A' => some (.assert .textStart)
  | 'z' => some (.assert .textEnd)
  | 'Z' =>
    some (.look .ahead false (.seq (.loop 0 none true (.set (.single '\n'))) (.assert .textEnd)))
  | 'B' => some (.assert .notWordBoundary)
  | '<' => some (.assert .wordStart)
  | '>' => some (.assert .wordEnd)
  | 'K' => some (.atomic .empty)
  | 'G' => some (.atomic (.assert .textStart))
  | 'O' => some (.set .all)
  | _ => none

/-- The boundaries that have a name. -/
def boundaries : List (String × Assertion) :=
  [("start", .wordStart), ("end", .wordEnd), ("start-half", .wordStartHalf),
    ("end-half", .wordEndHalf)]

/-- Reads what follows `\b`: nothing, or the name of a boundary in braces. -/
def readBoundary (t : Text) : Except SyntaxError (Assertion × Text) :=
  match t with
  | '\x7b' :: t =>
    match Text.splitFirst '\x7d' t with
    | (name, some rest) =>
      match boundaries.find? fun (known, _) => known.toList = name with
      | some (_, a) => .ok (a, rest)
      | none => .error .invalidEscape
    | (_, none) => .error .invalidEscape
  | t => .ok (.wordBoundary, t)

/-- Reads an escape that only expressions outside of classes have, after its first character. -/
def readOuterEscape (c : Char) (t : Text) : Except SyntaxError (Escape × Text) :=
  match expressionEscape? c with
  | some r => .ok (.expr r, t)
  | none =>
    if c = 'b' then do
      let (a, t) ← readBoundary t
      pure (.expr (.assert a), t)
    else if c = 'k' then
      match t with
      | '<' :: t => do
        let (name, t) ← readName '>' t
        pure (.backref name, t)
      | '\'' :: t => do
        let (name, t) ← readName '\'' t
        pure (.backref name, t)
      | _ => .error .invalidGroupName
    else if c.isAlpha then .error .invalidEscape
    else .ok (.char c false, t)

/-- Reads an escape that only classes have, after its first character. -/
def readInnerEscape (c : Char) (t : Text) : Except SyntaxError (Escape × Text) :=
  if c = 'b' then .ok (.char '\x08' false, t)
  else if c.isAlpha && !plainInClass.contains c then .error .invalidEscape
  else .ok (.char c false, t)

/-- Reads an escape after its backslash. References by number, such as `\1`, are not read: whether
one may stand in an expression depends on the names of all groups in it. -/
def readEscape (caseless inClass : Bool) : Text → Except SyntaxError (Escape × Text)
  | [] => .error .trailingBackslash
  | c :: t =>
    if c.isDigit then .error .unsupported
    else
      match letterEscape? c with
      | some e => .ok (e, t)
      | none =>
        if c = 'x' then hex 2 t
        else if c = 'u' then hex 4 t
        else if c = 'U' then hex 8 t
        else if c = 'p' then property false t
        else if c = 'P' then property true t
        else if inClass then readInnerEscape c t
        else readOuterEscape c t
where
  /-- A character given by its number. -/
  hex (count : Nat) (t : Text) : Except SyntaxError (Escape × Text) := do
    let (c, t) ← readHex count t
    pure (.char c true, t)
  /-- The characters that have a property, or those that do not. -/
  property (negated : Bool) (t : Text) : Except SyntaxError (Escape × Text) := do
    let (name, t) ← readProperty t
    pure (.set (← propertySet caseless negated name), t)

end UrlRouting.Regex
