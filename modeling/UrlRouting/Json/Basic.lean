import UrlRouting.Text
import UrlRouting.Unicode.Runs

/-!
# JSON values

Values keep the order of their members and the text of their numbers. The text of a string is `none`
if the string has an escape for half of a surrogate pair in it: such a string is well-formed but
writes no text.

`Json.render` writes a value without blanks. `Json.record?` is how structures are read: from an
object whose members have known names, or from a list of the members in order.
-/

namespace UrlRouting

/-- A JSON value. -/
inductive Json
  | null
  | bool (b : Bool)
  | number (numeral : Text)
  | string (t : Option Text)
  | array (items : List Json)
  | object (members : List (Option Text × Json))
  deriving Inhabited, Repr

namespace Json

/-! ## Writing -/

/-- The lower case hexadecimal digit of a number below 16. -/
def hexDigit (n : Nat) : Char := Char.ofNat (if n < 10 then '0'.toNat + n else 'a'.toNat + (n - 10))

/-- The letters that stand for control characters after a backslash. -/
def controlLetters : List (Char × Char) :=
  [('\x08', 'b'), ('\x0c', 'f'), ('\n', 'n'), ('\r', 'r'), ('\t', 't')]

/-- A character in a string literal. Only quotes, backslashes and control characters are escaped. -/
def renderChar (c : Char) : Text :=
  if c = '"' ∨ c = '\\' then ['\\', c]
  else
    match controlLetters.find? fun (control, _) => control = c with
    | some (_, letter) => ['\\', letter]
    | none =>
      if c.toNat < 0x20 then
        "\\u00".toList ++ [hexDigit (c.toNat / 16), hexDigit (c.toNat % 16)]
      else [c]

/-- A string literal. -/
def renderText (t : Text) : Text := '"' :: t.flatMap renderChar ++ ['"']

/-- A string literal, with some half of a surrogate pair in it if the string writes no text. -/
def renderString (t : Option Text) : Text := (t.map renderText).getD "\"\\ud800\"".toList

mutual

/-- A value without blanks. -/
def render : Json → Text
  | null => "null".toList
  | bool true => "true".toList
  | bool false => "false".toList
  | number numeral => numeral
  | string t => renderString t
  | array items => '[' :: renderItems items ++ [']']
  | object members => '\x7b' :: renderMembers members ++ ['\x7d']

/-- The items of a list, with commas between them. -/
def renderItems : List Json → Text
  | [] => []
  | [v] => render v
  | v :: w :: vs => render v ++ ',' :: renderItems (w :: vs)

/-- The members of an object, with commas between them. -/
def renderMembers : List (Option Text × Json) → Text
  | [] => []
  | [(key, v)] => renderString key ++ ':' :: render v
  | (key, v) :: m :: ms => renderString key ++ ':' :: render v ++ ',' :: renderMembers (m :: ms)

end

/-! ## Looking inside -/

/-- The value for a text. -/
def ofText (t : Text) : Json := string (some t)

/-- The text of a string. -/
def text? : Json → Option Text
  | string t => t
  | _ => none

/-- The items of a list. -/
def items? : Json → Option (List Json)
  | array items => some items
  | _ => none

/-- The members of an object, all of whose keys are texts. -/
def members? : Json → Option (List (Text × Json))
  | object members => members.mapM fun (key, v) => key.map fun key => (key, v)
  | _ => none

/-- The texts of a list of strings. -/
def texts? (v : Json) : Option (List Text) := do (← v.items?).mapM text?

/-- The value of a member which must not occur twice. -/
def field? (members : List (Text × Json)) (name : Text) : Option (Option Json) :=
  match members.filter (·.1 = name) with
  | [] => some none
  | [(_, v)] => some (some v)
  | _ => none

/-- The members with the given names, each of them present or not. They come from an object, in
which other members are ignored and none of these may occur twice, or in order from a list, which
must not be longer. -/
def record? (names : List Text) : Json → Option (List (Option Json))
  | array items =>
    if items.length ≤ names.length then
      some (items.map some ++ List.replicate (names.length - items.length) none)
    else none
  | v => do
    let members ← v.members?
    names.mapM (field? members)

end Json

end UrlRouting
