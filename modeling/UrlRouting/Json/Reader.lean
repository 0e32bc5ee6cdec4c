import UrlRouting.Json.Token

/-!
# Reading JSON

`Json.parse?` reads a text as one value. The reader takes one token after the other; its state is
the stack of lists and objects that are open, and what may come next.
-/

namespace UrlRouting.Json

/-- A list or object that is open, with what it holds so far, the latest first. An object has the
key of the member whose value is being read. -/
inductive Frame
  | array (items : List Json)
  | object (members : List (Option Text × Json)) (key : Option Text)

/-- What may come next. -/
inductive Expecting
  /-- A value. -/
  | value
  /-- The first item or key of what has just been opened, or its end. -/
  | first
  /-- A key. -/
  | key
  /-- The colon after a key. -/
  | colon
  /-- A comma or the end of what is around a value. -/
  | after (v : Json)

/-- The value that a token is by itself. -/
def Token.value? : Token → Option Json
  | .null => some .null
  | .bool b => some (.bool b)
  | .number numeral => some (.number numeral)
  | .string t => some (.string t)
  | _ => none

/-- Reads the first token of a value. -/
def beginValue (stack : List Frame) (token : Token) : Option (List Frame × Expecting) :=
  match token with
  | .openBracket => some (.array [] :: stack, .first)
  | .openBrace => some (.object [] none :: stack, .first)
  | token => token.value?.map fun v => (stack, .after v)

/-- Reads a token. -/
def readToken : List Frame → Expecting → Token → Option (List Frame × Expecting)
  | stack, .value, token => beginValue stack token
  | .array _ :: stack, .first, .closeBracket => some (stack, .after (.array []))
  | .array items :: stack, .first, token => beginValue (.array items :: stack) token
  | .object _ _ :: stack, .first, .closeBrace => some (stack, .after (.object []))
  | .object members _ :: stack, .first, .string key => some (.object members key :: stack, .colon)
  | .object members _ :: stack, .key, .string key => some (.object members key :: stack, .colon)
  | stack, .colon, .colon => some (stack, .value)
  | .array items :: stack, .after v, .comma => some (.array (v :: items) :: stack, .value)
  | .array items :: stack, .after v, .closeBracket =>
    some (stack, .after (.array (v :: items).reverse))
  | .object members key :: stack, .after v, .comma =>
    some (.object ((key, v) :: members) none :: stack, .key)
  | .object members key :: stack, .after v, .closeBrace =>
    some (stack, .after (.object ((key, v) :: members).reverse))
  | _, _, _ => none

/-- Reads tokens up to the end, where one value must be complete. -/
def readTokens : List Frame → Expecting → List Token → Option Json
  | [], .after v, [] => some v
  | _, _, [] => none
  | stack, next, token :: tokens =>
    match readToken stack next token with
    | some (stack, next) => readTokens stack next tokens
    | none => none

/-- Reads a text as a value. -/
def parse? (t : Text) : Option Json := do
  let tokens ← tokens? t
  readTokens [] .value tokens

end UrlRouting.Json
