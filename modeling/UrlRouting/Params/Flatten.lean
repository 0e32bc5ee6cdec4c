import UrlRouting.Json.Basic
import UrlRouting.Params.Basic
import UrlRouting.Params.Scalar

/-!
# Flattening values into parameters

A value whose parts are scalars can be given as a parameter set: an object by its members, a list by
pairs of a key and a value. Members without a value are left out. The pairs are written in the form
notation and read back as a query.
-/

namespace UrlRouting

/-- Why a value cannot be flattened. -/
inductive FlattenError
  | topLevel
  | pair
  | key
  | value
  deriving DecidableEq, Repr

/-- The description of an error. -/
def FlattenError.message : FlattenError → String
  | topLevel => "top-level serializer supports only maps and structs"
  | pair => "unsupported pair"
  | key => "unsupported key"
  | value => "unsupported value"

namespace Flatten

/-- The scalar that a value is. -/
def scalar? : Json → Option Scalar
  | .bool b => some (.bool b)
  | .number numeral => some (.ofNumeral numeral)
  | .string (some t) => some (.text t)
  | _ => none

/-- The text of a scalar in the form notation. -/
def scalarText (s : Scalar) : Text := s.textWith Decimal.scientific

/-- The pair for a key and a value, none for an absent value. -/
def pair? (key : Text) : Json → Except FlattenError (Option (Text × Text))
  | .null => .ok none
  | v =>
    match scalar? v with
    | some s => .ok (some (key, scalarText s))
    | none => .error .value

/-- The pair for a member of an object. -/
def ofMember (member : Option Text × Json) : Except FlattenError (Option (Text × Text)) :=
  match member.1 with
  | some key => pair? key member.2
  | none => .error .key

/-- The pair for an item of a list. -/
def ofItem : Json → Except FlattenError (Option (Text × Text))
  | .null => .ok none
  | .array [key, v] =>
    match scalar? key with
    | some s => pair? (scalarText s) v
    | none => .error .key
  | _ => .error .pair

/-- The pairs of a value. -/
def pairs : Json → Except FlattenError (List (Text × Text))
  | .null => .ok []
  | .object members => return (← members.mapM ofMember).filterMap id
  | .array items => return (← items.mapM ofItem).filterMap id
  | _ => .error .topLevel

end Flatten

/-- The parameters of a value. -/
def Params.flatten (v : Json) : Except FlattenError Params := do
  pure (.ofQuery (Form.write (← Flatten.pairs v)))

end UrlRouting
