import UrlRouting.Matcher.Expression
import UrlRouting.Params.Basic
import UrlRouting.Pattern.Error
import UrlRouting.Regex.Program
import UrlRouting.Url.Origin

/-!
# Matching URLs

A matcher is a pattern whose expression has been compiled. `Matcher.match?` tests a URL and gives
the values of the placeholders and the parameters of the query. The location is tested as it is
written and, if that fails, with its escapes read.
-/

namespace UrlRouting

/-- A pattern that is ready to test URLs: its expression and the names of its placeholders. -/
structure Matcher where
  expression : Text
  program : Program
  names : List Text

/-- What a URL says: values of placeholders and parameters of the query. -/
structure RouteMatch where
  params : Params
  query : Params

namespace RouteMatch

/-- A match that says nothing. -/
def empty : RouteMatch := ⟨.empty, .empty⟩

/-- Whether two matches say the same, in any order. -/
def same (m n : RouteMatch) : Bool := m.params.sameMap n.params && m.query.sameMap n.query

end RouteMatch

namespace Matcher

/-- Compiles a text, and names an error after its cause. -/
def compile {ε : Type} (cause : Regex.SyntaxError → ε) (t : Text) : Except ε Program :=
  match Program.compile t with
  | .ok program => .ok program
  | .error e => .error (cause e)

/-- Checks that the constraint of a placeholder is an expression by itself and inside its group. -/
def checkConstraint (index : Nat) (p : Placeholder) : Except PatternError Unit :=
  match p.constraint with
  | none => .ok ()
  | some constraint => do
    let cause (e : Regex.SyntaxError) : PatternError := .invalidConstraint p.name (.expression e)
    let _ ← compile cause constraint
    let _ ← compile cause ('^' :: capture index p ++ ['$'])

/-- Checks the constraints of placeholders, the first of which has a given index. -/
def checkConstraints (index : Nat) : List Placeholder → Except PatternError Unit
  | [] => .ok ()
  | p :: ps => do
    checkConstraint index p
    checkConstraints (index + 1) ps

/-- Compiles a pattern. -/
def ofPattern (p : Pattern) : Except PatternError Matcher := do
  checkConstraints 0 p.placeholders
  let program ← compile .invalidMatcher (p.expression)
  pure ⟨p.expression, program, p.names⟩

/-- The text that the group with a given index took, with its escapes read. -/
def value? (m : Matcher) (input : Array Char) (caps : Captures) (index : Nat) : Option Text := do
  let number ← m.program.numberOf? (groupName index)
  let (first, last) ← caps.span? number
  pure (Percent.decode (textBetween input first last))

/-- The values of the placeholders in a location, if it matches as it stands. -/
def extract? (m : Matcher) (location : Text) : Option Params :=
  let input := location.toArray
  (m.program.match? input).map fun caps =>
    .ofList (m.names.zipIdx.filterMap fun (name, index) =>
      (m.value? input caps index).map fun value => (name, value))

/-- Tests a URL. Its origin is ignored and its query read apart. -/
def match? (m : Matcher) (url : Text) : Option RouteMatch :=
  let (before, query) := Text.splitFirst '?' url
  let location := Url.withoutOrigin before
  let params := (m.extract? location).or (m.extract? (Percent.decode location))
  params.map fun params => ⟨params, .ofQuery (query.getD [])⟩

end Matcher

end UrlRouting
