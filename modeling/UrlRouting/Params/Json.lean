import UrlRouting.Json.Basic
import UrlRouting.Matcher.Basic

/-!
# Parameters and matches as JSON

A parameter set is an object of strings, in its order; a match is an object of two of them.
-/

namespace UrlRouting

/-- A parameter set as a value. -/
def Params.toJson (p : Params) : Json :=
  .object (p.toList.map fun (key, value) => (some key, .ofText value))

/-- Reads a parameter set. A repeated key keeps its first place and takes its last value. -/
def Params.ofJson? (v : Json) : Option Params := do
  let members ← v.members?
  pure (.ofList (← members.mapM fun (key, value) => value.text?.map fun t => (key, t)))

namespace RouteMatch

/-- The names of the members, in order. -/
def memberNames : List Text := ["params".toList, "query".toList]

/-- A match as a value. -/
def toJson (m : RouteMatch) : Json :=
  .object ((memberNames.map some).zip [m.params.toJson, m.query.toJson])

/-- Reads a match. -/
def ofJson? (v : Json) : Option RouteMatch := do
  match ← v.record? memberNames with
  | [some params, some query] => pure ⟨← Params.ofJson? params, ← Params.ofJson? query⟩
  | _ => none

end RouteMatch

end UrlRouting
