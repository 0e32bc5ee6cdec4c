import UrlRouting.Json.Basic

/-!
# Route definitions

How a route is declared: by the text of its pattern and by the methods that it allows.
-/

namespace UrlRouting

/-- The declaration of a route. -/
structure RouteDefinition where
  uri : Text
  methods : List Text
  deriving DecidableEq, Repr

namespace RouteDefinition

/-- The method that URLs are matched for. -/
def get : Text := "GET".toList

/-- The methods of a route that names none. -/
def defaultMethods : List Text := [get, "HEAD".toList]

/-- The names of the members, in order. -/
def memberNames : List Text := ["uri".toList, "methods".toList]

/-- A definition as a value. -/
def toJson (d : RouteDefinition) : Json :=
  .object ((memberNames.map some).zip [.ofText d.uri, .array (d.methods.map .ofText)])

/-- Reads a definition. Only the methods may be absent. -/
def ofJson? (v : Json) : Option RouteDefinition := do
  match ← v.record? memberNames with
  | [some uri, some methods] => pure ⟨← uri.text?, ← methods.texts?⟩
  | [some uri, none] => pure ⟨← uri.text?, defaultMethods⟩
  | _ => none

end RouteDefinition

end UrlRouting
