import UrlRouting.Json.Reader
import UrlRouting.Keyed
import UrlRouting.Pattern.Scan
import UrlRouting.Route.Definition

/-!
# Configurations of route tables

A configuration holds the base URL, the definitions of the routes by name, and where optional parts
may stand. `Config.render` writes it as a JSON text and `Config.parse?` reads one.
-/

namespace UrlRouting

namespace OptionalPlacement

/-- The name of a placement. -/
def name : OptionalPlacement → Text
  | anywhere => "anywhere".toList
  | trailingOnly => "trailingOnly".toList

/-- The placement with a given name. -/
def ofName? (t : Text) : Option OptionalPlacement :=
  [anywhere, trailingOnly].find? (·.name = t)

/-- Reads a placement: its name, or an object with its name for the only key and no value. -/
def ofJson? : Json → Option OptionalPlacement
  | .string t => t.bind ofName?
  | .object [(key, .null)] => key.bind ofName?
  | _ => none

end OptionalPlacement

namespace RouteTable

/-- The configuration of a route table. -/
structure Config where
  url : Text
  routes : Keyed RouteDefinition
  placement : OptionalPlacement

namespace Config

/-- The configuration without routes. -/
def empty : Config := ⟨[], .empty, .anywhere⟩

/-- The configuration in which a route has a given definition. A new route comes last. -/
def withRoute (c : Config) (name : Text) (d : RouteDefinition) : Config :=
  { c with routes := c.routes.set name d }

@[simp] theorem withRoute_url (c : Config) (name : Text) (d : RouteDefinition) :
    (c.withRoute name d).url = c.url := rfl

@[simp] theorem withRoute_placement (c : Config) (name : Text) (d : RouteDefinition) :
    (c.withRoute name d).placement = c.placement := rfl

/-- The names of the members, in order. -/
def memberNames : List Text := ["url".toList, "routes".toList, "optionalPlacement".toList]

/-- A configuration as a value. -/
def toJson (c : Config) : Json :=
  .object ((memberNames.map some).zip
    [.ofText c.url, .object (c.routes.toList.map fun (name, d) => (some name, d.toJson)),
      .ofText c.placement.name])

/-- Reads the definitions of routes. A repeated name keeps its first place and takes its last
definition. -/
def routesOfJson? (v : Json) : Option (Keyed RouteDefinition) := do
  let members ← v.members?
  pure (.ofList (← members.mapM fun (name, d) =>
    (RouteDefinition.ofJson? d).map fun d => (name, d)))

/-- Reads a member that may be absent. -/
def orDefault {α : Type} (fallback : α) (read? : Json → Option α) : Option Json → Option α
  | none => some fallback
  | some v => read? v

/-- Reads a configuration. Any member may be absent. -/
def ofJson? (v : Json) : Option Config := do
  match ← v.record? memberNames with
  | [url, routes, placement] =>
    pure
      { url := ← orDefault [] Json.text? url
        routes := ← orDefault .empty routesOfJson? routes
        placement := ← orDefault .anywhere OptionalPlacement.ofJson? placement }
  | _ => none

/-- A configuration as a text. -/
def render (c : Config) : Text := c.toJson.render

/-- Reads a text as a configuration. -/
def parse? (t : Text) : Option Config := (Json.parse? t).bind ofJson?

/-- Whether two configurations are the same, whatever the order of their routes. -/
def same (c d : Config) : Bool :=
  c.url == d.url && c.routes.sameMap d.routes && c.placement == d.placement

end Config

end RouteTable

end UrlRouting
