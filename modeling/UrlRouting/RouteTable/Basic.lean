import UrlRouting.Route.Basic
import UrlRouting.RouteTable.Config
import UrlRouting.RouteTable.Glob

/-!
# Route tables

A route table makes URLs from the names of routes and finds the route of a URL. Its base URL has no
slash at its end and stands before every URL that it makes; a URL may be given with it or without.
-/

namespace UrlRouting

/-- A route table. -/
structure RouteTable where
  base : Text
  routes : Keyed Route

/-- Why a table cannot be made or used. -/
inductive RouteTableError
  | unknownRoute (name : Text)
  | invalidRoute (name : Text) (cause : RouteError)
  deriving DecidableEq, Repr

/-- The description of an error. -/
def RouteTableError.message : RouteTableError → String
  | unknownRoute name => "route " ++ quoted name ++ " is not in the route list"
  | invalidRoute name cause => "route " ++ quoted name ++ " is invalid: " ++ cause.message

namespace RouteTable

/-- A route that has been found for a URL. -/
structure Resolved where
  name : Text
  found : RouteMatch

/-- Makes the routes of some definitions; the first that fails decides the error. -/
def makeRoutes (placement : OptionalPlacement) :
    Entries RouteDefinition → Except RouteTableError (Entries Route)
  | [] => .ok []
  | (name, d) :: ds =>
    match Route.ofDefinition placement name d with
    | .error cause => .error (.invalidRoute name cause)
    | .ok r => do pure ((name, r) :: (← makeRoutes placement ds))

/-- Makes a table of its configuration. -/
def ofConfig (c : Config) : Except RouteTableError RouteTable := do
  let routes ← makeRoutes c.placement c.routes.toList
  pure ⟨Text.trimEnd (· = '/') c.url, .ofList routes⟩

/-- Whether a route has a given name. -/
def contains (table : RouteTable) (name : Text) : Bool := table.routes.contains name

/-- The route with a given name. -/
def route? (table : RouteTable) (name : Text) : Option Route := table.routes.get? name

/-- The URL of a route for a parameter set. -/
def url (table : RouteTable) (name : Text) (params : Params) : Except RouteTableError Text :=
  match table.route? name with
  | none => .error (.unknownRoute name)
  | some r =>
    let path := r.url params
    .ok (table.base ++ if path.head? = some '/' then path else '/' :: path)

/-- A URL without the base before it, if it goes on with a path or a query or ends there. -/
def withoutBase (base url : Text) : Text :=
  match Text.dropBeginning base url with
  | none => url
  | some rest =>
    if base = [] then rest
    else
      match rest with
      | [] => ['/']
      | '/' :: _ => rest
      | '?' :: _ => '/' :: rest
      | _ => url

/-- The first route that matches a URL. -/
def resolve? (table : RouteTable) (url : Text) : Option Resolved :=
  let relative := withoutBase table.base url
  table.routes.toList.findSome? fun (name, r) =>
    (r.match? relative).map fun found => ⟨name, found⟩

/-- Whether a URL has a route whose name a glob describes. -/
def resolvesTo (table : RouteTable) (url glob : Text) : Bool :=
  (table.resolve? url).any fun r => Glob.matchesName glob r.name

end RouteTable

end UrlRouting
