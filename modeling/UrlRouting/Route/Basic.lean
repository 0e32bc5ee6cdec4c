import UrlRouting.Pattern.Parser
import UrlRouting.Route.Definition
import UrlRouting.Url.Build

/-!
# Routes

A route is a pattern with a name and the methods that it allows. Its template is the text of the
pattern with one slash before it and none after it, however it was declared.
-/

namespace UrlRouting

/-- Why a definition makes no route. -/
inductive RouteError
  | pattern (template : Text) (cause : PatternError)
  | invalidMethod (method : Text)
  deriving DecidableEq, Repr

/-- The description of an error. -/
def RouteError.message : RouteError → String
  | pattern template cause => "invalid route pattern " ++ quoted template ++ ": " ++ cause.message
  | invalidMethod method => "invalid HTTP method " ++ quoted method

/-- The marks that may occur in methods, besides letters and digits. -/
def methodMarks : List Char :=
  ['!', '#', '$', '%', '&', '\'', '*', '+', '-', '.', '^', '_', '\x60', '|', '~']

/-- Whether a text is a method. -/
def isMethod (t : Text) : Bool :=
  t ≠ [] && t.all fun c => c.isAlphanum || methodMarks.contains c

/-- A route. -/
structure Route where
  name : Text
  template : Text
  pattern : Pattern
  matcher : Matcher
  methods : List Text

namespace Route

/-- The text of a pattern with one slash before it and none after it. -/
def templateOf (uri : Text) : Text :=
  '/' :: Text.trimEnd (· = '/') (Text.trimStart (· = '/') uri)

/-- Makes a route of its definition. -/
def ofDefinition (placement : OptionalPlacement) (name : Text) (d : RouteDefinition) :
    Except RouteError Route := do
  let template := templateOf d.uri
  match Pattern.compile placement template with
  | .error cause => throw (.pattern template cause)
  | .ok (pattern, matcher) =>
    match d.methods.find? (!isMethod ·) with
    | some method => throw (.invalidMethod method)
    | none => pure ⟨name, template, pattern, matcher, d.methods⟩

/-- The names of the placeholders, in order. -/
def parameters (r : Route) : List Text := r.pattern.names

/-- The URL of a route for a parameter set. -/
def url (r : Route) (params : Params) : Text := Url.build r.pattern params

/-- Whether URLs are matched by the route at all. -/
def allowsGet (r : Route) : Bool := r.methods.contains RouteDefinition.get

/-- Tests a URL. -/
def match? (r : Route) (url : Text) : Option RouteMatch :=
  if r.allowsGet then r.matcher.match? url else none

end Route

end UrlRouting
