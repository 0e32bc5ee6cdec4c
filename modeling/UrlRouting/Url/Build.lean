import UrlRouting.Params.Basic
import UrlRouting.Pattern.Basic

/-!
# Building URLs

A pattern and a parameter set give a URL. Placeholders are filled with their values, escaped; an
optional part is left out as a whole where a placeholder directly inside it has no value. Runs of
slashes become one slash. Parameters that no placeholder has used make up the query.

An empty value counts as none.
-/

namespace UrlRouting.Url

/-- A piece of a built path: literal text, or the value of a placeholder. -/
inductive Piece
  | literal (t : Text)
  | value (name value : Text)
  deriving DecidableEq, Repr

/-- The text of a piece. -/
def Piece.render : Piece → Text
  | literal t => t
  | value _ v => Percent.encode v

/-- The name of the parameter that a piece uses. -/
def Piece.name? : Piece → Option Text
  | literal _ => none
  | value name _ => some name

/-- The value for a placeholder. -/
def filled? (params : Params) (p : Placeholder) : Option Text :=
  (params.get? p.name).filter (· ≠ [])

/-- Whether the placeholders directly in a list of parts have values. -/
def isComplete (params : Params) (ns : List Node) : Bool :=
  ns.all fun
    | .placeholder p => (filled? params p).isSome
    | _ => true

mutual

/-- The pieces of a part. -/
def pieces (params : Params) : Node → List Piece
  | .literal t => [.literal t]
  | .placeholder p =>
    match filled? params p with
    | some v => [.value p.name v]
    | none => []
  | .optional children =>
    if isComplete params children then piecesOfNodes params children else []

/-- The pieces of a list of parts. -/
def piecesOfNodes (params : Params) : List Node → List Piece
  | [] => []
  | n :: ns => pieces params n ++ piecesOfNodes params ns

end

/-! ## Slashes -/

/-- The text with one slash for each run of slashes; `afterSlash` says that one stands before. -/
def squeezeFrom (afterSlash : Bool) : Text → Text
  | [] => []
  | c :: t =>
    if c = '/' && afterSlash then squeezeFrom true t else c :: squeezeFrom (c = '/') t

/-- The text with one slash for each run of slashes. -/
def squeeze (t : Text) : Text := squeezeFrom false t

/-- The text without a slash at its end, unless it is that slash. -/
def withoutLastSlash (t : Text) : Text :=
  if 1 < t.length ∧ t.getLast? = some '/' then t.dropLast else t

/-- A path in normal form: single slashes, none at the end unless it is wanted, and not empty. -/
def normalPath (keepLastSlash : Bool) (t : Text) : Text :=
  let path := if keepLastSlash then squeeze t else withoutLastSlash (squeeze t)
  if path = [] then ['/'] else path

/-! ## The query -/

/-- A parameter as it is written in a query. -/
def queryPair (pair : Text × Text) : Text :=
  Percent.encode pair.1 ++ '=' :: Percent.encode pair.2

/-- The path with the query for some parameters, behind `&` if the path has a question mark. -/
def withQuery (path : Text) (pairs : Entries Text) : Text :=
  if pairs = [] then path
  else path ++ (if path.contains '?' then '&' else '?') :: Text.joinWith '&' (pairs.map queryPair)

/-- The URL of a pattern for a parameter set. -/
def build (pattern : Pattern) (params : Params) : Text :=
  let ps := piecesOfNodes params pattern.nodes
  let used := ps.filterMap Piece.name?
  withQuery (normalPath pattern.endsWithSlash (ps.flatMap Piece.render))
    (params.toList.filter fun (key, _) => !used.contains key)

end UrlRouting.Url
