import UrlRouting.Text

/-!
# Patterns

A pattern describes a family of URLs by literal text, placeholders and optional parts. This module
holds the tree, what can be read off it, and its written form.
-/

namespace UrlRouting

/-- A named place for a value. The constraint is a regular expression for the values. -/
structure Placeholder where
  name : Text
  constraint : Option Text
  deriving DecidableEq, Repr

/-- The expression for values of placeholders without a constraint. -/
def defaultConstraint : Text := "[^/]+".toList

/-- The expression for the values of a placeholder. -/
def Placeholder.expression (p : Placeholder) : Text := p.constraint.getD defaultConstraint

/-- A part of a pattern. -/
inductive Node
  | literal (t : Text)
  | placeholder (p : Placeholder)
  | optional (children : List Node)
  deriving Repr

namespace Node

/-- The placeholders in a part, in the order in which they are written. -/
def placeholders : Node → List Placeholder
  | literal _ => []
  | placeholder p => [p]
  | optional children => ofNodes children
where
  /-- The placeholders in a list of parts. -/
  ofNodes : List Node → List Placeholder
    | [] => []
    | n :: ns => n.placeholders ++ ofNodes ns

mutual

/-- Whether two parts are the same. -/
def same : Node → Node → Bool
  | literal s, literal t => s == t
  | placeholder p, placeholder q => p == q
  | optional ns, optional ms => sameList ns ms
  | _, _ => false

/-- Whether two lists of parts are the same. -/
def sameList : List Node → List Node → Bool
  | [], [] => true
  | n :: ns, m :: ms => n.same m && sameList ns ms
  | _, _ => false

end

end Node

/-- A pattern is a list of parts. -/
structure Pattern where
  nodes : List Node
  deriving Repr

namespace Pattern

/-- The placeholders of a pattern, in the order in which they are written. -/
def placeholders (p : Pattern) : List Placeholder := Node.placeholders.ofNodes p.nodes

/-- The names of the placeholders. -/
def names (p : Pattern) : List Text := p.placeholders.map (·.name)

/-- Whether the pattern ends in literal text with a slash at its end. -/
def endsWithSlash (p : Pattern) : Bool :=
  match p.nodes.getLast? with
  | some (.literal t) => t.getLast? = some '/'
  | _ => false

/-- Whether two patterns are the same. -/
def same (p q : Pattern) : Bool := Node.sameList p.nodes q.nodes

end Pattern

/-! ## The written form -/

/-- A placeholder as it is written. -/
def Placeholder.render (p : Placeholder) : Text :=
  match p.constraint with
  | some c => '\x7b' :: p.name ++ ':' :: c ++ ['\x7d']
  | none => '\x7b' :: p.name ++ ['\x7d']

namespace Node

mutual

/-- A part as it is written. -/
def render : Node → Text
  | literal t => t
  | placeholder p => p.render
  | optional children => '[' :: renderList children ++ [']']

/-- A list of parts as it is written. -/
def renderList : List Node → Text
  | [] => []
  | n :: ns => n.render ++ renderList ns

end

end Node

/-- A pattern as it is written. -/
def Pattern.render (p : Pattern) : Text := Node.renderList p.nodes

end UrlRouting
