import UrlRouting.Pattern.Basic
import UrlRouting.Pattern.Error
import UrlRouting.Unicode.Property

/-!
# Reading the tree of a pattern

`Pattern.scan` reads the tree that a text writes, one character after the other. The state between
two characters is a `Scan`: the optional parts that are open, the parts read so far, and the literal
text or the placeholder in progress.

An error is raised at the first character that cannot be right, or at the end of the text for what
is still open there. A placeholder goes up to the brace that closes it; a backslash in it takes the
next character with it, and braces in it come in pairs.
-/

namespace UrlRouting

/-- Where optional parts may stand: anywhere, or only at the end of their list. -/
inductive OptionalPlacement
  | anywhere
  | trailingOnly
  deriving DecidableEq, Repr

/-- An optional part that is open: where its bracket stands, and the parts before it in the list
around it, the latest first. -/
structure OpenOptional where
  opening : Nat
  before : List Node

/-- A placeholder in progress: where its brace stands, the text after it in reverse, the number of
braces open in it, and whether a backslash has come last. -/
structure Body where
  opening : Nat
  reversed : Text := []
  depth : Nat := 0
  escaped : Bool := false

/-- The state between two characters. Lists and literal text are kept with the latest first;
`closed` says that the last character closed an optional part. -/
structure Scan where
  position : Nat := 0
  outer : List OpenOptional := []
  nodes : List Node := []
  literal : Text := []
  body : Option Body := none
  closed : Bool := false

/-! ## Placeholders -/

/-- Whether a text is a name: a letter or underscore, and then letters, digits, underscores and
hyphens. -/
def isName : Text → Bool
  | [] => false
  | c :: t => (c.isAlpha || c == '_') && t.all fun c => c.isAlphanum || c == '_' || c == '-'

/-- Reads what stands between the braces of a placeholder: a name and perhaps a constraint behind a
colon, both without the blanks around them. An empty constraint is none. -/
def Placeholder.ofBody (body : Text) : Except PatternError Placeholder :=
  let (name, constraint) := Text.splitFirst ':' body
  let name := Text.trim Unicode.isBlank name
  let constraint := (constraint.map (Text.trim Unicode.isBlank)).filter (· ≠ [])
  if isName name then .ok ⟨name, constraint⟩ else .error (.invalidName name)

/-! ## Characters -/

namespace Scan

/-- The parts of the present list, the latest first, with the literal text in progress. -/
def flushed (s : Scan) : List Node :=
  if s.literal = [] then s.nodes else .literal s.literal.reverse :: s.nodes

/-- Reads a character of a placeholder. -/
def stepBody (s : Scan) (b : Body) (c : Char) : Except PatternError Scan :=
  let s := { s with position := s.position + c.utf8Size }
  let kept := { b with reversed := c :: b.reversed }
  if b.escaped then .ok { s with body := some { kept with escaped := false } }
  else if c = '\\' then .ok { s with body := some { kept with escaped := true } }
  else if c = '\x7b' then .ok { s with body := some { kept with depth := b.depth + 1 } }
  else if c = '\x7d' then
    match b.depth with
    | depth + 1 => .ok { s with body := some { kept with depth } }
    | 0 => do
      let p ← Placeholder.ofBody b.reversed.reverse
      pure { s with nodes := .placeholder p :: s.nodes, body := none }
  else .ok { s with body := some kept }

/-- Closes the innermost optional part. -/
def close (s : Scan) : Except PatternError Scan :=
  match s.outer with
  | [] => .error (.mismatchedBrackets s.position)
  | o :: outer =>
    if s.flushed = [] then .error (.emptyOptional s.position)
    else .ok
      { s with
        position := s.position + 1
        outer := outer
        nodes := .optional s.flushed.reverse :: o.before
        literal := []
        closed := true }

/-- Reads a character outside of placeholders. -/
def stepPlain (s : Scan) (c : Char) : Except PatternError Scan :=
  if c = '\x7b' then
    .ok { s with
      position := s.position + 1
      nodes := s.flushed
      literal := []
      body := some { opening := s.position }
      closed := false }
  else if c = '[' then
    .ok { s with
      position := s.position + 1
      outer := ⟨s.position, s.flushed⟩ :: s.outer
      nodes := []
      literal := []
      closed := false }
  else if c = ']' then s.close
  else
    .ok { s with
      position := s.position + c.utf8Size
      literal := c :: s.literal
      closed := false }

/-- Reads a character. Where optional parts are for the end only, nothing but a closing bracket may
follow one. -/
def step (placement : OptionalPlacement) (s : Scan) (c : Char) : Except PatternError Scan :=
  match s.body with
  | some b => s.stepBody b c
  | none =>
    if placement = .trailingOnly ∧ s.closed = true ∧ c ≠ ']' then
      .error (.optionalMisplaced s.position)
    else s.stepPlain c

/-- The parts of the whole text at its end. -/
def finish (s : Scan) : Except PatternError (List Node) :=
  match s.body, s.outer with
  | some b, _ => .error (.unterminatedPlaceholder b.opening)
  | none, o :: _ => .error (.mismatchedBrackets o.opening)
  | none, [] => .ok s.flushed.reverse

end Scan

/-- Reads the tree that a text writes. -/
def Pattern.scan (placement : OptionalPlacement) (t : Text) : Except PatternError Pattern := do
  let s ← t.foldlM (Scan.step placement) {}
  pure ⟨← s.finish⟩

end UrlRouting
