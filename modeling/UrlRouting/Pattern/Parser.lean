import UrlRouting.Matcher.Basic
import UrlRouting.Pattern.Constraint
import UrlRouting.Pattern.Scan

/-!
# Reading patterns

A text is a pattern if it writes a tree in which no two placeholders share a name, constraints open
no groups that could be mistaken for the matcher's own, and everything compiles.
-/

namespace UrlRouting

namespace Pattern

/-- Checks the named groups of a constraint against those of the constraints before it, and gives
all of them. -/
def checkGroupNames (seen : List Text) : List Text → Except ConstraintError (List Text)
  | [] => .ok seen
  | group :: groups =>
    if (Text.dropBeginning Matcher.reservedBeginning group).isSome then
      .error (.reservedGroup group)
    else if group ∈ seen then .error (.repeatedGroup group)
    else checkGroupNames (group :: seen) groups

/-- Checks the groups of a constraint, given the named groups before it. -/
def checkGroups (name : Text) (groups : List Text) (constraint : Text) :
    Except PatternError (List Text) :=
  if (Constraint.firstCapturing? constraint).isSome then
    .error (.capturingGroup name constraint)
  else
    match checkGroupNames groups (Constraint.groupNames constraint) with
    | .ok groups => .ok groups
    | .error cause => .error (.invalidConstraint name cause)

/-- Checks placeholders, given the names and the named groups before them. -/
def checkPlaceholders (names groups : List Text) : List Placeholder → Except PatternError Unit
  | [] => .ok ()
  | p :: ps =>
    if p.name ∈ names then .error (.duplicatePlaceholder p.name)
    else
      match p.constraint with
      | none => checkPlaceholders (p.name :: names) groups ps
      | some constraint => do
        let groups ← checkGroups p.name groups constraint
        checkPlaceholders (p.name :: names) groups ps

/-- Checks a tree and compiles it. -/
def check (p : Pattern) : Except PatternError Matcher := do
  checkPlaceholders [] [] p.placeholders
  Matcher.ofPattern p

/-- Reads a pattern and its matcher. -/
def compile (placement : OptionalPlacement) (t : Text) :
    Except PatternError (Pattern × Matcher) := do
  let p ← scan placement t
  let m ← p.check
  pure (p, m)

/-- Reads a pattern. -/
def parse (placement : OptionalPlacement) (t : Text) : Except PatternError Pattern := do
  pure (← compile placement t).1

end Pattern

end UrlRouting
