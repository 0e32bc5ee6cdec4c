import UrlRouting.Regex.SyntaxError
import UrlRouting.Text

/-!
# Errors in patterns

Why a text is no pattern, and what is said of it. Positions are byte offsets into the text.
-/

namespace UrlRouting

/-- What is wrong with a constraint. -/
inductive ConstraintError
  | reservedGroup (group : Text)
  | repeatedGroup (group : Text)
  | expression (cause : Regex.SyntaxError)
  deriving DecidableEq, Repr

/-- Text between backquotes. -/
def quoted (t : Text) : String := "`" ++ String.ofList t ++ "`"

/-- The description of what is wrong with a constraint. -/
def ConstraintError.message : ConstraintError → String
  | reservedGroup group => "group name " ++ quoted group ++ " is reserved"
  | repeatedGroup group => "group name " ++ quoted group ++ " is used more than once"
  | expression cause => cause.message

/-- Why a text is no pattern. -/
inductive PatternError
  | mismatchedBrackets (position : Nat)
  | optionalMisplaced (position : Nat)
  | emptyOptional (position : Nat)
  | unterminatedPlaceholder (position : Nat)
  | duplicatePlaceholder (name : Text)
  | invalidName (name : Text)
  | capturingGroup (name constraint : Text)
  | invalidConstraint (name : Text) (cause : ConstraintError)
  | invalidMatcher (cause : Regex.SyntaxError)
  deriving DecidableEq, Repr

namespace PatternError

/-- The remark that names a position. -/
def atByte (position : Nat) : String := " (at byte " ++ position.repr ++ ")"

/-- The description of an error. -/
def message : PatternError → String
  | mismatchedBrackets position =>
    "number of opening '[' and closing ']' does not match" ++ atByte position
  | optionalMisplaced position =>
    "optional segments can only occur at the end of a route" ++ atByte position
  | emptyOptional position => "empty optional segment" ++ atByte position
  | unterminatedPlaceholder position =>
    "unterminated placeholder starting at byte " ++ position.repr
  | duplicatePlaceholder name => "placeholder " ++ quoted name ++ " is defined more than once"
  | invalidName name => "invalid placeholder name " ++ quoted name
  | capturingGroup name constraint =>
    "constraint " ++ quoted constraint ++ " of placeholder " ++ quoted name ++
      " contains a capturing group"
  | invalidConstraint name cause =>
    "invalid constraint for placeholder " ++ quoted name ++ ": " ++ cause.message
  | invalidMatcher cause => "route matcher does not compile: " ++ cause.message

end PatternError

end UrlRouting
