import UrlRouting.Regex.Parser
import UrlRouting.Regex.Reach

/-!
# Globs

A glob describes names: an asterisk stands for any run of characters without a line feed, everything
else for itself. Names are tested with a regular expression, which is the escaped glob with the
escaped asterisks replaced.
-/

namespace UrlRouting.Glob

/-- The characters that are escaped to stand for themselves in an expression. -/
def specialChars : List Char :=
  ['\\', '.', '+', '*', '?', '(', ')', '|', '[', ']', '\x7b', '\x7d', '^', '$', '#', '&', '-', '~']

/-- A text as an expression for itself. -/
def escape (t : Text) : Text :=
  t.flatMap fun c => if specialChars.contains c then ['\\', c] else [c]

/-- The text with every escaped asterisk, from left to right, replaced by an expression for any
run. -/
def replaceStars : Text → Text
  | '\\' :: '*' :: t => '.' :: '*' :: replaceStars t
  | c :: t => c :: replaceStars t
  | [] => []

/-- The expression for the names that a glob describes. -/
def expression (glob : Text) : Text := '^' :: replaceStars (escape glob) ++ ['$']

/-- Whether an expression matches somewhere in a text. -/
def occurs (r : Regex) (t : Text) : Bool :=
  let input := t.toArray
  !(Regex.solve input r (Regex.positionsFrom input 0)).starts.isEmpty

/-- Whether a glob describes a name. -/
def matchesName (glob name : Text) : Bool :=
  match Regex.parse (expression glob) with
  | .ok parsed => occurs parsed.regex name
  | .error _ => false

end UrlRouting.Glob
