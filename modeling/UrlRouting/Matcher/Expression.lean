import UrlRouting.Pattern.Basic

/-!
# The expression of a pattern

A pattern is matched by one regular expression for the whole location. Literal text stands in it
with its special characters escaped, a placeholder is a named group around its constraint, and an
optional part is a group that may be absent. One slash more at the end is allowed.
-/

namespace UrlRouting

namespace Matcher

/-- The characters that literal text escapes. -/
def specialChars : List Char :=
  ['\\', '.', '+', '*', '?', '(', ')', '|', '[', ']', '\x7b', '\x7d', '^', '$', '#']

/-- Literal text as an expression for itself. -/
def escapeLiteral (t : Text) : Text :=
  t.flatMap fun c => if specialChars.contains c then ['\\', c] else [c]

/-- The beginning of group names that are kept for placeholders. -/
def reservedBeginning : Text := "__nr".toList

/-- The name of the group for the placeholder with a given index. -/
def groupName (index : Nat) : Text := reservedBeginning ++ index.repr.toList

/-- The group for a placeholder with a given index. -/
def capture (index : Nat) (p : Placeholder) : Text :=
  "(?P<".toList ++ groupName index ++ '>' :: p.expression ++ [')']

mutual

/-- The expression for a part, the first placeholder in which has a given index. -/
def fragment (index : Nat) : Node → Text
  | .literal t => escapeLiteral t
  | .placeholder p => capture index p
  | .optional children => "(?:".toList ++ fragmentOfNodes index children ++ ")?".toList

/-- The expression for a list of parts. -/
def fragmentOfNodes (index : Nat) : List Node → Text
  | [] => []
  | n :: ns => fragment index n ++ fragmentOfNodes (index + n.placeholders.length) ns

end

end Matcher

/-- The expression for the locations that a pattern describes. -/
def Pattern.expression (p : Pattern) : Text :=
  "^(?:".toList ++ Matcher.fragmentOfNodes 0 p.nodes ++ ")/?$".toList

end UrlRouting
