import UrlRouting.Regex.Basic

/-!
# Groups in constraints

A constraint is placed inside a group of the matcher's own expression, so it must not open groups
that capture without a name. `Constraint.openers` finds the parentheses that open groups and says of
which kind they are. It knows escapes and character classes and nothing else of the notation.
-/

namespace UrlRouting.Constraint

/-- A group whose name goes up to a mark; without the mark there is no name and nothing captures. -/
def namedUpTo (mark : Char) (t : Text) : GroupKind :=
  match Text.splitFirst mark t with
  | (name, some _) => .named name
  | (_, none) => .nonCapturing

/-- The kind of group that a parenthesis opens, by the text after it. -/
def classify : Text → GroupKind
  | '?' :: 'P' :: '<' :: t => namedUpTo '>' t
  | '?' :: '<' :: '=' :: _ => .nonCapturing
  | '?' :: '<' :: '!' :: _ => .nonCapturing
  | '?' :: '<' :: t => namedUpTo '>' t
  | '?' :: '\'' :: t => namedUpTo '\'' t
  | '?' :: _ => .nonCapturing
  | '*' :: _ => .nonCapturing
  | _ => .capturing

/-- The parentheses that open groups, with their byte offsets, in a text that starts at a given
offset, inside a class or outside of all. A class begins with `[` or `[^`, after which a closing
bracket stands for itself. -/
def openersFrom : (inClass : Bool) → (position : Nat) → Text → List (Nat × GroupKind)
  | _, _, [] => []
  | inClass, position, '\\' :: c :: t => openersFrom inClass (position + 1 + c.utf8Size) t
  | false, position, '[' :: '^' :: ']' :: t => openersFrom true (position + 3) t
  | false, position, '[' :: '^' :: t => openersFrom true (position + 2) t
  | false, position, '[' :: ']' :: t => openersFrom true (position + 2) t
  | false, position, '[' :: t => openersFrom true (position + 1) t
  | true, position, ']' :: t => openersFrom false (position + 1) t
  | false, position, '(' :: t => (position, classify t) :: openersFrom false (position + 1) t
  | inClass, position, c :: t => openersFrom inClass (position + c.utf8Size) t

/-- The parentheses that open groups, with their byte offsets. -/
def openers (constraint : Text) : List (Nat × GroupKind) := openersFrom false 0 constraint

/-- The offset of the first group that captures without a name. -/
def firstCapturing? (constraint : Text) : Option Nat :=
  ((openers constraint).find? fun (_, kind) => kind = .capturing).map Prod.fst

/-- The names of the named groups. -/
def groupNames (constraint : Text) : List Text :=
  (openers constraint).filterMap fun (_, kind) => kind.name?

end UrlRouting.Constraint
