import UrlRouting.Regex.Escape

/-!
# The beginnings of groups

Reads what follows an opening parenthesis and says what kind of group it opens. Groups that only
set flags, and back-references written as groups, end where their beginning ends.
-/

namespace UrlRouting.Regex

/-- The flags that decide how an expression is read. -/
structure Flags where
  caseless : Bool := false
  multiline : Bool := false
  dotAll : Bool := false
  swapGreed : Bool := false
  extended : Bool := false
  deriving DecidableEq, Repr

/-- Sets the flag that a letter names. -/
def Flags.set? (f : Flags) (letter : Char) (value : Bool) : Option Flags :=
  match letter with
  | 'i' => some { f with caseless := value }
  | 'm' => some { f with multiline := value }
  | 's' => some { f with dotAll := value }
  | 'U' => some { f with swapGreed := value }
  | 'x' => some { f with extended := value }
  | 'u' => if value then some f else none
  | _ => none

/-- The beginning of a group. -/
inductive GroupHead
  | capturing
  | named (name : Text)
  | look (direction : Direction) (negated : Bool)
  | atomic
  /-- Flags for the body of the group alone. -/
  | scoped (flags : Flags)
  /-- Flags for what follows; the group is complete. -/
  | flags (flags : Flags)
  /-- A back-reference by name; the group is complete. -/
  | backref (name : Text)
  deriving DecidableEq, Repr

namespace GroupHead

/-- The kind of group. -/
def kind : GroupHead → GroupKind
  | capturing => .capturing
  | named name => .named name
  | _ => .nonCapturing

/-- Reads flags up to the colon or parenthesis that ends them. `negated` says that a hyphen has been
read, `bare` that nothing else has. A letter takes effect at once: in extended mode blanks between
letters are ignored. Comments between letters are not read. -/
def readFlags (f : Flags) (negated bare : Bool) : Text → Except SyntaxError (GroupHead × Text)
  | [] => .error .unclosedGroup
  | ')' :: t => if bare then .error .unknownFlag else .ok (.flags f, t)
  | ':' :: t => if bare && negated then .error .unknownFlag else .ok (.scoped f, t)
  | '-' :: t => if negated then .error .unknownFlag else readFlags f true bare t
  | '(' :: '?' :: '#' :: _ => .error .unsupported
  | c :: t =>
    if f.extended && [' ', '\t', '\r', '\n'].contains c then readFlags f negated false t
    else if f.extended && c == '#' then .error .unsupported
    else
      match f.set? c (!negated) with
      | some f => readFlags f negated false t
      | none => .error .unknownFlag

/-- Reads a name up to its closing mark and makes a beginning of it. -/
def withName (head : Text → GroupHead) (mark : Char) (t : Text) :
    Except SyntaxError (GroupHead × Text) := do
  let (name, t) ← readName mark t
  pure (head name, t)

/-- Reads the beginning of a group after its parenthesis. Conditionals, such as `(?(a)b|c)`, are not
read. -/
def read (f : Flags) : Text → Except SyntaxError (GroupHead × Text)
  | '?' :: '=' :: t => .ok (.look .ahead false, t)
  | '?' :: '!' :: t => .ok (.look .ahead true, t)
  | '?' :: '<' :: '=' :: t => .ok (.look .behind false, t)
  | '?' :: '<' :: '!' :: t => .ok (.look .behind true, t)
  | '?' :: '<' :: t => withName .named '>' t
  | '?' :: '\'' :: t => withName .named '\'' t
  | '?' :: 'P' :: '<' :: t => withName .named '>' t
  | '?' :: 'P' :: '=' :: t => withName .backref ')' t
  | '?' :: '>' :: t => .ok (.atomic, t)
  | '?' :: '(' :: _ => .error .unsupported
  | '?' :: t => readFlags f false true t
  | t => .ok (.capturing, t)

end GroupHead

end UrlRouting.Regex
