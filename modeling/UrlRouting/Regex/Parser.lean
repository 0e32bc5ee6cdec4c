import UrlRouting.Regex.Class
import UrlRouting.Regex.Group

/-!
# Reading regular expressions

`Regex.parse` reads a text as an expression and reports which groups it opens. Groups may be nested
`maxNesting` deep. Flags that a group sets for what follows hold until the end of the innermost
group with flags of its own around it.

Every reader takes a `Reading`, the state between two tokens, and gives the one after what it has
read. A reader of groups is handed the reader of their bodies, which is `none` where no group may
be opened any more; the loop over the pieces of an expression goes on while they take text.
-/

namespace UrlRouting.Regex

/-- The state of a reader between two tokens: the remaining text, the flags in force, and the
groups opened so far, the latest first, each with the text from its parenthesis on. -/
structure Reading where
  rest : Text
  flags : Flags
  opened : List (GroupKind × Text)

/-- A reader takes what it reads from the front of the remaining text, or fails. -/
abbrev Reader (α : Type) := Reading → Except SyntaxError (α × Reading)

/-! ## Blanks and comments -/

/-- Where in ignored text a character stands. -/
inductive Ignored
  | outside
  | comment
  | line

/-- The text without the comments at its beginning and, in extended mode, without blanks and line
comments. It is `none` where a comment is not closed. -/
def skipIgnored (extended : Bool) : Ignored → Text → Option Text
  | .outside, '(' :: '?' :: '#' :: t => skipIgnored extended .comment t
  | .outside, [] => some []
  | .outside, c :: t =>
    if extended && [' ', '\t', '\r', '\n'].contains c then skipIgnored extended .outside t
    else if extended && c == '#' then skipIgnored extended .line t
    else some (c :: t)
  | .comment, '\\' :: _ :: t => skipIgnored extended .comment t
  | .comment, ')' :: t => skipIgnored extended .outside t
  | .comment, _ :: t => skipIgnored extended .comment t
  | .comment, [] => none
  | .line, '\n' :: t => skipIgnored extended .outside t
  | .line, _ :: t => skipIgnored extended .line t
  | .line, [] => some []

namespace Reading

/-- Takes comments and, in extended mode, blanks. -/
def skip? (s : Reading) : Option Reading :=
  (skipIgnored s.flags.extended .outside s.rest).map fun t => { s with rest := t }

/-- Takes comments and, in extended mode, blanks, or fails. -/
def skip (s : Reading) : Except SyntaxError Reading :=
  match s.skip? with
  | some s => .ok s
  | none => .error .unclosedComment

/-- Takes a character if it comes next. -/
def take (c : Char) (s : Reading) : Bool × Reading :=
  match s.rest with
  | c' :: t => if c' = c then (true, { s with rest := t }) else (false, s)
  | [] => (false, s)

/-- The kinds of the groups opened so far that capture, the latest first. -/
def groups (s : Reading) : List GroupKind := (s.opened.map Prod.fst).filter (·.captures)

/-- The number of the latest group that a reference means: by its name or its number. -/
def groupNumber? (s : Reading) (name : Text) : Option Nat :=
  match s.groups.findIdx? (·.name? = some name) with
  | some i => some (s.groups.length - i)
  | none =>
    if name.all Char.isDigit ∧ name ≠ [] then
      let n := Nat.ofDigitChars 10 name 0
      if n ≤ s.groups.length then some n else none
    else none

end Reading

/-! ## Quantifiers -/

/-- How often a quantifier repeats. -/
structure Quantity where
  least : Nat
  most : Option Nat
  deriving DecidableEq, Repr

/-- The greatest number that a repetition may be written with. -/
def maxNumeral : Nat := Nat.pow 2 64 - 1

/-- The greatest number of repetitions. -/
def maxRepetition : Nat := Nat.pow 2 32 - 1

/-- Whether a quantity can be met and is in bounds. -/
def Quantity.valid (q : Quantity) : Bool :=
  q.least ≤ q.most.getD maxRepetition && q.most.getD maxRepetition ≤ maxRepetition

/-- Takes the decimal number at the front, if it is in bounds. -/
def takeNumber (s : Reading) : Option (Nat × Reading) :=
  let digits := s.rest.takeWhile Char.isDigit
  let n := Nat.ofDigitChars 10 digits 0
  if digits = [] ∨ maxNumeral < n then none
  else some (n, { s with rest := s.rest.dropWhile Char.isDigit })

/-- Takes the lower bound, which is zero where a comma comes next. -/
def takeLeast (s : Reading) : Option (Nat × Reading) :=
  if s.rest.head? = some ',' then some (0, s) else takeNumber s

/-- Takes the upper bound behind a comma. Without a comma it is the lower one, and without a number
there is none. -/
def takeMost (least : Nat) (s : Reading) : Option (Option Nat × Reading) :=
  match s.take ',' with
  | (true, s) => do
    let s ← s.skip?
    match takeNumber s with
    | some (most, s) => some (if most = maxNumeral then none else some most, s)
    | none => some (none, s)
  | (false, s) => some (some least, s)

/-- Takes bounds after their opening brace: `n}`, `n,}`, `,m}`, `n,m}` or `,}`. -/
def takeBounds (s : Reading) : Option (Quantity × Reading) := do
  let s ← s.skip?
  let (least, s) ← takeLeast s
  let s ← s.skip?
  let (most, s) ← takeMost least s
  let s ← s.skip?
  match s.take '\x7d' with
  | (true, s) => some (⟨least, most⟩, s)
  | (false, _) => none

/-- Takes a quantifier. A brace that begins none stands for itself. -/
def takeQuantity (s : Reading) : Option (Quantity × Reading) :=
  match s.rest with
  | '?' :: t => some (⟨0, some 1⟩, { s with rest := t })
  | '*' :: t => some (⟨0, none⟩, { s with rest := t })
  | '+' :: t => some (⟨1, none⟩, { s with rest := t })
  | '\x7b' :: t => takeBounds { s with rest := t }
  | _ => none

/-- Reads the marks that may stand behind a quantifier, and repeats the expression. -/
def repeated (r : Regex) (q : Quantity) : Reader Regex := fun s => do
  let s ← s.skip
  let (lazy, s) := s.take '?'
  let (possessive, s) := s.take '+'
  let r := loop q.least q.most (lazy == s.flags.swapGreed) r
  pure (if possessive then atomic r else r, s)

/-- Reads the quantifier that may follow an expression. -/
def quantified (r : Regex) : Reader Regex := fun s => do
  let s ← s.skip
  match takeQuantity s with
  | none => pure (r, s)
  | some (q, s) =>
    if r.repeatable = false then throw .nothingToRepeat
    else if q.valid = false then throw .invalidRepetition
    else repeated r q s

/-! ## Classes -/

/-- Reads a token of a class. -/
def classToken (caseless : Bool) : Text → Except SyntaxError (CharClass.Token × Text)
  | [] => .error .unclosedClass
  | '\\' :: t => do
    let (e, t) ← readEscape caseless true t
    match e with
    | .char c _ => pure (.literal c, t)
    | .set cs => pure (.set cs, t)
    | _ => throw .invalidClass
  | c :: t => .ok (.raw c, t)

/-- How many brackets are open after a token, if `depth` are open before it. -/
def depthAfter (depth : Nat) : CharClass.Token → Nat
  | .raw '[' => depth + 1
  | .raw ']' => depth - 1
  | _ => depth

/-- Reads the tokens of a class through the bracket that closes it, `depth` brackets being open. -/
def classTokens (caseless : Bool) (depth : Nat) (t : Text) :
    Except SyntaxError (List CharClass.Token × Text) :=
  match classToken caseless t with
  | .error e => .error e
  | .ok (token, rest) =>
    if depthAfter depth token = 0 then .ok ([token], rest)
    else if _h : rest.length < t.length then
      match classTokens caseless (depthAfter depth token) rest with
      | .error e => .error e
      | .ok (tokens, rest) => .ok (token :: tokens, rest)
    else .error .unclosedClass
termination_by t.length

/-- Takes the circumflex and the closing bracket that may stand at the beginning of a class, where
the bracket closes nothing. -/
def classOpening (t : Text) : List CharClass.Token × Text :=
  let (negation, t) := if t.head? = some '^' then ([.raw '^'], t.tail) else ([], t)
  if t.head? = some ']' then (negation ++ [.raw ']'], t.tail) else (negation, t)

/-- Reads a class after its opening bracket. -/
def readClass : Reader Regex := fun s => do
  let (opening, t) := classOpening s.rest
  let (tokens, t) ← classTokens s.flags.caseless 1 t
  match CharClass.read? s.flags.caseless (opening ++ tokens) with
  | some cs => pure (set cs, { s with rest := t })
  | none => throw .invalidClass

/-! ## Atoms and groups -/

/-- A character that stands for itself, and under case folding for its variants. -/
def literal (f : Flags) (c : Char) : Regex := set (.caselessIf f.caseless (.single c))

/-- The characters that a full stop stands for. -/
def anyChar (f : Flags) : Regex := set (if f.dotAll then .all else .compl (.single '\n'))

/-- A reference to the latest group that a name means. -/
def reference (name : Text) : Reader Regex := fun s =>
  match s.groupNumber? name with
  | some n => pure (backref n s.flags.caseless, s)
  | none => throw .unknownGroup

/-- Reads what follows a backslash outside of a class. -/
def readEscaped : Reader Regex := fun s => do
  let (e, t) ← readEscape s.flags.caseless false s.rest
  let s := { s with rest := t }
  match e with
  | .char c folds => pure (if folds then literal s.flags c else set (.single c), s)
  | .set cs => pure (set cs, s)
  | .expr r => pure (r, s)
  | .backref name => reference name s

/-- Takes the parenthesis that closes a group. -/
def closeGroup (s : Reading) : Except SyntaxError Reading :=
  match s.take ')' with
  | (true, s) => .ok s
  | (false, _) => .error .unclosedGroup

/-- Reads the body of a group and the parenthesis that closes it. -/
def enclosed (body : Reader Regex) : Reader Regex := fun s => do
  let (r, s) ← body s
  pure (r, ← closeGroup s)

/-- Reads a group after its beginning. -/
def readGroup (body : Reader Regex) (head : GroupHead) : Reader Regex := fun s => do
  match head with
  | .flags f => pure (empty, { s with flags := f })
  | .backref name => reference name s
  | .scoped f =>
    let (r, s') ← enclosed body { s with flags := f }
    pure (r, { s' with flags := s.flags })
  | .capturing | .named _ =>
    let (r, s') ← enclosed body s
    pure (group s.groups.length r, s')
  | .atomic =>
    let (r, s') ← enclosed body s
    pure (atomic r, s')
  | .look direction negated =>
    let (r, s') ← enclosed body s
    if direction = .behind ∧ r.widths? = none then throw .variableLookBehind
    else pure (look direction negated r, s')

/-- Reads a group after its parenthesis; `whole` is the text from the parenthesis on. -/
def group? (body : Option (Reader Regex)) (whole : Text) : Reader Regex := fun s =>
  match body with
  | none => throw .nestingTooDeep
  | some body => do
    let s ← s.skip
    let (head, t) ← GroupHead.read s.flags s.rest
    readGroup body head { s with rest := t, opened := (head.kind, whole) :: s.opened }

/-- Reads an atom. Where a quantifier, a bar or a closing parenthesis stands there is none. -/
def readAtom (body : Option (Reader Regex)) : Reader Regex := fun s => do
  let s ← s.skip
  match s.rest with
  | [] => pure (empty, s)
  | c :: t =>
    let next := { s with rest := t }
    match c with
    | '.' => pure (anyChar s.flags, next)
    | '^' => pure (assert (if s.flags.multiline then .lineStart else .textStart), next)
    | '$' => pure (assert (if s.flags.multiline then .lineEnd else .textEnd), next)
    | '(' => group? body (c :: t) next
    | '\\' => readEscaped next
    | '[' => readClass next
    | '+' | '*' | '?' | '|' | ')' => pure (empty, s)
    | c => pure (literal s.flags c, next)

/-! ## Expressions -/

/-- Reads an atom with its quantifier. -/
def readPiece (body : Option (Reader Regex)) : Reader Regex := fun s => do
  let (r, s) ← readAtom body s
  quantified r s

/-- Reads alternatives, each as the list of its pieces, up to the end of the text or a closing
parenthesis. -/
def readBranches (body : Option (Reader Regex)) (s : Reading) :
    Except SyntaxError (List (List Regex) × Reading) :=
  match readPiece body s with
  | .error e => .error e
  | .ok (r, s') =>
    if _h : s'.rest.length < s.rest.length then
      match readBranches body s' with
      | .error e => .error e
      | .ok ([], last) => .ok ([[r]], last)
      | .ok (rs :: branches, last) => .ok ((r :: rs) :: branches, last)
    else
      match _hs : s.rest with
      | '|' :: t =>
        match readBranches body { s with rest := t } with
        | .error e => .error e
        | .ok (branches, last) => .ok ([] :: branches, last)
      | _ => .ok ([[]], s)
termination_by s.rest.length
decreasing_by
  · exact _h
  · simp [_hs]

/-- Reads an expression in which groups may be nested `depth` deep. -/
def readExpression : Nat → Reader Regex
  | 0 => fun s => do
    let (branches, s) ← readBranches none s
    pure (alternatives (branches.map sequence), s)
  | depth + 1 => fun s => do
    let (branches, s) ← readBranches (some (readExpression depth)) s
    pure (alternatives (branches.map sequence), s)

/-- How deep groups may be nested. -/
def maxNesting : Nat := 63

/-- An expression with the groups that it opens, in order, each with the text from its parenthesis
on. -/
structure Parsed where
  regex : Regex
  opened : List (GroupKind × Text)

/-- Reads a text as an expression. -/
def parse (t : Text) : Except SyntaxError Parsed := do
  let (r, s) ← readExpression maxNesting ⟨t, {}, []⟩
  if s.rest = [] then pure ⟨r, s.opened.reverse⟩ else throw .unopenedGroup

end UrlRouting.Regex
