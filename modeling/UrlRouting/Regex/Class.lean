import UrlRouting.Regex.CharSet

/-!
# Character classes

Reads what stands between the brackets of a character class. The input is a list of tokens: raw
characters, which may have a meaning, escaped characters, which have none, and sets, written by
escapes such as `\d`.

A class is a union of characters, ranges, sets, named ASCII classes and nested classes. The
operators `&&`, `--` and `~~` (intersection, difference, symmetric difference) bind weaker than
union and group to the left.
-/

namespace UrlRouting.CharClass

/-- A piece of a class. -/
inductive Token
  | raw (c : Char)
  | literal (c : Char)
  | set (cs : CharSet)
  deriving DecidableEq, Repr

/-- The character that a token stands for, if it is one. -/
def Token.char? : Token → Option Char
  | .raw c | .literal c => some c
  | .set _ => none

/-- The set that a token stands for. -/
def Token.toSet : Token → CharSet
  | .raw c | .literal c => .single c
  | .set cs => cs

/-- An operator between two unions. -/
inductive Operator
  | inter
  | diff
  | symmDiff
  deriving DecidableEq, Repr

/-- What an operator does. -/
def Operator.apply : Operator → CharSet → CharSet → CharSet
  | inter => CharSet.inter
  | diff => CharSet.diff
  | symmDiff => CharSet.symmDiff

/-- A class that has been opened: whether it is negated, the operand and operator that precede
the present union, and that union. -/
structure Level where
  negated : Bool
  before : Option (CharSet × Operator)
  items : List CharSet

namespace Level

/-- Adds a set to the present union. -/
def add (l : Level) (cs : CharSet) : Level := { l with items := cs :: l.items }

/-- The present union together with the operand before it. Under case folding both operands are
folded before the operator is applied. -/
def operand (caseless : Bool) (l : Level) : CharSet :=
  let items := CharSet.unionOf l.items.reverse
  match l.before with
  | none => items
  | some (left, op) => op.apply (.caselessIf caseless left) (.caselessIf caseless items)

/-- Ends the present union with an operator. -/
def operator (caseless : Bool) (l : Level) (op : Operator) : Level :=
  { l with before := some (l.operand caseless, op), items := [] }

/-- The set of a class that is closed. Case folding comes before negation. -/
def close (caseless : Bool) (l : Level) : CharSet :=
  .negateIf l.negated (.caselessIf caseless (l.operand caseless))

end Level

/-- Takes the hyphens at the beginning of a class, which stand for themselves. -/
def leadingHyphens (l : Level) : List Token → Level × List Token
  | .raw '-' :: ts => leadingHyphens (l.add (.single '-')) ts
  | ts => (l, ts)

theorem length_leadingHyphens (l : Level) (ts : List Token) :
    (leadingHyphens l ts).2.length ≤ ts.length := by
  fun_induction leadingHyphens l ts with
  | case1 l ts ih => simpa using Nat.le_succ_of_le ih
  | case2 => simp

/-- Takes a circumflex, which negates what follows. -/
def takeNegation : List Token → Bool × List Token
  | .raw '^' :: ts => (true, ts)
  | ts => (false, ts)

theorem length_takeNegation (ts : List Token) : (takeNegation ts).2.length ≤ ts.length := by
  fun_cases takeNegation ts <;> simp

/-- Opens a class: takes `^`, then leading hyphens, or else a leading `]`, which stands for
itself. -/
def openClass (ts : List Token) : Level × List Token :=
  let (negated, ts) := takeNegation ts
  match leadingHyphens ⟨negated, none, []⟩ ts with
  | (l, .raw ']' :: ts) =>
    if l.items = [] then (l.add (.single ']'), ts) else (l, .raw ']' :: ts)
  | (l, ts) => (l, ts)

theorem length_openClass (ts : List Token) : (openClass ts).2.length ≤ ts.length := by
  have taken := length_takeNegation ts
  unfold openClass
  generalize takeNegation ts = n at taken
  obtain ⟨negated, ts'⟩ := n
  have led := length_leadingHyphens ⟨negated, none, []⟩ ts'
  dsimp only
  split
  next l ts'' h =>
    rw [h] at led
    simp only [List.length_cons] at led taken
    split <;> simp <;> omega
  next l ts'' _ h =>
    rw [h] at led
    exact Nat.le_trans led taken

/-- The raw letters at the beginning. -/
def letters : List Token → Text × List Token
  | .raw c :: ts =>
    if c.isAlpha then
      let (name, rest) := letters ts
      (c :: name, rest)
    else ([], .raw c :: ts)
  | ts => ([], ts)

theorem length_letters (ts : List Token) : (letters ts).2.length ≤ ts.length := by
  induction ts with
  | nil => simp [letters]
  | cons t ts ih =>
    unfold letters
    split
    next c ts' h =>
      cases h
      split
      · simpa using Nat.le_succ_of_le ih
      · simp
    next => simp

/-- A named ASCII class after its bracket: `:name:]` or `:^name:]`. -/
def asciiClass? (caseless : Bool) : List Token → Option (CharSet × List Token)
  | .raw ':' :: ts =>
    let (negated, ts) := takeNegation ts
    match letters ts with
    | (name, .raw ':' :: .raw ']' :: ts) =>
      (CharSet.ofAsciiClass? name).map fun cs =>
        (.negateIf negated (.caselessIf caseless cs), ts)
    | _ => none
  | _ => none

theorem length_of_asciiClass? {caseless : Bool} {ts rest : List Token} {cs : CharSet}
    (h : asciiClass? caseless ts = some (cs, rest)) : rest.length < ts.length := by
  unfold asciiClass? at h
  split at h
  next ts' =>
    have taken := length_takeNegation ts'
    generalize takeNegation ts' = n at taken h
    obtain ⟨negated, ts₂⟩ := n
    have named := length_letters ts₂
    dsimp only at h taken
    split at h
    next name ts₃ eq =>
      rw [eq] at named
      simp only [Option.map_eq_some_iff, Prod.mk.injEq] at h
      obtain ⟨_, _, _, rfl⟩ := h
      simp only [List.length_cons] at named ⊢
      omega
    next => simp at h
  next => simp at h

/-- What an item is that starts with a given token and is no bracket and no operator: a range or
the token alone. It is `none` for a range whose ends are no characters or in the wrong order. -/
def item? : Token → List Token → Option (CharSet × List Token)
  | first, .raw '-' :: last :: ts =>
    if last = .raw ']' ∨ last = .raw '-' then some (first.toSet, .raw '-' :: last :: ts)
    else
      match first.char?, last.char? with
      | some a, some b => if a ≤ b then some (.range a b, ts) else none
      | _, _ => none
  | first, ts => some (first.toSet, ts)

theorem length_of_item? {t : Token} {ts rest : List Token} {cs : CharSet}
    (h : item? t ts = some (cs, rest)) : rest.length ≤ ts.length := by
  unfold item? at h
  split at h
  next last ts' =>
    split at h
    · simp_all
    · split at h
      · split at h
        · simp only [Option.some.injEq, Prod.mk.injEq] at h
          obtain ⟨_, rfl⟩ := h
          simp only [List.length_cons]
          omega
        · simp at h
      · simp at h
  next => simp_all

/-- Reads on in the innermost of the open classes; `outer` are those around it. The result is
`none` where the tokens are no class, or go on after its end. -/
def readFrom (caseless : Bool) (outer : List Level) (l : Level) : List Token → Option CharSet
  | [] => none
  | .raw ']' :: ts =>
    match outer with
    | [] => if ts = [] then some (l.close caseless) else none
    | o :: outer => readFrom caseless outer (o.add (l.close caseless)) ts
  | .raw '[' :: ts =>
    match _h : asciiClass? caseless ts with
    | some (cs, rest) => readFrom caseless outer (l.add cs) rest
    | none => readFrom caseless (l :: outer) (openClass ts).1 (openClass ts).2
  | .raw '&' :: .raw '&' :: ts => readFrom caseless outer (l.operator caseless .inter) ts
  | .raw '-' :: .raw '-' :: ts => readFrom caseless outer (l.operator caseless .diff) ts
  | .raw '~' :: .raw '~' :: ts => readFrom caseless outer (l.operator caseless .symmDiff) ts
  | t :: ts =>
    match _h : item? t ts with
    | some (cs, rest) => readFrom caseless outer (l.add cs) rest
    | none => none
termination_by ts => ts.length
decreasing_by
  all_goals simp only [List.length_cons]
  · omega
  · have := length_of_asciiClass? _h; omega
  · have := length_openClass ts; omega
  · omega
  · omega
  · omega
  · have := length_of_item? _h; omega

/-- Reads a class from the tokens after its opening bracket, through its closing one. -/
def read? (caseless : Bool) (ts : List Token) : Option CharSet :=
  readFrom caseless [] (openClass ts).1 (openClass ts).2

end UrlRouting.CharClass
