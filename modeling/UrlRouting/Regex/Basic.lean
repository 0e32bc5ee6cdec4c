import UrlRouting.Regex.CharSet

/-!
# Regular expressions

The syntax tree of an expression, the assertions it can make about a position, the kinds of its
groups, and what can be read off the tree alone: whether a quantifier may follow, which widths it
can have, and whether it is regular.
-/

namespace UrlRouting

/-- A condition on a position of the text, which takes no character. -/
inductive Assertion
  | textStart
  | textEnd
  | lineStart
  | lineEnd
  | wordBoundary
  | notWordBoundary
  | wordStart
  | wordEnd
  | wordStartHalf
  | wordEndHalf
  deriving DecidableEq, Repr

namespace Assertion

/-- Whether the character before a position belongs to a word. -/
def wordBefore (input : Array Char) (i : Nat) : Bool :=
  i != 0 && (input[i - 1]?).any Unicode.isWord

/-- Whether the character after a position belongs to a word. -/
def wordAfter (input : Array Char) (i : Nat) : Bool := (input[i]?).any Unicode.isWord

/-- Whether an assertion holds at a position. -/
def holds (input : Array Char) (i : Nat) : Assertion → Bool
  | textStart => i == 0
  | textEnd => i == input.size
  | lineStart => i == 0 || input[i - 1]? == some '\n'
  | lineEnd => i == input.size || input[i]? == some '\n'
  | wordBoundary => wordBefore input i != wordAfter input i
  | notWordBoundary => wordBefore input i == wordAfter input i
  | wordStart => !wordBefore input i && wordAfter input i
  | wordEnd => wordBefore input i && !wordAfter input i
  | wordStartHalf => !wordBefore input i
  | wordEndHalf => !wordAfter input i

/-- Whether an assertion looks at the words around a position. -/
def concernsWords : Assertion → Bool
  | textStart | textEnd | lineStart | lineEnd => false
  | _ => true

end Assertion

/-- Which way a look-around looks. -/
inductive Direction
  | ahead
  | behind
  deriving DecidableEq, Repr

/-- What an opening parenthesis opens. -/
inductive GroupKind
  | capturing
  | named (name : Text)
  | nonCapturing
  deriving DecidableEq, Repr

/-- The name of a named group. -/
def GroupKind.name? : GroupKind → Option Text
  | named name => some name
  | _ => none

/-- Whether a group captures. -/
def GroupKind.captures : GroupKind → Bool
  | nonCapturing => false
  | _ => true

/-- A regular expression. Groups that capture carry their number, counted from 1 in the order in
which they open. -/
inductive Regex
  | empty
  | set (cs : CharSet)
  | assert (a : Assertion)
  | seq (first second : Regex)
  | alt (first second : Regex)
  | group (number : Nat) (body : Regex)
  /-- Between `least` and `most` times; without `most` there is no upper bound. -/
  | loop (least : Nat) (most : Option Nat) (greedy : Bool) (body : Regex)
  | look (direction : Direction) (negated : Bool) (body : Regex)
  | atomic (body : Regex)
  | backref (number : Nat) (caseless : Bool)
  deriving DecidableEq, Repr

namespace Regex

/-- Whether a quantifier may follow the expression: not after nothing, nor after what takes no
character by its nature. -/
def repeatable : Regex → Bool
  | empty | assert _ | look .. => false
  | _ => true

/-- The expressions one after the other, without the empty ones. -/
def sequence (rs : List Regex) : Regex :=
  match rs.filter (· ≠ empty) with
  | [] => empty
  | r :: rs => join r rs
where
  /-- The expressions one after the other, `r` first. -/
  join (r : Regex) : List Regex → Regex
    | [] => r
    | r' :: rs => seq r (join r' rs)

/-- The expressions as alternatives, the first preferred. An alternation in the last place is kept
apart from the alternatives around it. -/
def alternatives : List Regex → Regex
  | [] => empty
  | [r] => r
  | [r, alt r' s] => alt r (seq empty (alt r' s))
  | r :: r' :: rs => alt r (alternatives (r' :: rs))

/-- The number of characters that every match of the expression takes, if there is one number. -/
def width? : Regex → Option Nat
  | empty | assert _ | look .. => some 0
  | set _ => some 1
  | seq r s => do pure ((← r.width?) + (← s.width?))
  | alt r s => do
    let m ← r.width?
    let n ← s.width?
    if m = n then some m else none
  | group _ r | atomic r => r.width?
  | loop least most _ r => do
    let n ← r.width?
    if most = some least then some (least * n) else none
  | backref .. => none

/-- The widths of the outermost alternatives, if each of them has one. -/
def widths? : Regex → Option (List Nat)
  | alt r s =>
    match (alt r s).width? with
    | some n => some [n]
    | none => do pure ((← r.width?) :: (← s.widths?))
  | r => r.width?.map fun n => [n]

/-- Whether the expression is regular: built from sets, assertions about the ends of lines and of
the text, sequences, alternatives, groups and loops. -/
def isRegular : Regex → Bool
  | empty | set _ => true
  | assert a => !a.concernsWords
  | seq r s | alt r s => r.isRegular && s.isRegular
  | group _ r | loop _ _ _ r => r.isRegular
  | look .. | atomic _ | backref .. => false

end Regex

end UrlRouting
