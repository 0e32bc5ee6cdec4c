import UrlRouting.Regex.Basic
import UrlRouting.Regex.Captures

/-!
# Matching regular expressions without look-around

A regular expression is solved from its end: given the positions where a match may end, `solve`
finds all positions where one may start, and a way from each of them to the end that prefers what
the expression prefers. Nothing is tried twice, so the time is polynomial.

An iteration of a loop that takes no character leaves the loop.
-/

namespace UrlRouting.Regex

/-- Positions in increasing order. -/
abbrev Positions := List Nat

namespace Positions

/-- The positions of both lists. -/
def merge : Positions → Positions → Positions
  | [], qs => qs
  | p :: ps, [] => p :: ps
  | p :: ps, q :: qs =>
    if p < q then p :: merge ps (q :: qs)
    else if q < p then q :: merge (p :: ps) qs
    else p :: merge ps qs
termination_by ps qs => ps.length + qs.length

/-- Whether a position is in the list; the search ends where the positions become greater. -/
def has : Positions → Nat → Bool
  | [], _ => false
  | q :: qs, p => if q < p then has qs p else q == p

end Positions

/-- The positions where a match may start, and the preferred way from each of them to where it
ends. -/
structure Solution where
  starts : Positions
  way : Nat → Captures → Option (Nat × Captures)

namespace Solution

/-- Nothing matches. -/
def none : Solution := ⟨[], fun _ _ => .none⟩

/-- The empty text matches, at the given positions. -/
def here (ends : Positions) : Solution :=
  ⟨ends, fun p caps => if ends.has p then some (p, caps) else .none⟩

/-- A match of the first, which ends where one of the second starts, and then the second. -/
def andThen (first second : Solution) : Solution :=
  ⟨first.starts, fun p caps =>
    match first.way p caps with
    | some (q, caps) => second.way q caps
    | .none => .none⟩

/-- A match of the first where there is one, else one of the second. -/
def orElse (first second : Solution) : Solution :=
  ⟨first.starts.merge second.starts, fun p caps =>
    if first.starts.has p then first.way p caps else second.way p caps⟩

/-- The first before the second in a greedy loop, the other way round in a lazy one. -/
def prefer (greedy : Bool) (first second : Solution) : Solution :=
  if greedy then first.orElse second else second.orElse first

end Solution

/-! ## Loops -/

/-- As many copies of a body, and then the rest. -/
def copies (body : Positions → Solution) (rest : Solution) : Nat → Solution
  | 0 => rest
  | n + 1 =>
    let others := copies body rest n
    (body others.starts).andThen others

/-- At most so many copies of a body, and then the rest. -/
def atMostCopies (body : Positions → Solution) (greedy : Bool) (rest : Solution) : Nat → Solution
  | 0 => rest
  | n + 1 =>
    let others := atMostCopies body greedy rest n
    .prefer greedy ((body others.starts).andThen others) rest

/-- The positions from which copies of a body lead to `known`, whose latest members are `fresh`. -/
def closure (body : Positions → Solution) : Nat → Positions → Positions → Positions
  | 0, known, _ => known
  | fuel + 1, known, fresh =>
    match (body fresh).starts.filter fun p => !known.has p with
    | [] => known
    | p :: ps => closure body fuel (known.merge (p :: ps)) (p :: ps)

/-- Goes through copies of a body to one of `ends`; `starts` are the positions from which this is
possible and `once` is the solution of one copy that ends at one of these. -/
def walk (body : Positions → Solution) (greedy : Bool) (ends starts : Positions)
    (once : Solution) : Nat → Nat → Captures → Option (Nat × Captures)
  | 0, _, _ => none
  | fuel + 1, p, caps =>
    let stop := if ends.has p then some (p, caps) else none
    let go :=
      match once.way p caps with
      | none => none
      | some (q, caps') =>
        if q ≠ p then walk body greedy ends starts once fuel q caps'
        else if ends.has p then some (p, caps')
        else
          match (body (starts.filter (· ≠ p))).way p caps with
          | none => none
          | some (q, caps') => walk body greedy ends starts once fuel q caps'
    if greedy then go.or stop else stop.or go

/-- Any number of copies of a body, in an input of the given length. -/
def anyCopies (length : Nat) (body : Positions → Solution) (greedy : Bool) (ends : Positions) :
    Solution :=
  let starts := closure body (length + 1) ends ends
  ⟨starts, walk body greedy ends starts (body starts) (length + 1)⟩

/-! ## Expressions -/

/-- The matches of a regular expression that end at one of the given positions. Expressions that
are not regular have none. -/
def solve (input : Array Char) : Regex → Positions → Solution
  | empty, ends => .here ends
  | set cs, ends =>
    let takes (p : Nat) : Bool := (input[p]?).any cs.contains
    ⟨ends.filterMap fun q => if 0 < q && takes (q - 1) then some (q - 1) else none,
      fun p caps => if ends.has (p + 1) && takes p then some (p + 1, caps) else none⟩
  | assert a, ends => .here (ends.filter fun p => a.holds input p)
  | seq r s, ends =>
    let second := solve input s ends
    (solve input r second.starts).andThen second
  | alt r s, ends => (solve input r ends).orElse (solve input s ends)
  | group number r, ends =>
    let body := solve input r ends
    ⟨body.starts, fun p caps =>
      (body.way p caps).map fun (q, caps) => (q, (number, p, q) :: caps)⟩
  | loop least most greedy r, ends =>
    let body := solve input r
    let further :=
      match most with
      | none => anyCopies input.size body greedy ends
      | some most => atMostCopies body greedy (.here ends) (most - least)
    copies body further least
  | look .., _ => .none
  | atomic _, _ => .none
  | backref .., _ => .none

/-- All positions of an input from a given one on. -/
def positionsFrom (input : Array Char) (p : Nat) : Positions := List.range' p (input.size + 1 - p)

/-- The preferred match of a regular expression that starts at a position. -/
def firstWay (input : Array Char) (r : Regex) (p : Nat) (caps : Captures) :
    Option (Nat × Captures) :=
  (solve input r (positionsFrom input p)).way p caps

end UrlRouting.Regex
