import UrlRouting.Regex.Reach

/-!
# Matching by trying

The matcher for expressions that are not regular: it follows the preferred way and, where that
fails, resumes the latest choice. A budget bounds the number of resumptions.

An iteration of an unbounded loop that takes no character fails, except for those which the loop
demands. Look-around and atomic groups keep the first way through their body.
-/

namespace UrlRouting.Regex

/-- What became of an attempt, and the budget that is left. -/
inductive Outcome
  | found (stop : Nat) (caps : Captures) (left : Nat)
  | failed (left : Nat)
  | exhausted

/-- Resumes with another way where the first has failed, at the cost of one. -/
def Outcome.orElse (first : Outcome) (second : Nat → Outcome) : Outcome :=
  match first with
  | failed (left + 1) => second left
  | failed 0 => exhausted
  | other => other

/-- What is done from a position on, with the captures so far and the budget. -/
abbrev Attempt := Nat → Captures → Nat → Outcome

/-- Matches an expression from a position on and goes on with an attempt behind it. -/
abbrev Trial := Nat → Captures → Nat → Attempt → Outcome

/-! ## Loops -/

/-- As many copies of a body. -/
def tryCopies (body : Trial) : Nat → Trial
  | 0, i, caps, left, next => next i caps left
  | n + 1, i, caps, left, next =>
    body i caps left fun j caps left => tryCopies body n j caps left next

/-- The first before the second in a greedy loop, the other way round in a lazy one. -/
def tryBoth (greedy : Bool) (left : Nat) (first second : Nat → Outcome) : Outcome :=
  if greedy then (first left).orElse second else (second left).orElse first

/-- At most so many copies of a body. -/
def tryAtMost (body : Trial) (greedy : Bool) : Nat → Trial
  | 0, i, caps, left, next => next i caps left
  | n + 1, i, caps, left, next =>
    tryBoth greedy left
      (fun left => body i caps left fun j caps left => tryAtMost body greedy n j caps left next)
      (fun left => next i caps left)

/-- Any number of copies of a body, each of which takes a character; `fuel` is more than the number
of characters that are left. -/
def tryAny (body : Trial) (greedy : Bool) : (fuel : Nat) → Trial
  | 0, i, caps, left, next => next i caps left
  | fuel + 1, i, caps, left, next =>
    tryBoth greedy left
      (fun left => body i caps left fun j caps left =>
        if j = i then .failed left else tryAny body greedy fuel j caps left next)
      (fun left => next i caps left)

/-! ## Look-around and back-references -/

/-- The first way through a body, by itself. -/
def firstOutcome (input : Array Char) (r : Regex) (run : Trial) : Attempt := fun i caps left =>
  if r.isRegular then
    match firstWay input r i caps with
    | some (j, caps) => .found j caps left
    | none => .failed left
  else run i caps left .found

/-- The first way through a body that ends at a position and starts one of the given widths before
it. -/
def firstBehind (input : Array Char) (r : Regex) (run : Trial) (widths : List Nat) : Attempt :=
  fun i caps left =>
    match widths with
    | [] => .failed left
    | w :: ws =>
      let others := firstBehind input r run ws i caps
      if i < w then others left
      else if r.isRegular then
        match (solve input r [i]).way (i - w) caps with
        | some (j, caps) => .found j caps left
        | none => others left
      else
        (run (i - w) caps left fun j caps left =>
          if j = i then .found j caps left else .failed left).orElse others

/-- Goes on at the position of a look-around after what has become of its body. -/
def afterLook (negated : Bool) (i : Nat) (caps : Captures) (next : Attempt) : Outcome → Outcome
  | .found _ caps' left => if negated then .failed left else next i caps' left
  | .failed left => if negated then next i caps left else .failed left
  | .exhausted => .exhausted

/-- Whether two characters are the same, or variants of each other under case folding. -/
def sameChar (caseless : Bool) (a b : Char) : Bool :=
  a == b || caseless && Unicode.caseKey a == Unicode.caseKey b

/-- Whether the text at a position begins with a given text. -/
def textAt (input : Array Char) (caseless : Bool) (t : Text) (i : Nat) : Bool :=
  match t with
  | [] => true
  | c :: t => (input[i]?).any (sameChar caseless c) && textAt input caseless t (i + 1)

/-! ## Expressions -/

/-- Tries an expression. -/
def attempt (input : Array Char) : Regex → Trial
  | empty, i, caps, left, next => next i caps left
  | set cs, i, caps, left, next =>
    if (input[i]?).any cs.contains then next (i + 1) caps left else .failed left
  | assert a, i, caps, left, next => if a.holds input i then next i caps left else .failed left
  | seq r s, i, caps, left, next =>
    attempt input r i caps left fun j caps left => attempt input s j caps left next
  | alt r s, i, caps, left, next =>
    (attempt input r i caps left next).orElse fun left => attempt input s i caps left next
  | group number r, i, caps, left, next =>
    attempt input r i caps left fun j caps left => next j ((number, i, j) :: caps) left
  | loop least most greedy r, i, caps, left, next =>
    tryCopies (attempt input r) least i caps left fun j caps left =>
      match most with
      | none => tryAny (attempt input r) greedy (input.size + 1 - j) j caps left next
      | some most => tryAtMost (attempt input r) greedy (most - least) j caps left next
  | look .ahead negated r, i, caps, left, next =>
    afterLook negated i caps next (firstOutcome input r (attempt input r) i caps left)
  | look .behind negated r, i, caps, left, next =>
    afterLook negated i caps next
      (firstBehind input r (attempt input r) (r.widths?.getD []) i caps left)
  | atomic r, i, caps, left, next =>
    match firstOutcome input r (attempt input r) i caps left with
    | .found j caps left => next j caps left
    | other => other
  | backref number caseless, i, caps, left, next =>
    match caps.span? number with
    | some (first, last) =>
      if textAt input caseless (textBetween input first last) i then
        next (i + (last - first)) caps left
      else .failed left
    | none => .failed left

/-- How many times a match may resume. -/
def budget : Nat := 1000000

end UrlRouting.Regex
