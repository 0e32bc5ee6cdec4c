import UrlRouting.Unicode.CaseRuns
import UrlRouting.Unicode.Runs

/-!
# Case variants

`caseKey` sends a character to the least one that simple case folding identifies with it, and
`caseVariants` lists all of them. Two characters are variants when they have one key.
-/

namespace UrlRouting.Unicode

/-- A run of code points that lie a fixed distance above the key of their class. -/
structure CaseRun where
  first : Nat
  last : Nat
  step : Nat
  distance : Nat

namespace CaseRun

/-- Whether the run covers a code point. -/
def covers (r : CaseRun) (n : Nat) : Bool :=
  r.first ≤ n && n ≤ r.last && (n - r.first) % r.step == 0

/-- Reads an entry `first-last:distance` or `first-last/2:distance`. -/
def ofEntry (entry : Text) : CaseRun :=
  let (span, distance) := Text.splitFirst ':' entry
  let (span, step) := Text.splitFirst '/' span
  let (first, last) := Text.splitFirst '-' span
  { first := hexNumber first
    last := hexNumber (last.getD first)
    step := if step.isSome then 2 else 1
    distance := hexNumber (distance.getD []) }

end CaseRun

/-- The runs of code points that are not the key of their class. -/
def caseTable : List CaseRun := (entries caseRuns).map CaseRun.ofEntry

/-- The least code point of the case class of `n`. -/
def caseKeyOf (n : Nat) : Nat :=
  match caseTable.find? (·.covers n) with
  | some r => n - r.distance
  | none => n

/-- The least character of the case class. -/
def caseKey (c : Char) : Char := Char.ofNat (caseKeyOf c.toNat)

/-- All characters of the case class: the key, and the members of the runs above it. -/
def caseVariants (c : Char) : List Char :=
  let key := caseKeyOf c.toNat
  Char.ofNat key :: caseTable.filterMap fun r =>
    if r.covers (key + r.distance) then some (Char.ofNat (key + r.distance)) else none

end UrlRouting.Unicode
