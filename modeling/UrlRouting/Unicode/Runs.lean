import UrlRouting.Text

/-!
# Reading tables of code points

The tables of character properties are texts of blank-separated entries. This module reads them
and looks a code point up: `Runs` for tables that give every code point a value, `Ranges` for
tables that list the members of a property.
-/

namespace UrlRouting.Unicode

/-- The value of a hexadecimal digit. -/
def hexValue? (c : Char) : Option Nat :=
  if '0' ≤ c ∧ c ≤ '9' then some (c.toNat - '0'.toNat)
  else if 'a' ≤ c ∧ c ≤ 'f' then some (c.toNat - 'a'.toNat + 10)
  else if 'A' ≤ c ∧ c ≤ 'F' then some (c.toNat - 'A'.toNat + 10)
  else none

/-- The number that hexadecimal digits write; characters that are no digits count as zero. -/
def hexNumber (t : Text) : Nat := t.foldl (fun n c => 16 * n + (hexValue? c).getD 0) 0

/-- The entries of a table, without the blanks between them. -/
def entries (table : String) : List Text :=
  ((Text.pieces ' ' (table.toList.map fun c => if c = '\n' then ' ' else c)).filter (· ≠ []))

/-- A value for every code point: entry `(start, v)` holds from `start` up to the next entry. -/
abbrev Runs (α : Type) := Array (Nat × α)

namespace Runs

/-- Reads entries `start:name`, with the value that each name stands for. -/
def read {α : Type} (value : Text → α) (table : String) : Runs α :=
  ((entries table).map fun entry =>
    let (start, name) := Text.splitFirst ':' entry
    (hexNumber start, value (name.getD []))).toArray

/-- The last entry of `runs` that starts at or before `n`, among those from `low` up to `high`. -/
def lookupIn {α : Type} (runs : Runs α) (n low high : Nat) : Option α :=
  if high ≤ low + 1 then (runs[low]?).map Prod.snd
  else
    let middle := (low + high) / 2
    match runs[middle]? with
    | none => none
    | some (start, _) =>
      if start ≤ n then lookupIn runs n middle high else lookupIn runs n low middle
termination_by high - low

/-- The value at a code point. -/
def lookup {α : Type} (runs : Runs α) (n : Nat) : Option α := lookupIn runs n 0 runs.size

end Runs

/-- The members of a property, as ranges of code points in increasing order. -/
abbrev Ranges := Array (Nat × Nat)

namespace Ranges

/-- Reads entries `first-last` and single code points. -/
def read (table : String) : Ranges :=
  ((entries table).map fun entry =>
    let (first, last) := Text.splitFirst '-' entry
    (hexNumber first, hexNumber (last.getD first))).toArray

/-- Whether a range holds a code point. -/
def holds (ranges : Ranges) (n : Nat) : Bool :=
  ranges.any fun (first, last) => first ≤ n && n ≤ last

end Ranges

end UrlRouting.Unicode
