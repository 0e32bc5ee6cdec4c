import UrlRouting.Text

/-!
# Captures

What a match records: for each group that took part, where it began and where it ended. Positions
count characters from the start of the input.
-/

namespace UrlRouting

/-- The spans of the groups that took part in a match, by number, the latest first. -/
abbrev Captures := List (Nat × Nat × Nat)

/-- The first and the last position of a group, if it took part. -/
def Captures.span? (caps : Captures) (number : Nat) : Option (Nat × Nat) :=
  (caps.find? (·.1 == number)).map Prod.snd

/-- The text between two positions of an input. -/
def textBetween (input : Array Char) (first last : Nat) : Text := (input.extract first last).toList

end UrlRouting
