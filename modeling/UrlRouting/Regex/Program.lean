import UrlRouting.Regex.Backtrack
import UrlRouting.Regex.Parser

/-!
# Compiled expressions

`Program.compile` reads an expression and keeps which group has which name. A program is matched
from the start of a text; `Program.match?` gives what its groups took.
-/

namespace UrlRouting

/-- An expression that is ready to be matched, and the kinds of its groups in order. -/
structure Program where
  regex : Regex
  groups : List GroupKind

namespace Program

/-- The number of parts into which an expression unfolds when its loops are written out. -/
def unfoldedSize : Regex → Nat
  | .seq r s | .alt r s => unfoldedSize r + unfoldedSize s
  | .group _ r | .look _ _ r | .atomic r => unfoldedSize r + 1
  | .loop least most _ r => max 1 (most.getD (least + 1)) * unfoldedSize r
  | .empty | .set _ | .assert _ | .backref .. => 1

/-- The greatest unfolded size of an expression. -/
def maxSize : Nat := 327680

/-- Reads an expression, within the limit on its size. -/
def compile (t : Text) : Except Regex.SyntaxError Program := do
  let parsed ← Regex.parse t
  if maxSize < unfoldedSize parsed.regex then throw .tooLarge
  else pure ⟨parsed.regex, (parsed.opened.map Prod.fst).filter (·.captures)⟩

/-- The number of the latest group with a given name. -/
def numberOf? (p : Program) (name : Text) : Option Nat :=
  (p.groups.reverse.findIdx? (·.name? = some name)).map fun i => p.groups.length - i

/-- The captures of the preferred match that starts where the text starts. -/
def match? (p : Program) (input : Array Char) : Option Captures :=
  if p.regex.isRegular then (p.regex.firstWay input 0 []).map Prod.snd
  else
    match p.regex.attempt input 0 [] Regex.budget .found with
    | .found _ caps _ => some caps
    | _ => none

end Program

end UrlRouting
