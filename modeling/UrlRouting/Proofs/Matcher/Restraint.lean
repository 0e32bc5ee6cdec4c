import UrlRouting.Proofs.Matcher.Constraint

/-!
# Flags that constraints leave in force

Flags that are set inside a group of a placeholder stay in force behind it, up to the end of the
optional part, or of the pattern, that it stands in. There they change how literal text and other
constraints are read. The parts of a list are restrained if nothing in the list stands behind a
placeholder whose constraint leaves flags in force.
-/

namespace UrlRouting

namespace Node

mutual

/-- Whether the flags that constraints set are in force for nothing behind a part in its list: a
placeholder is the last part, or no flags are in force behind its constraint. -/
def Restrained (behind : List Node) : Node → Prop
  | literal _ => True
  | placeholder q => behind.isEmpty = true ∨ Matcher.flagsBehind q.expression = {}
  | optional children => RestrainedList children

/-- Whether this is so for each part of a list. -/
def RestrainedList : List Node → Prop
  | [] => True
  | n :: ns => n.Restrained ns ∧ RestrainedList ns

end

mutual

/-- Whether flags are in force behind a part can be decided. -/
def decRestrained (behind : List Node) : (n : Node) → Decidable (n.Restrained behind)
  | literal _ => .isTrue trivial
  | placeholder q =>
    inferInstanceAs (Decidable (behind.isEmpty = true ∨ Matcher.flagsBehind q.expression = {}))
  | optional children => decRestrainedList children

/-- Whether flags are in force behind the parts of a list can be decided. -/
def decRestrainedList : (ns : List Node) → Decidable (RestrainedList ns)
  | [] => .isTrue trivial
  | n :: ns =>
    have := decRestrained ns n
    have := decRestrainedList ns
    inferInstanceAs (Decidable (n.Restrained ns ∧ RestrainedList ns))

end

instance (ns : List Node) : Decidable (RestrainedList ns) := decRestrainedList ns

/-- Constraints that leave no flags in force are restrained everywhere. -/
theorem restrainedList_of_flagsBehind (ns : List Node)
    (h : ∀ q ∈ placeholders.ofNodes ns, Matcher.flagsBehind q.expression = {}) :
    RestrainedList ns := by
  match ns with
  | [] => trivial
  | .literal t :: ns => exact ⟨trivial, restrainedList_of_flagsBehind ns h⟩
  | .placeholder q :: ns =>
    refine ⟨.inr (h q List.mem_cons_self), restrainedList_of_flagsBehind ns fun q mem => ?_⟩
    exact h q (List.mem_cons_of_mem _ mem)
  | .optional children :: ns =>
    exact ⟨restrainedList_of_flagsBehind children fun q mem => h q (List.mem_append_left _ mem),
      restrainedList_of_flagsBehind ns fun q mem => h q (List.mem_append_right _ mem)⟩
termination_by sizeOf ns

end Node

namespace Matcher

open Regex

/-- A constraint is an expression by itself, and is followed by the end of its group in another. -/
structure Enclosable (c : Text) : Prop where
  parses : ∃ parsed, Regex.parse c = .ok parsed
  ended : Reading.Ended ⟨c, {}, []⟩

end Matcher

end UrlRouting
