import UrlRouting.Proofs.Matcher.Groups
import UrlRouting.Proofs.Matcher.Restraint
import UrlRouting.Proofs.Pattern.Parsing

/-!
# The groups that the guard lets through

The guard of constraints refuses groups that capture without a name, names that are kept for
placeholders and names that occur twice. Where it sees what the reader of expressions sees, the
groups of a matcher are those of the placeholders and the named groups of their constraints.
-/

namespace UrlRouting

open Regex Constraint

/-! ## What the guard sees -/

/-- The groups of placeholders, the first of which has a given index, and of their constraints, as
the guard sees them. -/
def Matcher.guardedGroups (index : Nat) : List Placeholder → List GroupKind
  | [] => []
  | p :: ps =>
    .named (groupName index) :: p.groupNames.map .named ++ guardedGroups (index + 1) ps

namespace Pattern

/-- The groups of a pattern as the guard sees them. -/
def guardedGroups (p : Pattern) : List GroupKind := Matcher.guardedGroups 0 p.placeholders

/-- No bracket is open inside a class in the constraint of a placeholder. -/
def Shallow (p : Pattern) : Prop := ∀ q ∈ p.placeholders, ∀ c ∈ q.constraint, Lex.outside.Shallow c

/-- The constraints of all placeholders are as a mode asks. -/
def Quiet (mode : Mode) (p : Pattern) : Prop :=
  ∀ q ∈ p.placeholders, ∀ c ∈ q.constraint, UrlRouting.Quiet mode c

end Pattern

namespace Matcher

theorem names_guardedGroups (index : Nat) (ps : List Placeholder) :
    ∀ kind ∈ guardedGroups index ps, (∃ i, index ≤ i ∧ i < index + ps.length ∧
      kind = .named (groupName i)) ∨ ∃ g ∈ ps.flatMap (·.groupNames), kind = .named g := by
  induction ps generalizing index with
  | nil => nofun
  | cons p ps ih =>
    intro kind mem
    rw [guardedGroups, List.mem_append, List.mem_cons, List.mem_map] at mem
    rcases mem with (rfl | ⟨g, mem, rfl⟩) | mem
    · exact .inl ⟨index, Nat.le_refl _, by simp, rfl⟩
    · exact .inr ⟨g, List.mem_append_left _ mem, rfl⟩
    · rcases ih (index + 1) kind mem with ⟨i, low, high, same⟩ | ⟨g, mem, same⟩
      · refine .inl ⟨i, by omega, ?_, same⟩
        rw [List.length_cons]
        omega
      · exact .inr ⟨g, List.mem_append_right _ mem, same⟩

/-- The names of the groups that the guard sees are distinct, since those of constraints are not
reserved. -/
theorem nodup_guardedGroups {index : Nat} {ps : List Placeholder}
    (unreserved : ∀ g ∈ ps.flatMap (·.groupNames), ¬ reservedBeginning <+: g)
    (unrepeated : (ps.flatMap (·.groupNames)).Nodup) : (guardedGroups index ps).Nodup := by
  induction ps generalizing index with
  | nil => exact .nil
  | cons p ps ih =>
    rw [List.flatMap_cons] at unreserved unrepeated
    obtain ⟨here, later, apart⟩ := List.nodup_append.mp unrepeated
    have reserved : ∀ i, reservedBeginning <+: groupName i := fun i => List.prefix_append _ _
    rw [guardedGroups, List.nodup_append, List.nodup_cons]
    have distinct : (p.groupNames.map GroupKind.named).Nodup :=
      List.Pairwise.map _ (fun _ _ ne same => ne (GroupKind.named.inj same)) here
    refine ⟨⟨?_, distinct⟩, ?_, ?_⟩
    · intro mem
      obtain ⟨g, mem, same⟩ := List.mem_map.mp mem
      refine unreserved g (List.mem_append_left _ mem) ?_
      rw [GroupKind.named.inj same]
      exact reserved index
    · exact ih (fun g mem => unreserved g (List.mem_append_right _ mem)) later
    · intro kind mem kind' mem' same
      subst same
      rcases names_guardedGroups _ _ kind mem' with ⟨i, low, -, rfl⟩ | ⟨g', later', rfl⟩
      · rcases List.mem_cons.mp mem with same | mem
        · have same := groupName_injective (GroupKind.named.inj same)
          omega
        · obtain ⟨g, mem, same⟩ := List.mem_map.mp mem
          refine unreserved g (List.mem_append_left _ mem) ?_
          rw [GroupKind.named.inj same]
          exact reserved i
      · rcases List.mem_cons.mp mem with same | mem
        · refine unreserved g' (List.mem_append_right _ later') ?_
          rw [GroupKind.named.inj same]
          exact reserved index
        · obtain ⟨g, mem, same⟩ := List.mem_map.mp mem
          exact apart g mem g' later' (GroupKind.named.inj same)

/-! ## What the reader sees -/

/-- Groups that all capture by name are told by their names. -/
theorem captured_eq {t : Text} (named : ∀ kind ∈ kinds t, kind ≠ .capturing) :
    captured t = (readNames t).map .named := by
  rw [captured, readNames]
  generalize kinds t = ks at named ⊢
  induction ks with
  | nil => rfl
  | cons kind ks ih =>
    have ih := ih fun k mem => named k (List.mem_cons_of_mem _ mem)
    cases kind with
    | capturing => exact absurd rfl (named _ List.mem_cons_self)
    | named name => exact congrArg (GroupKind.named name :: ·) ih
    | nonCapturing => exact ih

theorem placeholderGroups_eq {index : Nat} {ps : List Placeholder}
    (uncaptured : ∀ p ∈ ps, ∀ c ∈ p.constraint, firstCapturing? c = none)
    (shallow : ∀ p ∈ ps, ∀ c ∈ p.constraint, Lex.outside.Shallow c) :
    placeholderGroups index ps = guardedGroups index ps := by
  induction ps generalizing index with
  | nil => rfl
  | cons p ps ih =>
    have here : captured p.expression = p.groupNames.map .named := by
      unfold Placeholder.expression Placeholder.groupNames
      cases given : p.constraint with
      | none =>
        have none : kinds defaultConstraint = [] := by decide
        exact congrArg (List.filter _) none
      | some c =>
        rw [Option.getD_some, Option.elim_some, captured_eq fun kind mem =>
          not_capturing_of_mem_kinds (uncaptured p List.mem_cons_self c given) mem,
          readNames_eq (shallow p List.mem_cons_self c given)]
    rw [placeholderGroups, guardedGroups, here,
      ih (fun q mem => uncaptured q (List.mem_cons_of_mem p mem))
        fun q mem => shallow q (List.mem_cons_of_mem p mem)]

/-- What a compiled matcher has checked of each constraint. -/
theorem exists_parsed_of_mem {p : Pattern} {m : Matcher} (h : ofPattern p = .ok m)
    {q : Placeholder} (mem : q ∈ p.placeholders) : ∃ parsed,
      Regex.parse q.expression = .ok parsed := by
  unfold Placeholder.expression
  cases given : q.constraint with
  | none =>
    obtain ⟨parsed, alone, -⟩ := parse_defaultConstraint
    exact ⟨parsed, alone⟩
  | some c =>
    obtain ⟨u, constraints, -⟩ := bind_eq_ok.mp h
    obtain ⟨i, passed⟩ := checkConstraint_of_mem constraints mem
    obtain ⟨⟨program, alone⟩, -⟩ := checkConstraint_eq_ok given passed
    obtain ⟨parsed, alone, -⟩ := exists_parsed alone
    exact ⟨parsed, alone⟩

/-- The constraints of a pattern with a matcher can be put in groups. -/
theorem enclosable_of_mem {p : Pattern} {m : Matcher} (h : ofPattern p = .ok m)
    {q : Placeholder} (mem : q ∈ p.placeholders) : Enclosable q.expression := by
  refine ⟨exists_parsed_of_mem h mem, ?_⟩
  unfold Placeholder.expression
  cases given : q.constraint with
  | none => exact ended_defaultConstraint
  | some c =>
    obtain ⟨u, constraints, -⟩ := bind_eq_ok.mp h
    obtain ⟨i, passed⟩ := checkConstraint_of_mem constraints mem
    exact ended_of_checkConstraint given passed

end Matcher

namespace Pattern.WellFormed

variable {p : Pattern} {m : Matcher} {mode : Mode}

theorem admitted (wellFormed : p.WellFormed) (h : Matcher.ofPattern p = .ok m)
    (quiet : p.Quiet mode) {q : Placeholder} (mem : q ∈ p.placeholders) :
    Admitted mode q.expression := by
  have alone := Matcher.exists_parsed_of_mem h mem
  unfold Placeholder.expression at alone ⊢
  cases given : q.constraint with
  | none => exact Admitted.default mode
  | some c =>
    rw [given] at alone
    have proper := wellFormed.constrained q mem c given
    exact ⟨alone, quiet q mem c given,
      fun kind mem => not_capturing_of_mem_kinds proper.uncaptured mem⟩

/-- Where no comment can begin, and the guard reads classes as the reader does, the matcher has
exactly the groups that the guard sees. -/
theorem groups_eq (wellFormed : p.WellFormed) (h : Matcher.ofPattern p = .ok m)
    (calm : mode ≠ .any) (quiet : p.Quiet mode) (shallow : p.Shallow) :
    m.program.groups = p.guardedGroups := by
  rw [Matcher.groups_of_ofPattern calm h fun q mem => wellFormed.admitted h quiet mem]
  exact Matcher.placeholderGroups_eq
    (fun q mem c given => (wellFormed.constrained q mem c given).uncaptured) shallow

end Pattern.WellFormed

namespace Pattern

theorem compile_eq_ok {placement : OptionalPlacement} {t : Text} {p : Pattern} {m : Matcher} :
    compile placement t = .ok (p, m) ↔ parse placement t = .ok p ∧ Matcher.ofPattern p = .ok m := by
  constructor
  · intro h
    have parsed : parse placement t = .ok p := by
      rw [parse, h]
      rfl
    obtain ⟨q, scanned, compiled⟩ := bind_eq_ok.mp h
    obtain ⟨m', checked, compiled⟩ := bind_eq_ok.mp compiled
    cases compiled
    obtain ⟨u, -, matcher⟩ := bind_eq_ok.mp checked
    exact ⟨parsed, matcher⟩
  · rintro ⟨parsed, matcher⟩
    obtain ⟨⟨q, m'⟩, compiled, same⟩ := bind_eq_ok.mp parsed
    cases same
    obtain ⟨q, scanned, checked⟩ := bind_eq_ok.mp compiled
    obtain ⟨m'', checked, same⟩ := bind_eq_ok.mp checked
    cases same
    obtain ⟨u, -, matcher'⟩ := bind_eq_ok.mp checked
    rw [matcher] at matcher'
    cases matcher'
    exact compiled

/-- The groups of a matcher are those that stand in the expression of its pattern when comments are
left out. So they are what the guard lets through, each once, if and only if the comments hide and
show no group. This is the case where no comment can begin and no bracket stands inside a class. -/
theorem groups_of_compile {placement : OptionalPlacement} {t : Text} {p : Pattern} {m : Matcher}
    (h : compile placement t = .ok (p, m)) :
    (m.program.groups = p.guardedGroups ↔
      Matcher.captured (uncommented ⟨{}, [], .outside⟩ p.expression) = p.guardedGroups) ∧
    p.guardedGroups.Nodup ∧
    (∀ kind ∈ p.guardedGroups,
      (∃ i < p.placeholders.length, kind = .named (Matcher.groupName i)) ∨
        ∃ g ∈ p.groupNames, ¬ Matcher.reservedBeginning <+: g ∧ kind = .named g) ∧
    (∀ mode ≠ Mode.any, p.Quiet mode → p.Shallow → m.program.groups = p.guardedGroups) := by
  obtain ⟨parsed, matcher⟩ := compile_eq_ok.mp h
  have wellFormed := (wellFormed_of_parse parsed).1
  refine ⟨?_, ?_, ?_, ?_⟩
  · obtain ⟨u, -, program⟩ := bind_eq_ok.mp matcher
    obtain ⟨program, compiled, same⟩ := bind_eq_ok.mp program
    cases same
    obtain ⟨whole, read, -, groups⟩ := Matcher.exists_parsed (Matcher.compile_eq_ok.mp compiled)
    rw [Matcher.captured, ← Matcher.kinds_opened read, ← groups]
  · exact Matcher.nodup_guardedGroups wellFormed.unreserved wellFormed.unrepeated
  · intro kind mem
    rcases Matcher.names_guardedGroups 0 p.placeholders kind mem with
      ⟨i, -, high, same⟩ | ⟨g, mem, same⟩
    · exact .inl ⟨i, by omega, same⟩
    · exact .inr ⟨g, mem, wellFormed.unreserved g mem, same⟩
  · intro mode calm quiet shallow
    exact wellFormed.groups_eq matcher calm quiet shallow

/-- A comment without brackets hides nothing. -/
theorem groups_beside_comment : ∃ p m,
    compile .anywhere "/\x7ba:(?# a note)(?<y>[0-9]+)\x7d[/\x7bb\x7d]".toList = .ok (p, m) ∧
      m.program.groups = p.guardedGroups ∧
      p.guardedGroups = [.named (Matcher.groupName 0), .named "y".toList,
        .named (Matcher.groupName 1)] := by
  obtain ⟨⟨p, m⟩, compiled, holds⟩ := exists_ok_of_any
    (compile .anywhere "/\x7ba:(?# a note)(?<y>[0-9]+)\x7d[/\x7bb\x7d]".toList)
    (fun x =>
      Matcher.captured (uncommented ⟨{}, [], .outside⟩ x.1.expression) = x.1.guardedGroups &&
        x.1.guardedGroups = [.named (Matcher.groupName 0), .named "y".toList,
          .named (Matcher.groupName 1)])
    (by decide +kernel)
  obtain ⟨alike, groups⟩ := Bool.and_eq_true_iff.mp holds
  exact ⟨p, m, compiled, (groups_of_compile compiled).1.mpr (of_decide_eq_true alike),
    of_decide_eq_true groups⟩

/-- A comment with a bracket hides the group behind it from the guard. -/
theorem group_behind_comment : ∃ p m,
    compile .anywhere "/\x7ba:(?#[)(b)(?#])\x7d".toList = .ok (p, m) ∧
      p.guardedGroups = [.named (Matcher.groupName 0)] ∧
      m.program.groups = [.named (Matcher.groupName 0), .capturing] := by
  obtain ⟨⟨p, m⟩, compiled, holds⟩ := exists_ok_of_any
    (compile .anywhere "/\x7ba:(?#[)(b)(?#])\x7d".toList)
    (fun x => x.1.guardedGroups = [.named (Matcher.groupName 0)] &&
      x.2.program.groups = [.named (Matcher.groupName 0), .capturing])
    (by decide +kernel)
  obtain ⟨guarded, groups⟩ := Bool.and_eq_true_iff.mp holds
  exact ⟨p, m, compiled, of_decide_eq_true guarded, of_decide_eq_true groups⟩

end Pattern

end UrlRouting
