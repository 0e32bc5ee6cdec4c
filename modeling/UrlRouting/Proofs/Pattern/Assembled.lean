import UrlRouting.Proofs.Matcher.Assembling
import UrlRouting.Proofs.Pattern.Parsing

/-!
# Checked constraints assemble

The matcher checks each constraint by itself and in its group, and then compiles the expression of
the whole pattern. The checks decide the outcome (`ofPattern_of_checkPlaceholders`): the expression
compiles if the constraints do, and if they do not, the first that does not is named.

This is so where no constraint changes how what follows it is read, by a comment or by flags, where
groups are nested no deeper than the reader goes, and where every optional part has an expression.
An optional part without one makes the expression of the whole pattern fail
(`ofPattern_of_emptyOptional`). No text is read as such a part, but a tree may have one.
-/

namespace UrlRouting

open Regex

/-- Optional parts in shape have expressions. -/
theorem Node.filledList_of_shapedList (ns : List Node) (shaped : ShapedList ns) :
    FilledList ns := by
  match ns with
  | [] => trivial
  | .literal t :: ns => exact ⟨trivial, filledList_of_shapedList ns shaped.2.2⟩
  | .placeholder q :: ns => exact ⟨trivial, filledList_of_shapedList ns shaped.2.2⟩
  | .optional children :: ns =>
    obtain ⟨⟨some, inside⟩, -, behind⟩ := shaped
    refine ⟨⟨fun nothing => ?_, filledList_of_shapedList children inside⟩,
      filledList_of_shapedList ns behind⟩
    rw [Matcher.fragmentOfNodes_eq_nil] at nothing
    cases children with
    | nil => exact some rfl
    | cons n children =>
      obtain rfl := nothing n List.mem_cons_self
      exact inside.1.1 rfl
termination_by sizeOf ns

/-- In every pattern that is read, optional parts have expressions. -/
theorem Pattern.filledList_of_scan {placement : OptionalPlacement} {t : Text} {p : Pattern}
    (scanned : scan placement t = .ok p) : Node.FilledList p.nodes :=
  Node.filledList_of_shapedList p.nodes (scan_written scanned).shaped

namespace Matcher

/-! ## Usable constraints -/

/-- The constraint of a placeholder with a given index compiles by itself and inside its group. -/
def Usable (index : Nat) (q : Placeholder) : Prop :=
  ∀ c ∈ q.constraint, (∃ program, Program.compile c = .ok program) ∧
    ∃ program, Program.compile ('^' :: capture index q ++ ['$']) = .ok program

/-- The constraints of all placeholders in a list are usable. The first has a given index. -/
def AllUsable (index : Nat) : List Placeholder → Prop
  | [] => True
  | q :: qs => Usable index q ∧ AllUsable (index + 1) qs

/-- The first placeholder in a list whose constraint is not usable. -/
def FirstUnusable (index : Nat) (ps : List Placeholder) (q : Placeholder) : Prop :=
  ∃ before after, ps = before ++ q :: after ∧ AllUsable index before ∧
    ¬ Usable (index + before.length) q

theorem checkConstraint_eq_ok_iff {index : Nat} {q : Placeholder} :
    checkConstraint index q = .ok () ↔ Usable index q := by
  constructor
  · intro h c given
    exact checkConstraint_eq_ok given h
  · intro usable
    unfold checkConstraint
    split
    next => rfl
    next c given =>
      obtain ⟨⟨program, alone⟩, program', inGroup⟩ := usable c given
      dsimp only
      rw [compile_eq_ok.mpr alone, ok_bind, compile_eq_ok.mpr inGroup]
      rfl

theorem compile_eq_error {ε : Type} {cause : SyntaxError → ε} {t : Text} {e : ε}
    (h : compile cause t = .error e) : ∃ e', Program.compile t = .error e' ∧ e = cause e' := by
  unfold compile at h
  split at h
  next => cases h
  next e' failed =>
    cases h
    exact ⟨e', failed, rfl⟩

/-- A constraint that fails its check is refused under the name of its placeholder. -/
theorem checkConstraint_eq_error {index : Nat} {q : Placeholder} {e : PatternError}
    (h : checkConstraint index q = .error e) :
    ∃ cause, e = .invalidConstraint q.name (.expression cause) := by
  unfold checkConstraint at h
  split at h
  next => cases h
  next c given =>
    rcases bind_eq_error.mp h with alone | ⟨program, -, h⟩
    · obtain ⟨cause, -, same⟩ := compile_eq_error alone
      exact ⟨cause, same⟩
    · rcases bind_eq_error.mp h with inGroup | ⟨program', -, h⟩
      · obtain ⟨cause, -, same⟩ := compile_eq_error inGroup
        exact ⟨cause, same⟩
      · cases h

theorem checkConstraints_eq_ok_iff {index : Nat} {ps : List Placeholder} :
    checkConstraints index ps = .ok () ↔ AllUsable index ps := by
  induction ps generalizing index with
  | nil => exact ⟨fun _ => trivial, fun _ => rfl⟩
  | cons q ps ih =>
    rw [checkConstraints, bind_eq_ok, AllUsable, ← ih, ← checkConstraint_eq_ok_iff]
    constructor
    · rintro ⟨u, first, rest⟩
      exact ⟨first, rest⟩
    · rintro ⟨first, rest⟩
      exact ⟨(), first, rest⟩

/-- The check names the first placeholder whose constraint is not usable. -/
theorem exists_firstUnusable {index : Nat} {ps : List Placeholder} {e : PatternError}
    (h : checkConstraints index ps = .error e) :
    ∃ q cause, FirstUnusable index ps q ∧ e = .invalidConstraint q.name (.expression cause) := by
  induction ps generalizing index with
  | nil => cases h
  | cons p ps ih =>
    rcases bind_eq_error.mp h with failed | ⟨u, passed, h⟩
    · obtain ⟨cause, same⟩ := checkConstraint_eq_error failed
      refine ⟨p, cause, ⟨[], ps, rfl, trivial, fun usable => ?_⟩, same⟩
      have passed : checkConstraint index p = .ok () := checkConstraint_eq_ok_iff.mpr usable
      rw [passed] at failed
      cases failed
    · obtain ⟨q, cause, ⟨before, after, rfl, usable, fails⟩, same⟩ := ih h
      refine ⟨q, cause, ⟨p :: before, after, rfl, ⟨?_, usable⟩, ?_⟩, same⟩
      · exact checkConstraint_eq_ok_iff.mp passed
      · rwa [List.length_cons, ← Nat.add_assoc, Nat.add_right_comm]

/-! ## Patterns -/

/-- No comment can begin in a constraint, and if it is an expression, no group in it sets flags for
what follows. In an expression blanks stand between flags only where they are ignored, so
`setsFlags` finds no other groups in it. -/
def Plain (c : Text) : Prop :=
  '#' ∉ c ∧ ((Regex.parse c).toBool = true → ∀ w ∈ openings c, setsFlags w = false)

instance (c : Text) : Decidable (Plain c) :=
  inferInstanceAs (Decidable
    ('#' ∉ c ∧ ((Regex.parse c).toBool = true → ∀ w ∈ openings c, setsFlags w = false)))

theorem ready_of_usable {index : Nat} {q : Placeholder} (usable : Usable index q)
    (uncaptured : ∀ c ∈ q.constraint, Constraint.firstCapturing? c = none)
    (plain : ∀ c ∈ q.constraint, Plain c) : Ready q.expression := by
  cases given : q.constraint with
  | none =>
    rw [Placeholder.expression, given]
    exact .default
  | some c =>
    obtain ⟨⟨program, alone⟩, -⟩ := usable c given
    obtain ⟨parsed, alone, -⟩ := exists_parsed alone
    obtain ⟨hash, lasting⟩ := plain c given
    rw [Placeholder.expression, given]
    exact .of_parse alone hash (uncaptured c given) (lasting (by rw [alone]; rfl))

theorem AllUsable.exists_usable {index : Nat} {ps : List Placeholder} (all : AllUsable index ps)
    {q : Placeholder} (mem : q ∈ ps) : ∃ i, Usable i q := by
  induction ps generalizing index with
  | nil => cases mem
  | cons p ps ih =>
    rcases List.mem_cons.mp mem with rfl | mem
    · exact ⟨index, all.1⟩
    · exact ih all.2 mem

/-- An expression that can be read compiles, unless it is too large. -/
theorem exists_compile {t : Text} {parsed : Parsed} (read : Regex.parse t = .ok parsed)
    (small : Program.compile t ≠ .error .tooLarge) :
    ∃ program, Program.compile t = .ok program := by
  unfold Program.compile at small ⊢
  rw [read, ok_bind] at small ⊢
  split at small
  next => exact absurd rfl small
  next fits => exact ⟨_, if_neg fits⟩

/-- The checks of constraints decide whether a pattern compiles.

The pattern has passed the checks of names and groups. No optional part in it has an empty
expression, which is so in every pattern that is read. In its constraints no comment can begin and
no group sets flags for what follows. Its expression nests groups no deeper than the reader goes,
and is not too large.

Then the expression of the pattern is never at fault. The pattern compiles if all its constraints
are usable, and otherwise the first that is not is refused under the name of its placeholder. -/
theorem ofPattern_of_checkPlaceholders {p : Pattern} (filled : Node.FilledList p.nodes)
    (checked : Pattern.checkPlaceholders [] [] p.placeholders = .ok ())
    (plain : ∀ q ∈ p.placeholders, ∀ c ∈ q.constraint, Plain c)
    (nests : Lex.outside.nesting 0 p.expression ≤ maxNesting)
    (small : Program.compile p.expression ≠ .error .tooLarge) :
    (∀ cause, ofPattern p ≠ .error (.invalidMatcher cause)) ∧
      (AllUsable 0 p.placeholders → ∃ m, ofPattern p = .ok m) ∧
      (¬ AllUsable 0 p.placeholders → ∃ q cause, FirstUnusable 0 p.placeholders q ∧
        ofPattern p = .error (.invalidConstraint q.name (.expression cause))) := by
  have uncaptured := (Pattern.checkPlaceholders_eq_ok.mp checked).uncaptured
  cases outcome : checkConstraints 0 p.placeholders with
  | ok u =>
    have usable : AllUsable 0 p.placeholders := checkConstraints_eq_ok_iff.mp outcome
    have ready : ∀ q ∈ p.placeholders, Ready q.expression := by
      intro q mem
      obtain ⟨i, here⟩ := usable.exists_usable mem
      exact ready_of_usable here (uncaptured q mem) (plain q mem)
    obtain ⟨parsed, read⟩ := exists_parse_expression ready filled nests
    obtain ⟨program, compiled⟩ := exists_compile read small
    have made : ofPattern p = .ok ⟨p.expression, program, p.names⟩ := by
      rw [ofPattern, outcome, ok_bind, compile_eq_ok.mpr compiled]
      rfl
    refine ⟨fun cause failed => ?_, fun _ => ⟨_, made⟩, fun not => absurd usable not⟩
    rw [made] at failed
    cases failed
  | error e =>
    obtain ⟨q, cause, first, rfl⟩ := exists_firstUnusable outcome
    have failed : ofPattern p = .error (.invalidConstraint q.name (.expression cause)) := by
      rw [ofPattern, outcome]
      rfl
    refine ⟨fun cause' other => ?_, fun usable => ?_, fun _ => ⟨q, cause, first, failed⟩⟩
    · rw [failed] at other
      cases other
    · rw [checkConstraints_eq_ok_iff.mpr usable] at outcome
      cases outcome

/-- A group with flags of its own in an optional part, and a repetition in the part inside it. -/
theorem ofPattern_of_nested : ∃ p m,
    Pattern.scan .anywhere "/a.b[/\x7bx:(?i:b+|c)\x7d[\x7by:-\x7b2\x7d\x7d?]]\x7bz\x7d".toList =
        .ok p ∧
      ofPattern p = .ok m := by
  obtain ⟨p, scanned, holds⟩ := exists_ok_of_any
    (Pattern.scan .anywhere "/a.b[/\x7bx:(?i:b+|c)\x7d[\x7by:-\x7b2\x7d\x7d?]]\x7bz\x7d".toList)
    (fun p => decide (∀ q ∈ p.placeholders, ∀ c ∈ q.constraint, Plain c) &&
      decide (Lex.outside.nesting 0 p.expression ≤ maxNesting) &&
      (Pattern.checkPlaceholders [] [] p.placeholders).toOption.any (fun _ => true) &&
      (checkConstraints 0 p.placeholders).toOption.any (fun _ => true) &&
      (Program.compile p.expression).toOption.any (fun _ => true))
    (by decide +kernel)
  simp only [Bool.and_eq_true, decide_eq_true_eq] at holds
  obtain ⟨⟨⟨⟨plain, nests⟩, checked⟩, usable⟩, compiled⟩ := holds
  obtain ⟨u, checked, -⟩ := exists_ok_of_any _ _ checked
  obtain ⟨u, usable, -⟩ := exists_ok_of_any _ _ usable
  obtain ⟨program, compiled, -⟩ := exists_ok_of_any _ _ compiled
  have small : Program.compile p.expression ≠ .error .tooLarge := by
    rw [compiled]
    simp
  obtain ⟨-, succeeds, -⟩ := ofPattern_of_checkPlaceholders (Pattern.filledList_of_scan scanned)
    checked plain nests small
  obtain ⟨m, made⟩ := succeeds (checkConstraints_eq_ok_iff.mp usable)
  exact ⟨p, m, scanned, made⟩

/-- The expression of an optional part without children is empty, and there is nothing that its
question mark could repeat. The tree passes all checks, because it has no placeholders. No text is
read as this tree: the parser refuses the pair of brackets that it is written as. -/
theorem ofPattern_of_emptyOptional :
    let p : Pattern := ⟨[.optional []]⟩
    Pattern.checkPlaceholders [] [] p.placeholders = .ok () ∧
      (∀ q ∈ p.placeholders, ∀ c ∈ q.constraint, Plain c) ∧ AllUsable 0 p.placeholders ∧
      Lex.outside.nesting 0 p.expression ≤ maxNesting ∧
      Program.compile p.expression ≠ .error .tooLarge ∧
      ofPattern p = .error (.invalidMatcher .nothingToRepeat) ∧
      Pattern.parse .anywhere p.render = .error (.emptyOptional 1) := by
  intro p
  have refused : Program.compile p.expression = .error .nothingToRepeat :=
    eq_error_of_decide (by decide +kernel)
  have unchecked : checkConstraints 0 p.placeholders = .ok () := rfl
  refine ⟨rfl, List.forall_mem_nil _, trivial, by decide +kernel, ?_, ?_, ?_⟩
  · rw [refused]
    simp
  · rw [ofPattern, unchecked, ok_bind, compile, refused]
    rfl
  · exact eq_error_of_decide (by decide +kernel)

end Matcher

end UrlRouting
