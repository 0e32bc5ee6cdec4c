import UrlRouting.Matcher.Basic
import UrlRouting.Proofs.Matcher.Pieces

/-!
# Constraints in their groups

A constraint is an expression by itself, and it is one inside the group of its placeholder. Together
this means that the group ends where the constraint ends: the constraint neither takes the closing
parenthesis with it nor closes the group before (`enclosed_alone`).
-/

namespace UrlRouting.Matcher

open Regex

variable {mode : Mode} {c k : Text} {parsed : Parsed} {depth : Nat}
  {o : List (GroupKind × Text)} {r : Regex} {s' : Reading}

theorem parse_eq_ok {t : Text} : Regex.parse t = .ok parsed ↔
    ∃ s, readExpression maxNesting ⟨t, {}, []⟩ = .ok (parsed.regex, s) ∧ s.rest = [] ∧
      parsed.opened = s.opened.reverse := by
  constructor
  · intro h
    obtain ⟨⟨r, s⟩, read, h⟩ := bind_eq_ok.mp h
    dsimp only at h
    split at h
    next rest =>
      cases h
      exact ⟨s, read, rest, rfl⟩
    next => cases h
  · rintro ⟨s, read, rest, opened⟩
    rw [Regex.parse, read, ok_bind]
    dsimp only
    rw [if_pos rest, ← opened]
    rfl

theorem parse_defaultConstraint : ∃ parsed, Regex.parse defaultConstraint = .ok parsed ∧
    parsed.regex = .loop 1 none true (.set (.compl (.single '/'))) := by
  have value : (Regex.parse defaultConstraint).toOption.map (·.regex) =
      some (.loop 1 none true (.set (.compl (.single '/')))) := by
    decide +kernel
  cases alone : Regex.parse defaultConstraint with
  | error e =>
    rw [alone] at value
    cases value
  | ok parsed =>
    rw [alone] at value
    exact ⟨parsed, rfl, Option.some.inj value⟩

/-- The flags that are in force behind an expression. -/
def flagsBehind (c : Text) : Flags :=
  match readExpression maxNesting ⟨c, {}, []⟩ with
  | .ok (_, s) => s.flags
  | .error _ => {}

theorem flagsBehind_eq {s : Reading} (read : readExpression maxNesting ⟨c, {}, []⟩ = .ok (r, s)) :
    flagsBehind c = s.flags := by
  rw [flagsBehind, read]

/-- A tame expression sets no flags. -/
theorem flagsBehind_of_tame (alone : Regex.parse c = .ok parsed) (calm : Calm .tame ⟨c, {}, []⟩) :
    flagsBehind c = {} := by
  obtain ⟨last, read, -⟩ := parse_eq_ok.mp alone
  rw [flagsBehind_eq read]
  exact ((reads_readExpression .tame maxNesting).advances calm read).flags rfl

/-- What the group around a constraint takes. The constraint's flags are in force behind it. -/
theorem enclosed_alone (alone : Regex.parse c = .ok parsed) (fits : Fits mode k ⟨c, {}, []⟩)
    (h : enclosed (readExpression depth) ⟨c ++ ')' :: k, {}, o⟩ = .ok (r, s')) :
    ∃ s, readExpression depth ⟨c ++ ')' :: k, {}, o⟩ = .ok (r, s) ∧ s.rest = ')' :: k ∧
      s' = { s with rest := k } ∧ r.unnumbered = parsed.regex.unnumbered ∧
      s.flags = flagsBehind c := by
  obtain ⟨last, read, rest, -⟩ := parse_eq_ok.mp alone
  obtain ⟨s, inner, close, final⟩ := enclosed_eq_ok.mp h
  have follows : Follows k (Reading.groups ⟨c ++ ')' :: k, {}, o⟩) ⟨c, {}, []⟩
      ⟨c ++ ')' :: k, {}, o⟩ := ⟨rfl, rfl, .inl rfl⟩
  have copies := readExpression_copies maxNesting depth _ _ _ fits follows read
  rw [inner] at copies
  rcases copies with deep | ⟨a, t, same, alike, f⟩
  · cases deep
  · cases same
    have ends : s.rest = ')' :: k := by
      rcases f.rest with more | ⟨-, nothing⟩
      · rw [more, rest]
        rfl
      · rw [nothing] at close
        cases close
    have left : s'.rest = k := (List.cons.inj (close.symm.trans ends)).2
    rw [left] at final
    exact ⟨s, inner, ends, final, alike, f.flags.trans (flagsBehind_eq read).symm⟩

/-- The groups that an expression opens stand in it when its comments are left out. -/
theorem kinds_opened {t : Text} (h : Regex.parse t = .ok parsed) :
    parsed.opened.map Prod.fst = Constraint.kinds (uncommented ⟨{}, [], .outside⟩ t) := by
  obtain ⟨s, read, rest, opened⟩ := parse_eq_ok.mp h
  obtain ⟨new, opened', -, -, w, text, groups⟩ :=
    ((reads_readExpression .any maxNesting).advances (Calm.any _) read).groups
  have whole : uncommented ⟨{}, [], .outside⟩ t = w ++ [] := by
    rw [← uncommented_none (p := ⟨s.flags, [], .outside⟩) (t := []) rfl, ← rest]
    exact (text []).uncommented
  rw [whole, groups, opened, opened', List.append_nil, List.reverse_reverse, Constraint.kinds_nil,
    List.append_nil]

theorem compile_eq_ok {ε : Type} {cause : SyntaxError → ε} {t : Text} {program : Program} :
    Matcher.compile cause t = .ok program ↔ Program.compile t = .ok program := by
  unfold Matcher.compile
  cases Program.compile t <;> simp

theorem exists_parsed {t : Text} {program : Program} (h : Program.compile t = .ok program) :
    ∃ parsed, Regex.parse t = .ok parsed ∧ program.regex = parsed.regex ∧
      program.groups = (parsed.opened.map Prod.fst).filter (·.captures) := by
  obtain ⟨parsed, read, h⟩ := bind_eq_ok.mp h
  split at h
  next => cases h
  next =>
    cases h
    exact ⟨parsed, read, rfl, rfl⟩

theorem checkConstraint_eq_ok {index : Nat} {p : Placeholder} {constraint : Text}
    (given : p.constraint = some constraint) {u : Unit} (h : checkConstraint index p = .ok u) :
    (∃ program, Program.compile constraint = .ok program) ∧
      ∃ program, Program.compile ('^' :: capture index p ++ ['$']) = .ok program := by
  unfold checkConstraint at h
  rw [given] at h
  obtain ⟨program, first, h⟩ := bind_eq_ok.mp h
  obtain ⟨program', second, -⟩ := bind_eq_ok.mp h
  exact ⟨⟨program, compile_eq_ok.mp first⟩, program', compile_eq_ok.mp second⟩

theorem exists_readAtom {body : Option (Reader Regex)} {s : Reading}
    {x : List (List Regex) × Reading} (h : readBranches body s = .ok x) :
    ∃ y, readAtom body s = .ok y := by
  rw [readBranches] at h
  split at h
  next => cases h
  next piece =>
    obtain ⟨y, atom, -⟩ := bind_eq_ok.mp piece
    exact ⟨y, atom⟩

/-- A constraint that has been checked is read in front of a closing parenthesis. -/
theorem exists_read_of_checkConstraint {index : Nat} {p : Placeholder} {constraint : Text}
    (given : p.constraint = some constraint) {u : Unit} (h : checkConstraint index p = .ok u) :
    ∃ o r s, readExpression 62 ⟨constraint ++ [')', '$'], {}, o⟩ = .ok (r, s) ∧
      s.rest = [')', '$'] := by
  obtain ⟨⟨program, alone⟩, program', inGroup⟩ := checkConstraint_eq_ok given h
  obtain ⟨parsed, alone, -⟩ := exists_parsed alone
  obtain ⟨parsed', inGroup, -⟩ := exists_parsed inGroup
  obtain ⟨last, read, -⟩ := parse_eq_ok.mp inGroup
  obtain ⟨x, branches, -⟩ := bind_eq_ok.mp (show readBranches _ _ >>= _ = _ from read)
  have whole : '^' :: capture index p ++ ['$'] =
      '^' :: ("(?P<".toList ++ (groupName index ++ '>' :: (constraint ++ ')' :: ['$']))) := by
    simp [capture, Placeholder.expression, given]
  have settled : Settled
      ("(?P<".toList ++ (groupName index ++ '>' :: (constraint ++ ')' :: ['$']))) :=
    Settled.group (c := 'P') (by decide) _
  rw [whole, readBranches_piece (readPiece_settled (readAtom_textStart _ _ []) settled
    (skip_settled settled [])) (Nat.lt_succ_self _)] at branches
  obtain ⟨y, branches, -⟩ := bind_eq_ok.mp branches
  obtain ⟨z, atom⟩ := exists_readAtom branches
  obtain ⟨w, capture⟩ := readAtom_capture (readExpression 62) (skip_settled settled [])
  obtain ⟨⟨r, s'⟩, enclosed, -⟩ := bind_eq_ok.mp (capture.symm.trans atom)
  have fits : Fits .any ['$'] ⟨constraint, {}, []⟩ :=
    ⟨Calm.any _, fun _ line => absurd line (by decide)⟩
  obtain ⟨s, body, rest, -⟩ := enclosed_alone alone fits enclosed
  exact ⟨_, r, s, body, rest⟩

/-- It does not end in a backslash that would escape the closing parenthesis of its group. -/
theorem not_dangles_of_checkConstraint {index : Nat} {p : Placeholder} {constraint : Text}
    (given : p.constraint = some constraint) {u : Unit} (h : checkConstraint index p = .ok u) :
    Text.dangles constraint = false := by
  obtain ⟨o, r, s, body, rest⟩ := exists_read_of_checkConstraint given h
  obtain ⟨new, -, taken, -⟩ := ((reads_readExpression .any 62).advances (Calm.any _) body).groups
  rw [rest] at taken
  obtain ⟨t, split, plain⟩ := taken.exists_prefix (List.cons_ne_nil _ _)
  rw [List.append_cancel_right split]
  exact plain

/-- It does not end in a line comment either, which would take the closing parenthesis with it. -/
theorem ended_of_checkConstraint {index : Nat} {p : Placeholder} {constraint : Text}
    (given : p.constraint = some constraint) {u : Unit} (h : checkConstraint index p = .ok u) :
    Reading.Ended ⟨constraint, {}, []⟩ := by
  obtain ⟨o, r, s, body, rest⟩ := exists_read_of_checkConstraint given h
  obtain ⟨new, -, -, -, w, reaches, -⟩ :=
    ((reads_readExpression .any 62).advances (Calm.any _) body).groups
  have close := reaches []
  rw [rest] at close
  exact ⟨[], close.ends rfl⟩

theorem ended_defaultConstraint : Reading.Ended ⟨defaultConstraint, {}, []⟩ := by
  obtain ⟨u, checked, -⟩ := exists_ok_of_any
    (checkConstraint 0 ⟨[], some defaultConstraint⟩) (fun _ => True) (by decide +kernel)
  exact ended_of_checkConstraint rfl checked

end UrlRouting.Matcher
