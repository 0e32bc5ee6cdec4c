import UrlRouting.Proofs.Matcher.Decomposing
import UrlRouting.Proofs.Regex.Solving
import UrlRouting.Proofs.Text.Split
import UrlRouting.RouteTable.Glob

/-!
# What globs describe

The expression for a glob is read as one piece for each character of the glob: a loop for an
asterisk, a set for every other character. So a glob describes the names that are found by putting
runs without a line feed in the place of its asterisks (`matchesName_iff`).
-/

namespace UrlRouting.Glob

open Regex Matcher

/-! ## Runs in the place of asterisks -/

/-- Pieces with a run behind each of them but the last. -/
def interleave : List Text → List Text → Text
  | p :: ps, run :: runs => p ++ run ++ interleave ps runs
  | ps, _ => ps.flatten

/-- A glob with runs in the place of its asterisks. -/
def filled (glob : Text) (runs : List Text) : Text := interleave (Text.pieces '*' glob) runs

theorem filled_star (glob : Text) (run : Text) (runs : List Text) :
    filled ('*' :: glob) (run :: runs) = run ++ filled glob runs := by
  rw [filled, Text.pieces, if_pos rfl, interleave, List.nil_append]
  rfl

theorem filled_cons {c : Char} (plain : c ≠ '*') (glob : Text) (runs : List Text) :
    filled (c :: glob) runs = c :: filled glob runs := by
  have nonempty := Text.pieces_ne_nil '*' glob
  rw [filled, filled, Text.pieces, if_neg plain]
  cases all : Text.pieces '*' glob with
  | nil => exact absurd all nonempty
  | cons p ps => cases runs <;> rfl

/-! ## The expression -/

/-- The expression for a character of a glob. -/
def written (c : Char) : Text :=
  if c = '*' then ['.', '*'] else if specialChars.contains c then ['\\', c] else [c]

theorem replaceStars_plain {c : Char} (plain : c ≠ '\\') (t : Text) :
    replaceStars (c :: t) = c :: replaceStars t := by
  rw [replaceStars]
  intro u same
  cases same
  exact absurd rfl plain

theorem replaceStars_backslash {t : Text} (first : t.head? ≠ some '*') :
    replaceStars ('\\' :: t) = '\\' :: replaceStars t := by
  rw [replaceStars]
  intro u _ same
  exact first (congrArg List.head? same)

/-- No escaped text begins with an asterisk: an asterisk stands behind its own backslash. -/
theorem head?_escape (t : Text) : (escape t).head? ≠ some '*' := by
  cases t with
  | nil =>
    intro same
    cases same
  | cons c t =>
    rw [escape, List.flatMap_cons]
    split
    next => exact fun same => absurd (Option.some.inj same) (by decide)
    next plain =>
      intro same
      obtain rfl : c = '*' := Option.some.inj same
      exact plain rfl

/-- What is replaced in an escaped glob are its asterisks, and nothing else. -/
theorem replaceStars_escape (glob : Text) :
    replaceStars (escape glob) = glob.flatMap written := by
  induction glob with
  | nil => rfl
  | cons c glob ih =>
    have tail : escape (c :: glob) =
        (if specialChars.contains c then ['\\', c] else [c]) ++ escape glob := List.flatMap_cons
    rw [tail, List.flatMap_cons, ← ih, written]
    by_cases star : c = '*'
    · rw [if_pos star, star]
      rfl
    · rw [if_neg star]
      split
      next special =>
        have other : (c :: escape glob).head? ≠ some '*' := fun same =>
          star (Option.some.inj same)
        change replaceStars ('\\' :: c :: escape glob) = '\\' :: c :: replaceStars (escape glob)
        rw [replaceStars_backslash other]
        by_cases backslash : c = '\\'
        · rw [backslash, replaceStars_backslash (head?_escape glob)]
        · rw [replaceStars_plain backslash]
      next plain =>
        have notBackslash : c ≠ '\\' := by
          intro same
          rw [same] at plain
          exact plain rfl
        exact replaceStars_plain notBackslash _

/-- The expression that a character of a glob is read as. -/
def piece (c : Char) : Regex :=
  if c = '*' then loop 0 none true (set (.compl (.single '\n'))) else set (.single c)

theorem settled_written {u : Text} (settled : Settled u) (glob : Text) :
    Settled (glob.flatMap written ++ u) := by
  induction glob with
  | nil => exact settled
  | cons c glob ih =>
    rw [List.flatMap_cons, List.append_assoc, written]
    split
    · exact Settled.mark (by decide) _
    · split
      · exact Settled.mark (by decide) _
      next plain =>
        apply Settled.cons _ ih
        intro mem
        have marks : ['(', '#', '?', '*', '+', '\x7b'].all specialChars.contains = true := by decide
        exact plain (List.all_eq_true.mp marks c mem)

variable {body : Option (Reader Regex)} {o : List (GroupKind × Text)} {u : Text}

/-- An asterisk that has been replaced is read as a loop over all characters but the line feed. -/
theorem readPiece_star (settled : Settled u) :
    readPiece body ⟨'.' :: '*' :: u, {}, o⟩ = .ok (piece '*', ⟨u, {}, o⟩) := by
  have atom : readAtom body ⟨'.' :: '*' :: u, {}, o⟩ = .ok (anyChar {}, ⟨'*' :: u, {}, o⟩) := by
    rw [readAtom, skip_settled (.mark (by decide) _), ok_bind]
    rfl
  have star : Reading.skip ⟨'*' :: u, {}, o⟩ = .ok ⟨'*' :: u, {}, o⟩ :=
    skip_of (skipIgnored_mark (by decide) false u) o
  have behind := skip_settled settled o
  have first := head_skip (s := ⟨u, {}, o⟩) settled behind
  rw [readPiece, atom, ok_bind]
  change quantified (anyChar {}) ⟨'*' :: u, {}, o⟩ = _
  rw [quantified, star, ok_bind]
  change repeated (anyChar {}) ⟨0, none⟩ ⟨u, {}, o⟩ = _
  rw [repeated, behind, ok_bind]
  dsimp only
  rw [take_eq_of_head (by decide) first]
  dsimp only
  rw [take_eq_of_head (by decide) first]
  rfl

theorem readPiece_escaped {c : Char} (special : c ∈ specialChars) (settled : Settled u) :
    readPiece body ⟨'\\' :: c :: u, {}, o⟩ = .ok (set (.single c), ⟨u, {}, o⟩) := by
  have marks : specialChars.all isMark = true := by decide
  have atom := readAtom_backslash body (List.all_eq_true.mp marks c special)
    (skip_settled (t := '\\' :: c :: u) (.mark (by decide) _) o)
  exact readPiece_settled atom settled (skip_settled settled o)

/-- A character of a glob is read as its piece. -/
theorem readPiece_written (c : Char) (settled : Settled u) :
    readPiece body ⟨written c ++ u, {}, o⟩ = .ok (piece c, ⟨u, {}, o⟩) := by
  rw [written]
  by_cases star : c = '*'
  · rw [if_pos star, star]
    exact readPiece_star settled
  · rw [if_neg star, piece, if_neg star]
    split
    next special => exact readPiece_escaped (List.contains_iff_mem.mp special) settled
    next plain =>
      have notSpecial : c ∉ Matcher.specialChars := by
        intro mem
        have known : Matcher.specialChars.all specialChars.contains = true := by decide
        exact plain (List.all_eq_true.mp known c mem)
      have first : Settled (c :: u) :=
        .cons (fun mem => notSpecial (special_of_mem (by decide) mem)) settled
      exact readPiece_settled (readAtom_plain body notSpecial (skip_settled first o)) settled
        (skip_settled settled o)

theorem readBranches_written (glob : Text) (settled : Settled u) :
    readBranches body ⟨glob.flatMap written ++ u, {}, o⟩ =
      readBranches body ⟨u, {}, o⟩ >>= fun x => .ok (attachAll (glob.map piece) x.1, x.2) := by
  induction glob with
  | nil =>
    change readBranches body ⟨u, {}, o⟩ = _
    cases readBranches body ⟨u, {}, o⟩ <;> rfl
  | cons c glob ih =>
    have behind := settled_written settled glob
    have shorter : (glob.flatMap written ++ u).length <
        (written c ++ (glob.flatMap written ++ u)).length := by
      have positive : 0 < (written c).length := by
        rw [written]
        split
        · decide
        · split <;> exact Nat.succ_pos _
      simp only [List.length_append]
      omega
    rw [List.flatMap_cons, List.append_assoc,
      readBranches_piece (readPiece_written c behind) shorter, ih]
    cases readBranches body ⟨u, {}, o⟩ <;> rfl

/-- The pieces for a glob, from the start of a text to its end. -/
def anchoredPieces (glob : Text) : List Regex :=
  assert .textStart :: (glob.map piece ++ [assert .textEnd])

theorem readBranches_expression (glob : Text) :
    readBranches body ⟨expression glob, {}, []⟩ = .ok ([anchoredPieces glob], ⟨[], {}, []⟩) := by
  have last : Settled ['$'] := .mark (by decide) _
  have settled := settled_written last glob
  have ending : readAtom body ⟨['$'], {}, []⟩ = .ok (assert .textEnd, ⟨[], {}, []⟩) := rfl
  rw [expression, replaceStars_escape, List.cons_append,
    readBranches_piece (readPiece_settled (readAtom_textStart body _ []) settled
      (skip_settled settled [])) (Nat.lt_succ_self _),
    readBranches_written glob last,
    readBranches_piece (readPiece_settled ending .nil rfl) (Nat.lt_succ_self _),
    readBranches_end (by simp)]
  change Except.ok (attach _ (attachAll (glob.map piece) [[assert .textEnd]]), _) = _
  rw [← attachAll_nil [assert .textEnd], ← attachAll_append, attachAll_nil]
  rfl

theorem parse_expression (glob : Text) :
    Regex.parse (expression glob) = .ok ⟨sequence (anchoredPieces glob), []⟩ := by
  apply parse_eq_ok.mpr
  refine ⟨⟨[], {}, []⟩, ?_, rfl, rfl⟩
  change readBranches _ _ >>= _ = _
  rw [readBranches_expression, ok_bind]
  rfl

/-! ## Ways through the pieces -/

/-- An expression occurs in a text if there is a way through it somewhere in the text. -/
theorem occurs_iff {r : Regex} (regular : r.isRegular = true) (t : Text) :
    occurs r t = true ↔ ∃ p q c d, q ≤ t.length ∧ Way t.toArray r p c q d := by
  have solves := solve_solves t.toArray regular (within_positionsFrom t.toArray 0)
  rw [occurs, Bool.not_eq_true', List.isEmpty_eq_false_iff_exists_mem]
  constructor
  · intro found
    obtain ⟨p, mem⟩ := found
    obtain ⟨⟨q, d⟩, way⟩ := solves.total p mem []
    obtain ⟨mem, way⟩ := solves.sound p [] q d way
    have bound := (List.mem_range'_1.mp mem).2
    rw [List.size_toArray] at bound
    exact ⟨p, q, [], d, by omega, way⟩
  · intro found
    obtain ⟨p, q, c, d, bound, way⟩ := found
    have mem : q ∈ positionsFrom t.toArray 0 :=
      List.mem_range'_1.mpr (by rw [List.size_toArray]; omega)
    exact ⟨p, solves.complete p c q d mem way⟩

variable {input : Array Char} {p q : Nat} {c d : Captures}

/-- The way through the pieces for a glob takes the glob with runs for its asterisks. -/
theorem filled_of_ways {glob : Text} (within : p ≤ input.size)
    (way : Ways input (glob.map piece) p c q d) :
    ∃ runs, runs.length = glob.count '*' ∧ (∀ run ∈ runs, '\n' ∉ run) ∧
      textBetween input p q = filled glob runs := by
  induction glob generalizing p c with
  | nil =>
    obtain ⟨rfl, -⟩ := way
    refine ⟨[], rfl, ?_, textBetween_self input q⟩
    intro run mem
    cases mem
  | cons x glob ih =>
    obtain ⟨k, e, here, more⟩ := way
    have split := textBetween_append input (Way.forward input _ _ _ _ _ here)
      (Ways.forward input _ _ _ _ _ more)
    rw [piece] at here
    by_cases star : x = '*'
    · rw [if_pos star] at here
      obtain ⟨within', taken⟩ := Way.matches rfl within here
      obtain ⟨runs, count, free, rest⟩ := ih within' more
      refine ⟨textBetween input p k :: runs, ?_, ?_, ?_⟩
      · rw [star, List.length_cons, List.count_cons_self, count]
      · exact List.forall_mem_cons.mpr ⟨(matches_others.mp taken).2, free⟩
      · rw [star, filled_star, ← rest, split]
    · rw [if_neg star] at here
      obtain ⟨within', y, taken, same⟩ := Way.matches (r := single x) rfl within here
      obtain rfl := contains_single.mp same
      obtain ⟨runs, count, free, rest⟩ := ih within' more
      refine ⟨runs, ?_, free, ?_⟩
      · rw [List.count_cons_of_ne star, count]
      · rw [filled_cons star, ← rest, split, taken]
        rfl

/-- Where a glob with runs for its asterisks stands, there is a way through its pieces. -/
theorem exists_ways_filled {glob : Text} {runs : List Text} {u v : Text}
    (count : runs.length = glob.count '*') (free : ∀ run ∈ runs, '\n' ∉ run)
    (split : input.toList = u ++ filled glob runs ++ v) (c : Captures) :
    ∃ d, Ways input (glob.map piece) u.length c (u.length + (filled glob runs).length) d := by
  induction glob generalizing runs u c with
  | nil =>
    obtain rfl := List.eq_nil_of_length_eq_zero count
    exact ⟨c, rfl, rfl⟩
  | cons x glob ih =>
    -- What the first piece takes, and what is left for the others.
    suffices first : ∃ t rest, (piece x).Matches t ∧ rest.length = glob.count '*' ∧
        (∀ run ∈ rest, '\n' ∉ run) ∧ filled (x :: glob) runs = t ++ filled glob rest by
      obtain ⟨t, rest, taken, count, free, whole⟩ := first
      rw [whole, ← List.append_assoc] at split
      have here := split
      rw [List.append_assoc] at here
      obtain ⟨e, here⟩ := taken.exists_way here c
      obtain ⟨d, more⟩ := ih (u := u ++ t) count free split e
      rw [List.length_append] at more
      refine ⟨d, _, e, here, ?_⟩
      rwa [whole, List.length_append, ← Nat.add_assoc]
    rw [piece]
    by_cases star : x = '*'
    · rw [if_pos star]
      rw [star, List.count_cons_self] at count
      cases runs with
      | nil => cases count
      | cons run runs =>
        obtain ⟨first, rest⟩ := List.forall_mem_cons.mp free
        refine ⟨run, runs, matches_others.mpr ⟨Nat.zero_le _, first⟩, Nat.succ.inj count, rest, ?_⟩
        rw [star, filled_star]
    · rw [if_neg star]
      rw [List.count_cons_of_ne star] at count
      exact ⟨[x], runs, ⟨x, rfl, contains_single.mpr rfl⟩, count, free, filled_cons star glob runs⟩

theorem isRegular_anchoredPieces (glob : Text) :
    (sequence (anchoredPieces glob)).isRegular = true := by
  apply isRegular_sequence
  intro r mem
  rcases List.mem_cons.mp mem with rfl | mem
  · rfl
  · rcases List.mem_append.mp mem with mem | mem
    · obtain ⟨x, -, rfl⟩ := List.mem_map.mp mem
      rw [piece]
      split <;> rfl
    · obtain rfl := List.mem_singleton.mp mem
      rfl

/-! ## Names -/

/-- A glob describes the names that are found by putting runs without a line feed in the place of
its asterisks, and no others. -/
theorem matchesName_iff (glob name : Text) :
    matchesName glob name = true ↔
      ∃ runs : List Text, runs.length = glob.count '*' ∧ (∀ run ∈ runs, '\n' ∉ run) ∧
        name = interleave (Text.pieces '*' glob) runs := by
  rw [matchesName, parse_expression]
  change occurs (sequence (anchoredPieces glob)) name = true ↔ _
  rw [occurs_iff (isRegular_anchoredPieces glob)]
  constructor
  · intro found
    obtain ⟨p, q, c, d, bound, way⟩ := found
    obtain ⟨k, e, ⟨start, rfl, rfl⟩, rest⟩ := (way_sequence (anchoredPieces glob)).mp way
    obtain ⟨l, f, middle, last⟩ := (ways_append _ _).mp rest
    obtain ⟨m, g, ⟨ends, rfl, rfl⟩, rfl, rfl⟩ := last
    obtain rfl : k = 0 := by simpa [Assertion.holds] using start
    obtain rfl : q = name.length := by simpa [Assertion.holds] using ends
    obtain ⟨runs, count, free, whole⟩ := filled_of_ways (Nat.zero_le _) middle
    refine ⟨runs, count, free, ?_⟩
    rwa [textBetween_eq, List.drop_zero, Nat.sub_zero, List.take_length] at whole
  · intro found
    obtain ⟨runs, count, free, rfl⟩ := found
    have whole : (filled glob runs).toArray.toList = [] ++ filled glob runs ++ [] := by simp
    obtain ⟨d, way⟩ := exists_ways_filled count free whole []
    rw [List.length_nil, Nat.zero_add] at way
    refine ⟨0, (filled glob runs).length, [], d, Nat.le_refl _, (way_sequence _).mpr ?_⟩
    refine ⟨0, [], ⟨rfl, rfl, rfl⟩, (ways_append _ _).mpr ⟨_, d, way, ?_⟩⟩
    exact ⟨_, d, ⟨by simp [Assertion.holds, filled], rfl, rfl⟩, rfl, rfl⟩

end UrlRouting.Glob
