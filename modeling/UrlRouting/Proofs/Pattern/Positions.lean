import UrlRouting.Proofs.Pattern.Parsing

/-!
# Where a text goes wrong

An error with a position names the byte of the first character that cannot be right, or of a bracket
or brace that is still open at the end. `Fault` says for each of these errors which cut of the text
it names, in terms of brackets outside of placeholders only.

* A character is refused where it makes a fault (`Scan.fault_of_step`), whatever comes after it.
* At the end the latest bracket or brace that is open is one (`Scan.fault_of_finish`).
* The checks of the tree name no positions (`Pattern.position?_of_check`).

`Pattern.fault_of_parse` puts these together.
-/

namespace UrlRouting

/-- The position that an error names. -/
def PatternError.position? : PatternError → Option Nat
  | mismatchedBrackets position => some position
  | optionalMisplaced position => some position
  | emptyOptional position => some position
  | unterminatedPlaceholder position => some position
  | _ => none

/-- An error that is raised at the end only, for a bracket or brace that has not been closed. -/
def PatternError.AwaitsEnd (c : Char) : PatternError → Prop
  | unterminatedPlaceholder _ => True
  | mismatchedBrackets _ => c = '['
  | _ => False

/-- What an error with a position says of a text. -/
inductive Fault (placement : OptionalPlacement) : Text → PatternError → Prop
  /-- A bracket is closed that has not been opened. -/
  | closing {u v : Text} : Text.Paired u →
    Fault placement (u ++ ']' :: v) (.mismatchedBrackets (Text.byteLength u))
  /-- A bracket is not closed, and it is the last one that is not. -/
  | opening {u v : Text} : Text.Outside u → Text.Paired v →
    Fault placement (u ++ '[' :: v) (.mismatchedBrackets (Text.byteLength u))
  /-- A brace has no body behind it that is closed. -/
  | unterminated {u v : Text} : Text.Outside u → (∀ w x, v = w ++ '\x7d' :: x → ¬ Text.IsBody w) →
    Fault placement (u ++ '\x7b' :: v) (.unterminatedPlaceholder (Text.byteLength u))
  /-- A bracket is closed right behind the one that opens it. -/
  | empty {u v : Text} : Text.Outside u →
    Fault placement (u ++ '[' :: ']' :: v) (.emptyOptional (Text.byteLength u + 1))
  /-- Something other than a closing bracket stands behind an optional part. -/
  | misplaced {u w v : Text} {c : Char} : placement = .trailingOnly → Text.Outside u →
    Text.Paired w → c ≠ ']' →
    Fault placement (u ++ '[' :: (w ++ ']' :: c :: v))
      (.optionalMisplaced (Text.byteLength (u ++ '[' :: (w ++ [']']))))

namespace Scan

variable {placement : OptionalPlacement} {s : Scan} {u : Text} {c : Char} {e : PatternError}
  {position : Nat}

/-! ## Characters -/

theorem position?_ofBody {b : Text} (h : Placeholder.ofBody b = .error e) : e.position? = none := by
  unfold Placeholder.ofBody at h
  dsimp only at h
  split at h
  next => cases h
  next =>
    cases h
    rfl

/-- What is wrong with a placeholder that has been read has no position. -/
theorem position?_stepBody {b : Body} (h : s.stepBody b c = .error e) : e.position? = none := by
  unfold stepBody at h
  dsimp only at h
  split at h
  next => cases h
  next =>
  split at h
  next => cases h
  next =>
  split at h
  next => cases h
  next =>
  split at h
  next =>
    split at h
    next => cases h
    next =>
      rcases bind_eq_error.mp h with failed | ⟨p, -, h⟩
      · exact position?_ofBody failed
      · cases h
  next => cases h

/-- A closing bracket is refused where no optional part is open, or where nothing is in it. -/
theorem fault_of_close (spells : Spells s u) (outside : s.body = none) (h : s.close = .error e)
    (v : Text) : Fault placement (u ++ ']' :: v) e ∧ e.position? = some (Text.byteLength u) := by
  have here := spells.position
  obtain ⟨a, b, frames, complete, rfl⟩ := spells.flushed outside
  unfold close at h
  split at h
  next none =>
    cases h
    rw [none] at frames
    cases frames
    rw [here]
    exact ⟨.closing complete.paired, rfl⟩
  next o outer some =>
    split at h
    next empty =>
      cases h
      rw [here]
      refine ⟨?_, rfl⟩
      rw [some] at frames
      rw [empty] at complete
      obtain ⟨⟨⟩, -⟩ := complete
      cases frames with
      | @cons _ _ a b frames before =>
        have outside := frames.outside.append before.paired.outside
        have fault : Fault placement _ _ := .empty (v := v) outside
        have width : '['.utf8Size = 1 := rfl
        simpa [width, Nat.add_assoc] using fault
    next => cases h

/-- Behind an optional part a character is refused, unless it is a closing bracket. -/
theorem fault_of_misplaced (spells : Spells s u) (outside : s.body = none)
    (closed : s.closed = true) (other : c ≠ ']') (v : Text) :
    Fault .trailingOnly (u ++ c :: v) (.optionalMisplaced (Text.byteLength u)) := by
  have last := (spells.closed closed).2
  obtain ⟨a, b, frames, complete, rfl⟩ := spells.flushed outside
  have bracket : b.getLast? = some ']' := by
    cases b with
    | nil =>
      rw [List.append_nil] at last
      exact absurd last frames.getLast?_ne
    | cons d b => rwa [List.getLast?_append_cons] at last
  obtain ⟨x, w, rfl, before, inside⟩ := complete.paired.exists_pair_of_getLast? bracket
  have fault : Fault .trailingOnly _ _ :=
    .misplaced (v := v) rfl (frames.outside.append before.outside) inside other
  simpa using fault

/-- A character is refused where it makes a fault. -/
theorem fault_of_step (spells : Spells s u) (h : s.step placement c = .error e)
    (named : e.position? = some position) (v : Text) :
    Fault placement (u ++ c :: v) e ∧ position = Text.byteLength u := by
  unfold step at h
  split at h
  next b inside =>
    rw [position?_stepBody h] at named
    cases named
  next outside =>
    split at h
    next blocked =>
      obtain ⟨rfl, closed, other⟩ := blocked
      cases h
      cases named
      rw [spells.position]
      exact ⟨fault_of_misplaced spells outside closed other v, rfl⟩
    next =>
      unfold stepPlain at h
      split at h
      next => cases h
      next =>
      split at h
      next => cases h
      next =>
      split at h
      next bracket =>
        subst bracket
        obtain ⟨fault, here⟩ := fault_of_close spells outside h v
        exact ⟨fault, Option.some.inj (named.symm.trans here)⟩
      next => cases h

/-- A text that is refused before its end is refused at a character. -/
theorem exists_refused {t : Text} (h : t.foldlM (step placement) s = .error e) :
    ∃ w c v s', t = w ++ c :: v ∧ w.foldlM (step placement) s = .ok s' ∧
      s'.step placement c = .error e := by
  induction t generalizing s with
  | nil => cases h
  | cons c t ih =>
    rcases bind_eq_error.mp h with refused | ⟨s₁, first, rest⟩
    · exact ⟨[], c, t, s, rfl, rfl, refused⟩
    · obtain ⟨w, d, v, s', rfl, run, refused⟩ := ih rest
      refine ⟨c :: w, d, v, s', rfl, ?_, refused⟩
      rw [List.foldlM_cons, first]
      exact run

/-! ## The end -/

/-- At the end a brace or the latest bracket is refused that is still open. -/
theorem fault_of_finish (placement : OptionalPlacement) (spells : Spells s u)
    (h : s.finish = .error e) :
    Fault placement u e ∧ ∃ w c v, u = w ++ c :: v ∧ e.position? = some (Text.byteLength w) ∧
      e.AwaitsEnd c := by
  unfold finish at h
  split at h
  next _ b inside =>
    cases h
    obtain ⟨sound, nothing⟩ := spells.body b inside
    obtain ⟨a, d, frames, complete, rfl, opening⟩ := spells.text
    have here : a ++ d ++ s.literal.reverse ++ s.bodyText = (a ++ d) ++ '\x7b' :: b.text := by
      simp [nothing, bodyText, inside]
    rw [here, opening b inside]
    have outside := frames.outside.append complete.paired.outside
    refine ⟨.unterminated outside fun x y whole body => ?_, _, _, _, rfl, rfl, trivial⟩
    exact Text.not_balanced_of_levels sound.levels whole body.1 body.2
  next o outer outside some =>
    cases h
    obtain ⟨a, b, frames, complete, rfl⟩ := spells.flushed outside
    rw [some] at frames
    cases frames with
    | @cons _ _ a' b' frames before opening =>
      have outside := frames.outside.append before.paired.outside
      rw [opening, List.append_assoc, List.singleton_append]
      exact ⟨.opening outside complete.paired, _, _, _, rfl, rfl, rfl⟩
  next => cases h

end Scan

/-! ## Checks -/

namespace Matcher

theorem position?_compile {cause : Regex.SyntaxError → PatternError} {t : Text} {e : PatternError}
    (unnamed : ∀ x, (cause x).position? = none) (h : compile cause t = .error e) :
    e.position? = none := by
  unfold compile at h
  split at h
  next => cases h
  next x _ =>
    cases h
    exact unnamed x

theorem position?_checkConstraint {index : Nat} {q : Placeholder} {e : PatternError}
    (h : checkConstraint index q = .error e) : e.position? = none := by
  unfold checkConstraint at h
  split at h
  next => cases h
  next constraint _ =>
    rcases bind_eq_error.mp h with alone | ⟨_, -, h⟩
    · exact position?_compile (fun _ => rfl) alone
    · rcases bind_eq_error.mp h with inside | ⟨_, -, h⟩
      · exact position?_compile (fun _ => rfl) inside
      · cases h

theorem position?_checkConstraints {index : Nat} {qs : List Placeholder} {e : PatternError}
    (h : checkConstraints index qs = .error e) : e.position? = none := by
  induction qs generalizing index with
  | nil => cases h
  | cons q qs ih =>
    rcases bind_eq_error.mp h with here | ⟨_, -, rest⟩
    · exact position?_checkConstraint here
    · exact ih rest

end Matcher

namespace Pattern

theorem position?_checkGroups {name constraint : Text} {groups : List Text} {e : PatternError}
    (h : checkGroups name groups constraint = .error e) : e.position? = none := by
  unfold checkGroups at h
  split at h
  next =>
    cases h
    rfl
  next =>
    split at h
    next => cases h
    next =>
      cases h
      rfl

theorem position?_checkPlaceholders {names groups : List Text} {qs : List Placeholder}
    {e : PatternError} (h : checkPlaceholders names groups qs = .error e) : e.position? = none := by
  induction qs generalizing names groups with
  | nil => cases h
  | cons q qs ih =>
    unfold checkPlaceholders at h
    split at h
    next =>
      cases h
      rfl
    next =>
      split at h
      next => exact ih h
      next =>
        rcases bind_eq_error.mp h with here | ⟨_, -, rest⟩
        · exact position?_checkGroups here
        · exact ih rest

/-- What is wrong with a tree has no position. -/
theorem position?_of_check {p : Pattern} {e : PatternError} (h : p.check = .error e) :
    e.position? = none := by
  rcases bind_eq_error.mp h with names | ⟨_, -, h⟩
  · exact position?_checkPlaceholders names
  · rcases bind_eq_error.mp h with constraints | ⟨_, -, h⟩
    · exact Matcher.position?_checkConstraints constraints
    · rcases bind_eq_error.mp h with whole | ⟨_, -, h⟩
      · exact Matcher.position?_compile (fun _ => rfl) whole
      · cases h

/-! ## Texts -/

variable {placement : OptionalPlacement} {t : Text} {e : PatternError} {position : Nat}

theorem scan_of_parse_eq_error (h : parse placement t = .error e)
    (named : e.position? = some position) : scan placement t = .error e := by
  rcases bind_eq_error.mp h with compiled | ⟨_, -, h⟩
  · rcases bind_eq_error.mp compiled with scanned | ⟨p, -, checked⟩
    · exact scanned
    · rcases bind_eq_error.mp checked with wrong | ⟨_, -, h⟩
      · rw [position?_of_check wrong] at named
        cases named
      · cases h
  · cases h

theorem parse_eq_error_of_run (h : t.foldlM (Scan.step placement) {} = .error e) :
    parse placement t = .error e := by
  rw [parse, compile, scan, h]
  rfl

/-- An error with a position names a character of the text, which makes the fault that the error
says. If the error is not raised at the end only, then it does not depend on what stands behind this
character. -/
theorem fault_of_parse (h : parse placement t = .error e) (named : e.position? = some position) :
    Fault placement t e ∧ position < Text.byteLength t ∧
      ∃ u c v, t = u ++ c :: v ∧ position = Text.byteLength u ∧
        (¬ e.AwaitsEnd c → ∀ w, parse placement (u ++ c :: w) = .error e) := by
  have inside (u : Text) (c : Char) (v : Text) :
      Text.byteLength u < Text.byteLength (u ++ c :: v) := by
    have width := c.utf8Size_pos
    rw [Text.byteLength_append, Text.byteLength_cons]
    omega
  rcases bind_eq_error.mp (scan_of_parse_eq_error h named) with stopped | ⟨s, run, ended⟩
  · obtain ⟨u, c, v, s, rfl, run, refused⟩ := Scan.exists_refused stopped
    obtain ⟨fault, rfl⟩ := Scan.fault_of_step (Scan.run_spells .start run) refused named v
    refine ⟨fault, inside u c v, u, c, v, rfl, rfl, fun _ w => parse_eq_error_of_run ?_⟩
    rw [List.foldlM_append, run, ok_bind, List.foldlM_cons, refused, error_bind]
  · have finished : s.finish = .error e := by
      rcases bind_eq_error.mp ended with finished | ⟨_, -, h⟩
      · exact finished
      · cases h
    obtain ⟨fault, u, c, v, rfl, here, awaits⟩ :=
      Scan.fault_of_finish placement (Scan.run_spells .start run) finished
    obtain rfl := Option.some.inj (named.symm.trans here)
    exact ⟨fault, inside u c v, u, c, v, rfl, rfl, fun early => absurd awaits early⟩

/-- A bracket that is not closed, behind a constraint with brackets and braces and a character of
two bytes, and with a whole optional part behind it. Where optional parts are for the end only, the
same text is refused behind this part. -/
theorem fault_of_parse_nested :
    let t := "/é\x7ba:[^\\\x7d]\x7b2\x7d\x7d[/b[/c]/d".toList
    parse .anywhere t = .error (.mismatchedBrackets 15) ∧
      Fault .anywhere t (.mismatchedBrackets 15) ∧
      parse .trailingOnly t = .error (.optionalMisplaced 22) ∧
      Fault .trailingOnly t (.optionalMisplaced 22) ∧ 22 < Text.byteLength t ∧
      ∃ u c v, t = u ++ c :: v ∧ 22 = Text.byteLength u ∧
        ∀ w, parse .trailingOnly (u ++ c :: w) = .error (.optionalMisplaced 22) := by
  intro t
  have unclosed : parse .anywhere t = .error (.mismatchedBrackets 15) :=
    eq_error_of_decide (by decide +kernel)
  have misplaced : parse .trailingOnly t = .error (.optionalMisplaced 22) :=
    eq_error_of_decide (by decide +kernel)
  obtain ⟨fault, -⟩ := fault_of_parse unclosed rfl
  obtain ⟨fault', within, u, c, v, whole, here, stands⟩ := fault_of_parse misplaced rfl
  exact ⟨unclosed, fault, misplaced, fault', within, u, c, v, whole, here, stands id⟩

end Pattern

end UrlRouting
