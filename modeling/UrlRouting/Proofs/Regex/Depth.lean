import UrlRouting.Proofs.Regex.Advancing

/-!
# How deep groups may be nested

A reader gives up where a parenthesis opens a group and no further group may be opened. In a text
without comments these are the parentheses that `Lex.nesting` counts, so a reader at depth `d` does
not give up on a text in which at most `d` groups are open at once (`readExpression_notDeep`).
-/

namespace UrlRouting.Regex

/-! ## Other errors -/

/-- A reader does not give up because groups are nested too deep. -/
def NotDeep {α : Type} (x : Except SyntaxError α) : Prop := x ≠ .error .nestingTooDeep

namespace NotDeep

variable {α β : Type}

@[simp] theorem ok (a : α) : NotDeep (.ok a) := by
  intro same
  cases same

@[simp] theorem error_iff {e : SyntaxError} :
    NotDeep (.error e : Except SyntaxError α) ↔ e ≠ .nestingTooDeep := by
  simp [NotDeep]

@[simp] theorem pure (a : α) : NotDeep (Pure.pure a) := ok a

@[simp] theorem throw_iff {e : SyntaxError} :
    NotDeep (throw e : Except SyntaxError α) ↔ e ≠ .nestingTooDeep := error_iff

theorem of_eq_error {x : Except SyntaxError α} {e : SyntaxError} (h : NotDeep x)
    (same : x = .error e) : e ≠ .nestingTooDeep := by
  rw [same] at h
  exact error_iff.mp h

theorem bind {x : Except SyntaxError α} {f : α → Except SyntaxError β} (first : NotDeep x)
    (next : ∀ a, x = .ok a → NotDeep (f a)) : NotDeep (x >>= f) := by
  cases x with
  | error e => exact error_iff.mpr (first.of_eq_error rfl)
  | ok a => exact next a rfl

end NotDeep

/-! ## Escapes and classes -/

theorem readName_notDeep (mark : Char) (t : Text) : NotDeep (readName mark t) := by
  unfold readName
  split
  · simp
  · split <;> simp
  · simp

theorem charOfNumber_notDeep (n : Nat) : NotDeep (charOfNumber n) := by
  unfold charOfNumber
  split <;> simp

theorem readHex_notDeep (count : Nat) (t : Text) : NotDeep (readHex count t) := by
  have braced (digits rest : Text) :
      NotDeep (charOfNumber (Unicode.hexNumber digits) >>= fun c => .ok (c, rest)) :=
    (charOfNumber_notDeep _).bind fun c _ => .ok _
  unfold readHex
  split
  · exact braced _ _
  · split
    · dsimp only
      split
      · split
        · simp
        · exact braced _ _
      · simp
    · simp

theorem readProperty_notDeep (t : Text) : NotDeep (readProperty t) := by
  unfold readProperty
  split
  · simp
  · split <;> simp
  · simp

theorem propertySet_notDeep (caseless negated : Bool) (t : Text) :
    NotDeep (propertySet caseless negated t) := by
  unfold propertySet
  split <;> simp

theorem readBoundary_notDeep (t : Text) : NotDeep (readBoundary t) := by
  unfold readBoundary
  split
  · split
    · split <;> simp
    · simp
  · simp

theorem readOuterEscape_notDeep (c : Char) (t : Text) : NotDeep (readOuterEscape c t) := by
  have named (mark : Char) (t : Text) :
      NotDeep (readName mark t >>= fun x => .ok (Escape.backref x.1, x.2)) :=
    (readName_notDeep mark t).bind fun x _ => .ok _
  unfold readOuterEscape
  split
  · simp
  · split
    · exact (readBoundary_notDeep t).bind fun x _ => .ok _
    · split
      · split
        · exact named _ _
        · exact named _ _
        · simp
      · split <;> simp

theorem readInnerEscape_notDeep (c : Char) (t : Text) : NotDeep (readInnerEscape c t) := by
  unfold readInnerEscape
  split
  · simp
  · split <;> simp

theorem readEscape_notDeep (caseless inClass : Bool) (t : Text) :
    NotDeep (readEscape caseless inClass t) := by
  have hex (count : Nat) (t : Text) : NotDeep (readEscape.hex count t) :=
    (readHex_notDeep count t).bind fun x _ => .ok _
  have property (negated : Bool) (t : Text) : NotDeep (readEscape.property caseless negated t) :=
    (readProperty_notDeep t).bind fun x _ =>
      (propertySet_notDeep caseless negated x.1).bind fun cs _ => .ok _
  unfold readEscape
  split
  · simp
  · split
    · simp
    split
    · simp
    split
    · exact hex _ _
    split
    · exact hex _ _
    split
    · exact hex _ _
    split
    · exact property _ _
    split
    · exact property _ _
    split
    · exact readInnerEscape_notDeep _ _
    · exact readOuterEscape_notDeep _ _

theorem classToken_notDeep (caseless : Bool) (t : Text) : NotDeep (classToken caseless t) := by
  unfold classToken
  split
  · simp
  · refine (readEscape_notDeep caseless true _).bind fun x _ => ?_
    dsimp only
    split <;> simp
  · simp

theorem classTokens_notDeep (caseless : Bool) (depth : Nat) (t : Text) :
    NotDeep (classTokens caseless depth t) := by
  fun_induction classTokens caseless depth t with
  | case1 depth t e first =>
    exact NotDeep.error_iff.mpr ((classToken_notDeep caseless t).of_eq_error first)
  | case2 => exact .ok _
  | case3 depth t token rest first more shorter e later ih =>
    exact NotDeep.error_iff.mpr (ih.of_eq_error later)
  | case4 => exact .ok _
  | case5 => simp

theorem readClass_notDeep (s : Reading) : NotDeep (readClass s) := by
  unfold readClass
  refine (classTokens_notDeep _ _ _).bind fun x _ => ?_
  split
  split <;> simp

theorem reference_notDeep (name : Text) (s : Reading) : NotDeep (reference name s) := by
  unfold reference
  split
  · exact .ok _
  · simp

theorem readEscaped_notDeep (s : Reading) : NotDeep (readEscaped s) := by
  refine (readEscape_notDeep _ _ _).bind fun x _ => ?_
  dsimp only
  split
  · exact .ok _
  · exact .ok _
  · exact .ok _
  · exact reference_notDeep _ _

/-! ## Blanks and quantifiers -/

theorem skip_notDeep (s : Reading) : NotDeep s.skip := by
  unfold Reading.skip
  split <;> simp

theorem quantified_notDeep (r : Regex) (s : Reading) : NotDeep (quantified r s) := by
  refine (skip_notDeep s).bind fun s₁ _ => ?_
  split
  · exact .ok _
  · split
    · simp
    split
    · simp
    · exact (skip_notDeep _).bind fun s₂ _ => .ok _

/-! ## Groups -/

theorem readFlags_notDeep (f : Flags) (negated bare : Bool) (t : Text) :
    NotDeep (GroupHead.readFlags f negated bare t) := by
  fun_induction GroupHead.readFlags f negated bare t with
  | case7 _ _ _ _ _ ih => exact ih
  | case9 _ _ _ _ _ _ _ _ _ _ ih => exact ih
  | case11 _ _ _ _ _ _ _ _ _ _ _ _ _ ih => exact ih
  | _ => simp

theorem readHead_notDeep (f : Flags) (t : Text) : NotDeep (GroupHead.read f t) := by
  have named (head : Text → GroupHead) (mark : Char) (t : Text) :
      NotDeep (GroupHead.withName head mark t) :=
    (readName_notDeep mark t).bind fun x _ => .ok _
  unfold GroupHead.read
  split <;>
    first | exact .ok _ | exact named _ _ _ | exact readFlags_notDeep _ _ _ _ | simp

variable {s s' : Reading}

theorem enclosed_notDeep {body : Reader Regex} (inner : NotDeep (body s)) :
    NotDeep (enclosed body s) := by
  refine inner.bind fun x _ => NotDeep.bind ?_ fun s₁ _ => .ok _
  unfold closeGroup
  split <;> simp

theorem wrap_notDeep (number : Nat) (r : Regex) (head : GroupHead) :
    NotDeep (head.wrap number r) := by
  cases head with
  | look direction negated =>
    rw [GroupHead.wrap]
    split
    · simp
    · exact .ok _
  | _ => exact .ok _

/-- Behind the beginning of a group only its body may give up. -/
theorem readGroup_notDeep {body : Reader Regex} {head : GroupHead}
    (inner : head.isComplete = false → ∀ f, NotDeep (body { s with flags := f })) :
    NotDeep (readGroup body head s) := by
  cases complete : head.isComplete with
  | true =>
    cases head with
    | flags f => exact .ok _
    | backref name => exact reference_notDeep name s
    | _ => cases complete
  | false =>
    rw [readGroup_open complete]
    refine (enclosed_notDeep (inner complete _)).bind fun x _ => ?_
    exact (wrap_notDeep _ x.1 head).bind fun r _ => .ok _

/-! ## Expressions -/

/-- A reader does not give up on a text without comments in which no more groups are open at
once. -/
def Reaches (depth : Nat) (read : Reader Regex) : Prop :=
  ∀ s n, Calm .hashFree s → Lex.outside.nesting n s.rest ≤ n + depth → NotDeep (read s)

/-- The readers of bodies that belong to a depth. At depth zero there need be none. -/
def Serves : Nat → Option (Reader Regex) → Prop
  | 0, _ => True
  | depth + 1, body => ∃ b, body = some b ∧ Reaches depth b

variable {depth n : Nat} {body : Option (Reader Regex)}

theorem group?_notDeep (serves : Serves depth body) {u : Text} (rest : s.rest = '(' :: u)
    (calm : Calm .hashFree s) (bound : Lex.outside.nesting n s.rest ≤ n + depth) (whole : Text) :
    NotDeep (group? body whole { s with rest := u }) := by
  rw [rest, Lex.nesting] at bound
  cases depth with
  | zero =>
    have positive := Lex.le_nesting .outside (n + 1) u
    omega
  | succ depth =>
    obtain ⟨b, rfl, reaches⟩ := serves
    refine (skip_notDeep { s with rest := u }).bind fun s₁ skipped => ?_
    refine (readHead_notDeep s₁.flags s₁.rest).bind fun x beginning => ?_
    obtain ⟨head, v⟩ := x
    obtain ⟨calm', -⟩ := calm.head rest skipped beginning ((head.kind, whole) :: s₁.opened)
    apply readGroup_notDeep
    intro incomplete f
    apply reaches _ (n + 1) (calm'.with_flags fun tame => by cases tame)
    -- The beginning of the group leaves the body as deep as it is.
    have moves := skip_moves (calm.inside rest) skipped
    have start := (moves.passes rfl).trans (passes_of_read beginning)
    rw [incomplete] at start
    have less : Lex.outside.nesting (n + 1) v ≤ Lex.outside.nesting (n + 1) u :=
      start.nesting (n + 1)
    dsimp only
    omega

theorem readAtom_notDeep (serves : Serves depth body) (calm : Calm .hashFree s)
    (bound : Lex.outside.nesting n s.rest ≤ n + depth) : NotDeep (readAtom body s) := by
  refine (skip_notDeep s).bind fun s₁ skipped => ?_
  have moves := skip_moves calm skipped
  have bound : Lex.outside.nesting n s₁.rest ≤ n + depth :=
    Nat.le_trans ((moves.passes rfl).nesting n) bound
  dsimp only
  split
  · exact .ok _
  next c t rest =>
    split
    next => exact .ok _
    next => exact .ok _
    next => exact .ok _
    next => exact group?_notDeep serves rest (moves.calm calm) bound _
    next => exact readEscaped_notDeep _
    next => exact readClass_notDeep _
    all_goals exact .ok _

theorem readPiece_notDeep (serves : Serves depth body) (calm : Calm .hashFree s)
    (bound : Lex.outside.nesting n s.rest ≤ n + depth) : NotDeep (readPiece body s) :=
  (readAtom_notDeep serves calm bound).bind fun x _ => quantified_notDeep x.1 x.2

theorem readBranches_notDeep (reads : ∀ b ∈ body, Reads .hashFree b) (serves : Serves depth body)
    (calm : Calm .hashFree s) (bound : Lex.outside.nesting n s.rest ≤ n + depth) :
    NotDeep (readBranches body s) := by
  fun_induction readBranches body s with
  | case1 s e piece =>
    exact NotDeep.error_iff.mpr ((readPiece_notDeep serves calm bound).of_eq_error piece)
  | case2 s r s₁ piece shorter e later ih =>
    have first := readPiece_advances reads calm piece
    have rest := Nat.le_trans ((first.passes rfl).nesting n) bound
    exact NotDeep.error_iff.mpr ((ih (first.calm calm) rest).of_eq_error later)
  | case3 => exact .ok _
  | case4 => exact .ok _
  | case5 s r s₁ piece stop t bar e later ih =>
    have moves : Moves .hashFree s { s with rest := t } := .mark bar (by decide) (by decide)
    have rest := Nat.le_trans ((moves.passes rfl).nesting n) bound
    exact NotDeep.error_iff.mpr ((ih (moves.calm calm) rest).of_eq_error later)
  | case6 => exact .ok _
  | case7 => exact .ok _

/-- A reader does not give up on a text without comments in which no more groups are open at once
than it may open. -/
theorem readExpression_notDeep (depth : Nat) : Reaches depth (readExpression depth) := by
  induction depth with
  | zero =>
    intro s n calm bound
    have serves : Serves 0 none := trivial
    exact (readBranches_notDeep (by simp) serves calm bound).bind fun x _ => .ok _
  | succ depth ih =>
    intro s n calm bound
    have reads : ∀ b ∈ some (readExpression depth), Reads .hashFree b := by
      intro b mem
      cases mem
      exact reads_readExpression .hashFree depth
    have serves : Serves (depth + 1) (some (readExpression depth)) := ⟨_, rfl, ih⟩
    exact (readBranches_notDeep reads serves calm bound).bind fun x _ => .ok _

end UrlRouting.Regex
