import UrlRouting.Proofs.Regex.Following

/-!
# Expressions as bodies of groups

A text that is an expression by itself is read in the same way as the body of a group: the
expression is the same up to the numbers of its groups, and what is left are the closing parenthesis
and what comes after it (`readExpression_copies`). There are two exceptions. Groups may be nested
too deep in the other place, and a line comment at the end of the text takes the rest of everything
with it.

A brace in front of a comment that is not closed stands for itself in the text alone, but may begin
bounds in the other place. Such a text is no expression (`readBranches_unbounded`).
-/

namespace UrlRouting.Regex

variable {mode : Mode} {k : Text} {base : List GroupKind}

/-! ## Texts that are no expressions -/

theorem Taken.length {comments : Bool} {t u : Text} {ws : List Text}
    (taken : Taken comments t ws u) :
    u = t ∨ u.length < t.length := by
  induction taken with
  | done => exact .inl rfl
  | char _ _ _ _ ih => grind
  | escape _ _ _ ih => grind
  | bracket _ _ _ ih => grind
  | group _ ih => grind
  | comment _ _ _ ih => grind
  | line _ _ _ ih => grind
  | lastLine => exact .inr (by simp)

theorem Moves.length {s s' : Reading} (moves : Moves mode s s') :
    s'.rest.length ≤ s.rest.length := by
  rcases moves.taken.length with same | less
  · rw [same]
  · exact Nat.le_of_lt less

/-- In front of a doomed text there is no quantifier. -/
theorem quantified_doomed {s : Reading} (doomed : Doomed s) (r : Regex) {x : Regex × Reading}
    (h : quantified r s = .ok x) : s.skip? = some x.2 := by
  obtain ⟨s₁, skipped, h⟩ := bind_eq_ok.mp h
  have skipped := skip_eq_ok.mp skipped
  cases doomed with
  | unclosed none =>
    rw [skipped] at none
    cases none
  | @char _ s' c u some rest mark more =>
    rw [skipped] at some
    cases some
    have none : takeQuantity s₁ = none := by
      unfold takeQuantity
      rw [rest]
      have ne : ∀ d ∈ ['?', '*', '+', '\x7b'], c ≠ d := by
        rintro d mem rfl
        revert mark
        simp only [List.mem_cons, List.not_mem_nil, or_false] at mem
        rcases mem with rfl | rfl | rfl | rfl <;> decide
      split <;> simp_all
    rw [none] at h
    cases h
    exact skipped

theorem readAtom_mark (body : Option (Reader Regex)) {s s' : Reading} {c : Char} {u : Text}
    (skipped : s.skip? = some s') (rest : s'.rest = c :: u)
    (mark : c = '\x7b' ∨ c = ',' ∨ c.isDigit) :
    readAtom body s = .ok (literal s'.flags c, { s' with rest := u }) := by
  have ne : ∀ d ∈ ['.', '^', '$', '(', '\\', '[', '+', '*', '?', '|', ')'], c ≠ d := by
    rintro d mem rfl
    revert mark
    simp only [List.mem_cons, List.not_mem_nil, or_false] at mem
    rcases mem with rfl | rfl | rfl | rfl | rfl | rfl | rfl | rfl | rfl | rfl | rfl <;> decide
  simp only [List.mem_cons, List.not_mem_nil, or_false, forall_eq_or_imp, forall_eq] at ne
  obtain ⟨h₁, h₂, h₃, h₄, h₅, h₆, h₇, h₈, h₉, h₁₀, h₁₁⟩ := ne
  rw [readAtom, skip_eq_ok.mpr skipped, ok_bind]
  dsimp only
  rw [rest]
  dsimp only
  split <;> first | contradiction | rfl

/-- Behind a mark that stands for itself, a doomed text is no expression if its rest is none. -/
theorem readBranches_mark {body : Option (Reader Regex)} {s s' : Reading} {c : Char} {u : Text}
    (skipped : s.skip? = some s') (rest : s'.rest = c :: u)
    (mark : c = '\x7b' ∨ c = ',' ∨ c.isDigit) (doomed : Doomed { s' with rest := u })
    (later : ∀ {s₁ x}, s₁.skip? = Reading.skip? { s' with rest := u } →
      readBranches body s₁ ≠ .ok x) {x : List (List Regex) × Reading} :
    readBranches body s ≠ .ok x := by
  intro h
  rw [readBranches] at h
  split at h
  next => cases h
  next r s₃ piece =>
    obtain ⟨⟨r', s₂⟩, atom, quantifier⟩ := bind_eq_ok.mp piece
    rw [readAtom_mark body skipped rest mark] at atom
    cases atom
    have skipped' := quantified_doomed doomed _ quantifier
    have shorter : s₃.rest.length < s.rest.length := by
      have first := (skip?_moves (Calm.any _) skipped).length
      have second := (skip?_moves (Calm.any _) skipped').length
      rw [rest] at first
      simp only [List.length_cons] at first second
      omega
    rw [dif_pos shorter] at h
    split at h
    next => cases h
    next last => exact later (by rw [skipped', skip?_idempotent skipped']) last
    next last => exact later (by rw [skipped', skip?_idempotent skipped']) last

theorem readBranches_doomed {body : Option (Reader Regex)} {s s₁ : Reading} (doomed : Doomed s)
    (same : s₁.skip? = s.skip?) {x : List (List Regex) × Reading} :
    readBranches body s₁ ≠ .ok x := by
  induction doomed generalizing s₁ x with
  | unclosed none =>
    intro h
    rw [none] at same
    have fails : readPiece body s₁ = .error .unclosedComment := by
      simp [readPiece, readAtom, Reading.skip, same]
    rw [readBranches, fails] at h
    cases h
  | char skipped rest mark more ih =>
    rw [skipped] at same
    exact readBranches_mark same rest (.inr mark) more fun same => ih same

/-- Where a brace begins no bounds, because of a comment that is not closed, there is no
expression. -/
theorem readBranches_unbounded {body : Option (Reader Regex)} {s : Reading} (h : Unbounded s)
    {x : List (List Regex) × Reading} : readBranches body s ≠ .ok x := by
  obtain ⟨u, rest, doomed⟩ := h
  have skipped : s.skip? = some s := by
    refine skip?_of (u := s.rest) ?_
    rw [rest]
    simp [skipIgnored]
  exact readBranches_mark skipped rest (.inl rfl) doomed fun same =>
    readBranches_doomed doomed same

/-! ## Copies -/

/-- What a reader has read is what the other one reads in the other place, unless groups are nested
too deep there. -/
def Kept {α β : Type} (f : α → β) (k : Text) (base : List GroupKind) (x : α × Reading)
    (y : Except SyntaxError (α × Reading)) : Prop :=
  y = .error .nestingTooDeep ∨
    ∃ a t, y = .ok (a, t) ∧ f a = f x.1 ∧ Follows k base x.2 t

/-- A reader reads in front of a closing parenthesis what another one reads without. -/
def Copies (mode : Mode) (k : Text) (base : List GroupKind) (read read' : Reader Regex) : Prop :=
  ∀ s t x, Fits mode k s → Follows k base s t → read s = .ok x →
    Kept unnumbered k base x (read' t)

section

variable {s t s' : Reading} {r : Regex}

theorem reference_follows {name : Text} (f : Follows k base s t)
    (h : reference name s = .ok (r, s')) : Kept unnumbered k base (r, s') (reference name t) := by
  obtain ⟨rfl, n, known, rfl⟩ := reference_eq_ok h
  have known' : ∃ n', t.groupNumber? name = some n' := by
    unfold Reading.groupNumber? at known ⊢
    cases found : t.groups.findIdx? (·.name? = some name) with
    | some i => exact ⟨_, rfl⟩
    | none =>
      have absent : s'.groups.findIdx? (·.name? = some name) = none := by
        rw [f.groups, List.findIdx?_append, Option.or_eq_none_iff] at found
        exact found.1
      rw [absent] at known
      dsimp only at known ⊢
      split at known
      next numeral =>
        rw [if_pos numeral]
        split at known
        next bound =>
          have longer : s'.groups.length ≤ t.groups.length := by
            rw [f.groups, List.length_append]
            exact Nat.le_add_right _ _
          exact ⟨_, if_pos (Nat.le_trans bound longer)⟩
        next => cases known
      next => cases known
  obtain ⟨n', known'⟩ := known'
  refine .inr ⟨backref n' t.flags.caseless, t, ?_, ?_, f⟩
  · rw [reference, known']
    rfl
  · rw [f.flags]
    rfl

theorem readEscaped_follows (f : Follows k base s t) (rest : t.rest = s.rest ++ ')' :: k)
    (h : readEscaped s = .ok (r, s')) : Kept unnumbered k base (r, s') (readEscaped t) := by
  obtain ⟨v, g, opened⟩ := t
  obtain rfl : g = s.flags := f.flags
  obtain rfl : v = s.rest ++ ')' :: k := rest
  obtain ⟨⟨e, u⟩, escape, h⟩ := bind_eq_ok.mp h
  obtain ⟨c, w, -, -, append⟩ := readEscape_ok escape
  have f' := f.advance u
  rw [readEscaped, append, ok_bind]
  cases e with
  | char c folds =>
    cases h
    exact .inr ⟨_, _, rfl, rfl, f'⟩
  | set cs =>
    cases h
    exact .inr ⟨_, _, rfl, rfl, f'⟩
  | expr r =>
    cases h
    exact .inr ⟨_, _, rfl, rfl, f'⟩
  | backref name => exact reference_follows f' h

theorem readClass_follows (f : Follows k base s t) (rest : t.rest = s.rest ++ ')' :: k)
    (h : readClass s = .ok (r, s')) : Kept unnumbered k base (r, s') (readClass t) := by
  obtain ⟨v, g, o⟩ := t
  obtain rfl : g = s.flags := f.flags
  obtain rfl : v = s.rest ++ ')' :: k := rest
  obtain ⟨flags, opened, -, cs, rfl, append⟩ := readClass_ok h
  have groups : s'.groups = s.groups := by rw [Reading.groups, Reading.groups, opened]
  refine .inr ⟨set cs, _, append o k, rfl, rfl, ?_, .inl rfl⟩
  rw [groups]
  exact f.groups

/-! ## Groups -/

theorem closeGroup_follows (f : Follows k base s t) (h : closeGroup s = .ok s') :
    ∃ t', closeGroup t = .ok t' ∧ Follows k base s' t' := by
  obtain ⟨u, rest, rfl⟩ := closeGroup_eq_ok.mp h
  exact ⟨_, closeGroup_eq_ok.mpr ⟨_, f.rest_cons rest, rfl⟩, f.advance u⟩

theorem enclosed_follows {body body' : Reader Regex} (copies : Copies mode k base body body')
    (fits : Fits mode k s) (f : Follows k base s t) (h : enclosed body s = .ok (r, s')) :
    Kept unnumbered k base (r, s') (enclosed body' t) := by
  obtain ⟨⟨r', s₁⟩, inner, h⟩ := bind_eq_ok.mp h
  obtain ⟨s₂, close, h⟩ := bind_eq_ok.mp h
  cases h
  rcases copies s t _ fits f inner with deep | ⟨a, t₁, inner', same, f₁⟩
  · refine .inl ?_
    rw [enclosed, deep]
    rfl
  · obtain ⟨t₂, close', f₂⟩ := closeGroup_follows f₁ close
    refine .inr ⟨a, t₂, ?_, same, f₂⟩
    simp only [enclosed, inner', ok_bind, close']
    rfl

/-- What is done with what has been read. -/
theorem Kept.bind {α β γ δ : Type} {f : α → β} {g : γ → δ} {x : α × Reading} {y : γ × Reading}
    {e : Except SyntaxError (α × Reading)} {next : α × Reading → Except SyntaxError (γ × Reading)}
    (kept : Kept f k base x e)
    (h : ∀ a t, f a = f x.1 → Follows k base x.2 t → Kept g k base y (next (a, t))) :
    Kept g k base y (e >>= next) := by
  rcases kept with rfl | ⟨a, t, rfl, same, follows⟩
  · exact .inl rfl
  · exact h a t same follows

/-- Behind the beginning of a group with a body. -/
theorem Fits.enter {u v : Text} {head : GroupHead} (rest : s.rest = '(' :: u)
    (first : skipIgnored s.flags.extended .outside ('(' :: u) = some ('(' :: u))
    (fits : Fits mode k s) (skipped : Reading.skip { s with rest := u } = .ok s')
    (beginning : GroupHead.read s'.flags s'.rest = .ok (head, v)) (opened : List (GroupKind × Text))
    (incomplete : head.isComplete = false) : Fits mode k ⟨v, head.inner s'.flags, opened⟩ := by
  obtain ⟨calm, tame⟩ := fits.calm.head rest skipped beginning opened
  have same : mode = .tame → head.inner s'.flags = s'.flags := fun eq =>
    GroupHead.inner_eq (tame eq).2
  refine ⟨calm.with_flags same, fun any line => ?_⟩
  obtain ⟨outer, ends⟩ := fits.ended any line
  obtain ⟨w, ignored, rfl⟩ := Option.map_eq_some_iff.mp (skip_eq_ok.mp skipped)
  obtain ⟨x, reaches, -⟩ := Clears.beginning first ignored beginning
  have inside := reaches outer
  rw [Place.enter_open incomplete] at inside
  rw [rest] at ends
  exact ⟨_, inside.not_openEnded ends⟩

/-- What groups make of bodies that differ in numbers differs in numbers only. -/
theorem wrap_unnumbered {head : GroupHead} {a r r' : Regex} (same : unnumbered a = unnumbered r)
    {n : Nat} (h : head.wrap n r = .ok r') (m : Nat) :
    ∃ a', head.wrap m a = .ok a' ∧ unnumbered a' = unnumbered r' := by
  cases head with
  | capturing =>
    cases h
    exact ⟨_, rfl, congrArg (group 0) same⟩
  | named name =>
    cases h
    exact ⟨_, rfl, congrArg (group 0) same⟩
  | atomic =>
    cases h
    exact ⟨_, rfl, congrArg atomic same⟩
  | look direction negated =>
    have widths : a.widths? = r.widths? := by
      rw [← widths?_unnumbered a, same, widths?_unnumbered]
    rw [GroupHead.wrap] at h ⊢
    rw [widths]
    split at h
    next => cases h
    next proper =>
      cases h
      exact ⟨_, if_neg proper, congrArg (look direction negated) same⟩
  | _ =>
    cases h
    exact ⟨_, rfl, same⟩

theorem readGroup_follows {body body' : Reader Regex} {head : GroupHead}
    (copies : Copies mode k base body body')
    (fits : head.isComplete = false → Fits mode k { s with flags := head.inner s.flags })
    (f : Follows k base s t) (h : readGroup body head s = .ok (r, s')) :
    Kept unnumbered k base (r, s') (readGroup body' head t) := by
  rcases readGroup_eq_ok h with ⟨g, rfl, rfl, rfl⟩ | ⟨name, rfl, h⟩ |
    ⟨incomplete, r', s₁, inner, wrapped, rfl⟩
  · exact .inr ⟨_, _, rfl, rfl, rfl, f.groups, f.rest⟩
  · exact reference_follows f h
  · rw [readGroup_open incomplete, f.flags]
    have f' : Follows k base { s with flags := head.inner s.flags }
        { t with flags := head.inner s.flags } := ⟨rfl, f.groups, f.rest⟩
    refine (enclosed_follows copies (fits incomplete) f' inner).bind fun a t₁ same f₁ => ?_
    obtain ⟨a', wrapped', same'⟩ := wrap_unnumbered same wrapped t.groups.length
    dsimp only
    rw [wrapped', ok_bind, f₁.flags]
    exact .inr ⟨a', _, rfl, same', rfl, f₁.groups, f₁.rest⟩

theorem group?_follows {body body' : Option (Reader Regex)} (reads : ∀ b ∈ body, Reads mode b)
    (copies : ∀ b ∈ body, ∀ b' ∈ body', Copies mode k base b b') {u : Text}
    (rest : s.rest = '(' :: u)
    (first : skipIgnored s.flags.extended .outside ('(' :: u) = some ('(' :: u))
    (fits : Fits mode k s) (f : Follows k base s t)
    (h : group? body ('(' :: u) { s with rest := u } = .ok (r, s')) :
    Kept unnumbered k base (r, s')
      (group? body' ('(' :: (u ++ ')' :: k)) { t with rest := u ++ ')' :: k }) := by
  cases body with
  | none => cases h
  | some body =>
    cases body' with
    | none => exact .inl rfl
    | some body' =>
      have reads := reads body rfl
      have copies := copies body rfl body' rfl
      obtain ⟨s₁, skipped, h⟩ := bind_eq_ok.mp h
      obtain ⟨⟨head, v⟩, beginning, h⟩ := bind_eq_ok.mp h
      obtain ⟨calm₂, -⟩ :=
        fits.calm.head rest skipped beginning ((head.kind, '(' :: u) :: s₁.opened)
      have left : s₁.rest ≠ [] := by
        intro none
        rw [none] at beginning
        cases beginning
        -- nothing is left of a body, but the group is closed
        obtain ⟨⟨r', s₂⟩, inner, h⟩ := bind_eq_ok.mp h
        obtain ⟨⟨r'', s₃⟩, body, inner⟩ := bind_eq_ok.mp inner
        obtain ⟨s₄, close, -⟩ := bind_eq_ok.mp inner
        obtain ⟨w, closing, -⟩ := closeGroup_eq_ok.mp close
        have nothing := (reads.advances calm₂ body).rest_nil rfl
        rw [nothing] at closing
        cases closing
      obtain ⟨t₁, skipped', f₁, more⟩ :=
        skip?_follows_of_ne_nil (f.advance u) rfl (skip_eq_ok.mp skipped) left
      have beginning' := read_append beginning k
      rw [← more, ← f₁.flags] at beginning'
      have f₂ : Follows k base { s₁ with rest := v, opened := (head.kind, '(' :: u) :: s₁.opened }
          { t₁ with
            rest := v ++ ')' :: k
            opened := (head.kind, '(' :: (u ++ ')' :: k)) :: t₁.opened } := by
        refine ⟨f₁.flags, ?_, .inl rfl⟩
        have groups : t₁.groups = s₁.groups ++ base := f₁.groups
        simp only [Reading.groups, List.map_cons, List.filter_cons] at groups ⊢
        split <;> simp [groups]
      have kept := readGroup_follows
        (s := { s₁ with rest := v, opened := (head.kind, '(' :: u) :: s₁.opened }) copies
        (fits.enter rest first skipped beginning _) f₂ h
      simp only [group?, skip_eq_ok.mpr skipped', ok_bind, beginning']
      exact kept

/-! ## Atoms and pieces -/

theorem readAtom_follows {body body' : Option (Reader Regex)}
    (reads : ∀ b ∈ body, Reads mode b)
    (copies : ∀ b ∈ body, ∀ b' ∈ body', Copies mode k base b b')
    (fits : Fits mode k s) (f : Follows k base s t)
    (h : readAtom body s = .ok (r, s')) :
    Kept unnumbered k base (r, s') (readAtom body' t) := by
  obtain ⟨s₁, skipped, h⟩ := bind_eq_ok.mp h
  obtain ⟨t₁, skipped', f₁⟩ := skip_follows fits f skipped
  have fits₁ := (skip_moves fits.calm skipped).fits fits
  have plain := skip_idem skipped
  rw [readAtom, skipped', ok_bind]
  clear skipped skipped'
  cases rest : s₁.rest with
  | nil =>
    rw [rest] at h
    cases h
    rcases f₁.rest with more | ⟨-, nothing⟩
    · rw [more, rest]
      exact .inr ⟨_, _, rfl, rfl, f₁⟩
    · rw [nothing]
      exact .inr ⟨_, _, rfl, rfl, f₁⟩
  | cons c u =>
    have f₂ := f₁.advance u
    rw [rest] at h
    rw [f₁.rest_cons rest, List.cons_append]
    dsimp only at h ⊢
    split at h
    next =>
      cases h
      refine .inr ⟨_, _, rfl, ?_, f₂⟩
      rw [f₁.flags]
    next =>
      cases h
      refine .inr ⟨_, _, rfl, ?_, f₂⟩
      rw [f₁.flags]
    next =>
      cases h
      refine .inr ⟨_, _, rfl, ?_, f₂⟩
      rw [f₁.flags]
    next => exact group?_follows reads copies rest (by rwa [rest] at plain) fits₁ f₁ h
    next => exact readEscaped_follows f₂ rfl h
    next => exact readClass_follows f₂ rfl h
    next =>
      cases h
      exact .inr ⟨_, _, rfl, rfl, f₁⟩
    next =>
      cases h
      exact .inr ⟨_, _, rfl, rfl, f₁⟩
    next =>
      cases h
      exact .inr ⟨_, _, rfl, rfl, f₁⟩
    next =>
      cases h
      exact .inr ⟨_, _, rfl, rfl, f₁⟩
    next =>
      cases h
      exact .inr ⟨_, _, rfl, rfl, f₁⟩
    next =>
      cases h
      refine .inr ⟨_, _, rfl, ?_, f₂⟩
      rw [f₁.flags]

theorem readPiece_follows {body body' : Option (Reader Regex)}
    (reads : ∀ b ∈ body, Reads mode b)
    (copies : ∀ b ∈ body, ∀ b' ∈ body', Copies mode k base b b')
    (fits : Fits mode k s) (f : Follows k base s t)
    (h : readPiece body s = .ok (r, s')) :
    Unbounded s' ∨ Kept unnumbered k base (r, s') (readPiece body' t) := by
  obtain ⟨⟨r', s₁⟩, atom, h⟩ := bind_eq_ok.mp h
  rcases readAtom_follows reads copies fits f atom with deep | ⟨a, t₁, atom', same, f₁⟩
  · refine .inr (.inl ?_)
    rw [readPiece, deep]
    rfl
  · have fits₁ := (readAtom_advances reads fits.calm atom).fits fits
    rcases quantified_follows same fits₁ f₁ h with unbounded | ⟨a', t₂, piece', same', f₂⟩
    · exact .inl unbounded
    · refine .inr (.inr ⟨a', t₂, ?_, same', f₂⟩)
      rw [readPiece, atom', ok_bind]
      exact piece'

/-! ## Expressions -/

/-- A piece in front of the first of several alternatives. -/
def attach (r : Regex) : List (List Regex) → List (List Regex)
  | [] => [[r]]
  | rs :: branches => (r :: rs) :: branches

theorem map_attach (r : Regex) (branches : List (List Regex)) :
    (attach r branches).map (List.map unnumbered) =
      attach r.unnumbered (branches.map (List.map unnumbered)) := by
  cases branches <;> rfl

/-- Alternatives go on behind a piece that takes text. -/
theorem readBranches_piece {body : Option (Reader Regex)} (piece : readPiece body s = .ok (r, s'))
    (progress : s'.rest.length < s.rest.length) :
    readBranches body s = readBranches body s' >>= fun x => .ok (attach r x.1, x.2) := by
  rw [readBranches, piece]
  dsimp only
  rw [dif_pos progress]
  rcases readBranches body s' with e | ⟨_ | ⟨rs, branches⟩, last⟩ <;> rfl

/-- Where no piece takes text an alternative ends. -/
theorem readBranches_stop {body : Option (Reader Regex)} (piece : readPiece body s = .ok (r, s'))
    (stop : ¬ s'.rest.length < s.rest.length) :
    readBranches body s =
      match s.rest with
      | '|' :: t => readBranches body { s with rest := t } >>= fun x => .ok ([] :: x.1, x.2)
      | _ => .ok ([[]], s) := by
  rw [readBranches, piece]
  dsimp only
  rw [dif_neg stop]
  split
  next u rest =>
    rw [rest]
    change _ = readBranches body { s with rest := u } >>= _
    rcases readBranches body { s with rest := u } with e | ⟨branches, last⟩ <;> rfl
  next notBar =>
    split
    next rest => exact absurd rest (notBar _)
    next => rfl

/-- At the end of a group, or of everything, there is nothing to read. -/
theorem readPiece_end (body : Option (Reader Regex)) {s : Reading}
    (h : ∀ c ∈ s.rest.head?, c = ')') : readPiece body s = .ok (empty, s) := by
  obtain ⟨u, f, o⟩ := s
  rcases u with - | ⟨c, u⟩
  · rfl
  · obtain rfl : c = ')' := h c rfl
    have skip : Reading.skip ⟨')' :: u, f, o⟩ = .ok ⟨')' :: u, f, o⟩ := by
      simp [Reading.skip, Reading.skip?, skipIgnored]
    have atom : readAtom body ⟨')' :: u, f, o⟩ = .ok (empty, ⟨')' :: u, f, o⟩) := by
      simp only [readAtom, skip, ok_bind]
      rfl
    simp only [readPiece, atom, quantified, skip, ok_bind]
    rfl

/-- A brace in front of which a piece has been read does not end the piece before it. -/
theorem Unbounded.progress {body : Option (Reader Regex)} (reads : ∀ b ∈ body, Reads mode b)
    (calm : Calm mode s) (piece : readPiece body s = .ok (r, s')) (unbounded : Unbounded s') :
    s'.rest.length < s.rest.length := by
  obtain ⟨v, brace, -⟩ := unbounded
  obtain ⟨new, -, taken, -⟩ := (readPiece_advances reads calm piece).groups
  rcases taken.length with same | less
  · have rest : s.rest = '\x7b' :: v := by rw [← same, brace]
    have skipped : s.skip? = some s := by
      refine skip?_of (u := s.rest) ?_
      rw [rest]
      simp [skipIgnored]
    obtain ⟨⟨a, s₁⟩, atom, quantifier⟩ := bind_eq_ok.mp piece
    rw [readAtom_mark body skipped rest (.inl rfl)] at atom
    cases atom
    have bound := (quantified_moves (Calm.any _) quantifier).length
    rw [rest]
    exact Nat.lt_succ_of_le bound
  · exact less

/-- Where one reader stops the other one stops. -/
theorem stop_follows {body body' : Option (Reader Regex)}
    (reads : ∀ b ∈ body, Reads mode b)
    (copies : ∀ b ∈ body, ∀ b' ∈ body', Copies mode k base b b')
    (fits : Fits mode k s) (f : Follows k base s t)
    (piece : readPiece body s = .ok (r, s')) (stop : ¬ s'.rest.length < s.rest.length) :
    readPiece body' t = .error .nestingTooDeep ∨
      ∃ a t', readPiece body' t = .ok (a, t') ∧ ¬ t'.rest.length < t.rest.length := by
  cases rest : s.rest with
  | nil =>
    refine .inr ⟨empty, t, readPiece_end body' ?_, Nat.lt_irrefl _⟩
    rcases f.rest with more | ⟨-, nothing⟩
    · rw [more, rest]
      simp
    · rw [nothing]
      simp
  | cons c u =>
    rcases readPiece_follows reads copies fits f piece with
      unbounded | deep | ⟨a, t', piece', -, f'⟩
    · exact absurd (unbounded.progress reads fits.calm piece) stop
    · exact .inl deep
    · refine .inr ⟨a, t', piece', ?_⟩
      rcases f'.rest with more | ⟨none, -⟩
      · have := f.rest_cons rest
        rw [rest] at stop
        rw [more, this]
        simp only [List.length_append, List.length_cons] at stop ⊢
        omega
      · rw [none, rest] at stop
        simp at stop

/-- The branches behind a piece that takes text. -/
theorem piece_follows {body body' : Option (Reader Regex)} (reads : ∀ b ∈ body, Reads mode b)
    (copies : ∀ b ∈ body, ∀ b' ∈ body', Copies mode k base b b')
    (fits : Fits mode k s) (f : Follows k base s t)
    (piece : readPiece body s = .ok (r, s')) (progress : s'.rest.length < s.rest.length)
    {x : List (List Regex) × Reading} (later : readBranches body s' = .ok x)
    (ih : ∀ {t'}, Fits mode k s' → Follows k base s' t' →
      Kept (List.map (List.map unnumbered)) k base x (readBranches body' t')) :
    Kept (List.map (List.map unnumbered)) k base (attach r x.1, x.2) (readBranches body' t) := by
  rcases readPiece_follows reads copies fits f piece with
    unbounded | deep | ⟨a, t', piece', same, f'⟩
  · exact absurd later (readBranches_unbounded unbounded)
  · exact .inl (by rw [readBranches, deep])
  · have progress' : t'.rest.length < t.rest.length := by
      cases rest : s.rest with
      | nil =>
        rw [rest] at progress
        cases progress
      | cons c u =>
        have whole := f.rest_cons rest
        rw [rest] at progress
        rcases f'.rest with more | ⟨-, nothing⟩
        · rw [more, whole]
          simp only [List.length_append, List.length_cons] at progress ⊢
          omega
        · rw [nothing, whole]
          simp
    rw [readBranches_piece piece' progress']
    have fits' := (readPiece_advances reads fits.calm piece).fits fits
    refine (ih fits' f').bind fun bs t₂ same' f₂ => .inr ⟨_, _, rfl, ?_, f₂⟩
    rw [map_attach, map_attach, same, same']

theorem readBranches_follows {body body' : Option (Reader Regex)}
    (reads : ∀ b ∈ body, Reads mode b)
    (copies : ∀ b ∈ body, ∀ b' ∈ body', Copies mode k base b b')
    (fits : Fits mode k s) (f : Follows k base s t)
    {x : List (List Regex) × Reading} (h : readBranches body s = .ok x) :
    Kept (List.map (List.map unnumbered)) k base x (readBranches body' t) := by
  fun_induction readBranches body s generalizing t x with
  | case1 => cases h
  | case2 => cases h
  | case3 s r s₁ piece progress last later ih =>
    cases h
    exact piece_follows reads copies fits f piece progress later fun fits' f' =>
      ih fits' f' later
  | case4 s r s₁ piece progress rs branches last later ih =>
    cases h
    exact piece_follows reads copies fits f piece progress later fun fits' f' =>
      ih fits' f' later
  | case5 => cases h
  | case6 s r s₁ piece stop u rest branches last later ih =>
    cases h
    rcases stop_follows reads copies fits f piece stop with deep | ⟨a, t₁, piece', stop'⟩
    · exact .inl (by rw [readBranches, deep])
    · have bar : Moves mode s { s with rest := u } :=
        .mark rest (by decide) (by decide)
      rw [readBranches_stop piece' stop', f.rest_cons rest]
      refine (ih (bar.fits fits) (f.advance u) later).bind fun bs t₂ same f₂ => ?_
      exact .inr ⟨_, _, rfl, congrArg (List.cons []) same, f₂⟩
  | case7 s r s₁ piece stop notBar =>
    cases h
    rcases stop_follows reads copies fits f piece stop with deep | ⟨a, t₁, piece', stop'⟩
    · exact .inl (by rw [readBranches, deep])
    · rw [readBranches_stop piece' stop']
      split
      next u rest' =>
        rcases f.rest with more | ⟨-, nothing⟩
        · cases rest : s.rest with
          | nil =>
            rw [more, rest] at rest'
            cases rest'
          | cons c v =>
            rw [more, rest] at rest'
            cases rest'
            exact absurd rest (notBar v)
        · rw [nothing] at rest'
          cases rest'
      next => exact .inr ⟨_, _, rfl, rfl, f⟩

end

/-- At every depth an expression is read with a reader of bodies that reads expressions. -/
theorem readExpression_eq (depth : Nat) : ∃ body : Option (Reader Regex),
    (∀ b ∈ body, ∃ d, b = readExpression d) ∧
    ∀ s, readExpression depth s =
      readBranches body s >>= fun x => .ok (alternatives (x.1.map sequence), x.2) := by
  cases depth with
  | zero => exact ⟨none, nofun, fun s => rfl⟩
  | succ d =>
    exact ⟨some (readExpression d), fun b mem => ⟨d, by cases mem; rfl⟩, fun s => rfl⟩

theorem unnumbered_branches (branches : List (List Regex)) :
    (alternatives (branches.map sequence)).unnumbered =
      alternatives ((branches.map (List.map unnumbered)).map sequence) := by
  rw [unnumbered_alternatives, List.map_map, List.map_map]
  congr 2
  funext rs
  exact unnumbered_sequence rs

/-- A text that is an expression by itself is read in the same way as the body of a group. -/
theorem readExpression_copies (depth depth' : Nat) :
    Copies mode k base (readExpression depth) (readExpression depth') := by
  induction depth generalizing depth' with
  | zero =>
    obtain ⟨body', -, eq'⟩ := readExpression_eq depth'
    intro s t x fits f h
    obtain ⟨y, branches, h⟩ := bind_eq_ok.mp h
    cases h
    rw [eq']
    refine (readBranches_follows (by simp) (by simp) fits f branches).bind
      fun bs t' same f' => .inr ⟨_, _, rfl, ?_, f'⟩
    rw [unnumbered_branches, unnumbered_branches, same]
  | succ depth ih =>
    obtain ⟨body', bodies, eq'⟩ := readExpression_eq depth'
    intro s t x fits f h
    obtain ⟨y, branches, h⟩ := bind_eq_ok.mp h
    cases h
    rw [eq']
    refine (readBranches_follows (fun b mem => ?_) (fun b mem b' mem' => ?_) fits f
      branches).bind fun bs t' same f' => .inr ⟨_, _, rfl, ?_, f'⟩
    · cases mem
      exact reads_readExpression mode depth
    · cases mem
      obtain ⟨d, rfl⟩ := bodies b' mem'
      exact ih d
    · rw [unnumbered_branches, unnumbered_branches, same]

end UrlRouting.Regex
