import UrlRouting.Proofs.Regex.Atoms
import UrlRouting.Proofs.Regex.Skipping

/-!
# How readers advance

`Advances` relates the states of any reader: it takes whole tokens and lists the groups among them.
A reader of bodies that advances makes the reader of an expression around it advance
(`readBranches_advances`), and so `readExpression` advances at every depth.
-/

namespace UrlRouting.Regex

variable {mode : Mode} {s s' s'' : Reading}

/-! ## Advances -/

/-- A reader takes whole tokens. The groups it opens are those among the tokens, and also those in
the text without comments; a tame text leaves the flags as they are. What is taken without comments
is balanced. -/
structure Advances (mode : Mode) (s s' : Reading) : Prop where
  flags : mode = .tame → s'.flags = s.flags
  passes : mode.comments = false → Lex.Passes s.rest s'.rest
  groups : ∃ new : List (GroupKind × Text), s'.opened = new.reverse ++ s.opened ∧
    Taken mode.comments s.rest (new.map Prod.snd) s'.rest ∧ (∀ e ∈ new, Understood e) ∧
    Clears s.flags s.rest (new.map Prod.fst) s'.flags s'.rest

theorem Moves.advances (moves : Moves mode s s') : Advances mode s s' := by
  refine ⟨fun _ => moves.flags, moves.passes, [], moves.opened, moves.taken, nofun, ?_⟩
  rw [moves.flags]
  exact moves.clears

namespace Advances

theorem refl (s : Reading) : Advances mode s s := (Moves.refl s).advances

theorem trans (first : Advances mode s s') (second : Advances mode s' s'') :
    Advances mode s s'' := by
  obtain ⟨new, opened, taken, understood, clears⟩ := first.groups
  obtain ⟨new', opened', taken', understood', clears'⟩ := second.groups
  refine ⟨fun tame => (second.flags tame).trans (first.flags tame),
    fun plain => (first.passes plain).trans (second.passes plain), new ++ new', ?_, ?_, ?_, ?_⟩
  · rw [opened', opened, List.reverse_append, List.append_assoc]
  · rw [List.map_append]
    exact taken.trans taken'
  · intro e mem
    rcases List.mem_append.mp mem with mem | mem
    · exact understood e mem
    · exact understood' e mem
  · rw [List.map_append]
    exact clears.trans clears'

theorem calm (advances : Advances mode s s') (calm : Calm mode s) : Calm mode s' := by
  obtain ⟨new, -, taken, -⟩ := advances.groups
  exact calm.of_taken advances.flags taken

/-- Where nothing is left nothing can be taken. -/
theorem rest_nil (advances : Advances mode s s') (h : s.rest = []) : s'.rest = [] := by
  obtain ⟨new, -, taken, -⟩ := advances.groups
  rw [h] at taken
  generalize new.map Prod.snd = ws, s'.rest = u at taken
  cases taken
  rfl

end Advances

/-- A reader of expressions that advances, and does not begin with an asterisk. -/
structure Reads (mode : Mode) (read : Reader Regex) : Prop where
  advances : ∀ {s s' r}, Calm mode s → read s = .ok (r, s') → Advances mode s s'
  star : ∀ {s x}, s.rest.head? = some '*' → read s ≠ .ok x

/-! ## Atoms -/

/-- Behind what is ignored nothing is ignored. -/
theorem skip_idem (h : s.skip = .ok s') :
    skipIgnored s'.flags.extended .outside s'.rest = some s'.rest := by
  obtain ⟨u, ignored, rfl⟩ := Option.map_eq_some_iff.mp (skip_eq_ok.mp h)
  exact skipIgnored_idem ignored

theorem readEscaped_moves {t : Text} {r : Regex} (rest : s.rest = '\\' :: t)
    (h : readEscaped { s with rest := t } = .ok (r, s')) : Moves mode s s' := by
  obtain ⟨⟨e, u⟩, escape, h⟩ := bind_eq_ok.mp h
  obtain ⟨c, w, split, inert, -⟩ := readEscape_ok escape
  have moves : Moves mode s { s with rest := u } := by
    refine ⟨rfl, rfl, ?_, ?_, fun _ => ?_⟩
    · rw [rest, show t = c :: (w ++ u) from split]
      exact .escape c inert (.done u)
    · rw [rest, show t = c :: (w ++ u) from split]
      exact .escape c inert s.flags u
    · rw [rest, show t = c :: (w ++ u) from split]
      exact .of_append (.escape c inert) u
  cases e with
  | char =>
    cases h
    exact moves
  | set =>
    cases h
    exact moves
  | expr =>
    cases h
    exact moves
  | backref name =>
    obtain ⟨rfl, -⟩ := reference_eq_ok h
    exact moves

theorem readClass_moves {t : Text} {r : Regex} (rest : s.rest = '[' :: t)
    (h : readClass { s with rest := t } = .ok (r, s')) : Moves mode s s' := by
  obtain ⟨flags, opened, ⟨x, split, through, plain⟩, -⟩ := readClass_ok h
  refine ⟨flags, opened, ?_, ?_, fun _ => ?_⟩
  · rw [rest, show t = x ++ s'.rest from split]
    exact .bracket through plain (.done _)
  · rw [rest, show t = x ++ s'.rest from split]
    exact .bracket through s.flags s'.rest
  · rw [rest, show t = x ++ s'.rest from split]
    exact .of_append (.through (c := '[') (by decide) (by decide) through) s'.rest

/-! ## Groups -/

theorem Calm.with_opened (calm : Calm mode s) (opened : List (GroupKind × Text)) :
    Calm mode { s with opened := opened } := by
  cases mode <;> exact calm

theorem Calm.with_flags {f : Flags} (calm : Calm mode s) (same : mode = .tame → f = s.flags) :
    Calm mode { s with flags := f } := by
  cases mode with
  | any => trivial
  | hashFree => exact calm
  | tame => exact ⟨by rw [same rfl, calm.1], calm.2⟩

/-- What the reader of a group does behind its beginning: nothing if the group is complete, else it
reads a body up to a closing parenthesis. -/
theorem readGroup_behind {body : Reader Regex} {head : GroupHead} {r : Regex}
    (h : readGroup body head s = .ok (r, s')) :
    (head.isComplete = true ∧
      ∃ f, (∀ outer, Place.enter ⟨s.flags, outer, .outside⟩ head = ⟨f, outer, .outside⟩) ∧
        ((∀ g, head ≠ .flags g) → f = s.flags) ∧ s' = { s with flags := f }) ∨
    head.isComplete = false ∧
      ∃ s₁ r', body { s with flags := head.inner s.flags } = .ok (r', s₁) ∧
        s₁.rest = ')' :: s'.rest ∧
        s' = { s₁ with rest := s'.rest, flags := (head.restored s.flags).getD s₁.flags } := by
  rcases readGroup_eq_ok h with ⟨f, rfl, -, rfl⟩ | ⟨name, rfl, h⟩ |
    ⟨incomplete, r', s₂, inner, -, rfl⟩
  · exact .inl ⟨rfl, f, fun _ => rfl, fun other => absurd rfl (other f), rfl⟩
  · obtain ⟨rfl, -⟩ := reference_eq_ok h
    exact .inl ⟨rfl, s'.flags, fun _ => rfl, fun _ => rfl, rfl⟩
  · obtain ⟨s₁, read, rest, same⟩ := enclosed_eq_ok.mp inner
    refine .inr ⟨incomplete, s₁, r', read, rest, ?_⟩
    rw [same]

/-- What is ignored stands at the front of a text. -/
theorem isVeiled_of_skipIgnored {extended : Bool} {t u : Text}
    (h : skipIgnored extended .outside t = some u) : u = t ∨ isVeiled t = true := by
  rw [skipIgnored.eq_def] at h
  split at h
  next => exact .inr rfl
  next =>
    cases h
    exact .inl rfl
  next c t notComment _ =>
    have first : isVeiled (c :: t) = [' ', '\t', '\r', '\n', '#'].contains c := by
      rw [isVeiled]
      exact fun v same => notComment v same
    split at h
    next blank =>
      right
      rw [first]
      have blank := List.contains_iff_mem.mp (Bool.and_eq_true_iff.mp blank).2
      exact List.contains_iff_mem.mpr (List.mem_append_left ['#'] blank)
    split at h
    next mark =>
      obtain rfl : c = '#' := by simpa using (Bool.and_eq_true_iff.mp mark).2
      exact .inr first
    next =>
      cases h
      exact .inl rfl
  all_goals contradiction

/-- Behind what is ignored a group is understood, unless it captures and an asterisk follows. -/
theorem understood_of_read {extended : Bool} {f : Flags} {t u v : Text} {head : GroupHead}
    (ignored : skipIgnored extended .outside t = some v)
    (beginning : GroupHead.read f v = .ok (head, u))
    (star : head = .capturing → u.head? ≠ some '*') : Understood (head.kind, '(' :: t) := by
  rcases isVeiled_of_skipIgnored ignored with rfl | veiled
  · refine .inl (read_understood beginning fun mark => ?_)
    rcases read_local beginning with ⟨capturing, rfl, -⟩ | ⟨x, rfl, -⟩
    · exact star capturing mark
    · cases mark
  · exact .inr veiled

/-- The beginning of a group opens and closes nothing, but leaves the parenthesis that closes a
complete group. -/
theorem passes_of_read {f : Flags} {t u : Text} {head : GroupHead}
    (beginning : GroupHead.read f t = .ok (head, u)) :
    Lex.Passes t (if head.isComplete then ')' :: u else u) := by
  obtain ⟨x, inert, split⟩ := read_takes beginning
  rw [split]
  exact .of_append (.inert inert) _

/-- Inside a parenthesis nothing is less tame than outside. -/
theorem Calm.inside {t : Text} (rest : s.rest = '(' :: t) (calm : Calm mode s) :
    Calm mode { s with rest := t } := by
  cases mode with
  | any => trivial
  | hashFree =>
    have free : HashFree ('(' :: t) := by
      rw [← rest]
      exact calm
    exact HashFree.of_append (s := ['(']) rfl free
  | tame =>
    refine ⟨calm.1, fun w mem => calm.2 w ?_⟩
    rw [rest, openings_group]
    exact List.mem_cons_of_mem _ mem

/-- The beginning of a group in a calm text. -/
theorem Calm.head {t u : Text} {head : GroupHead} (rest : s.rest = '(' :: t)
    (calm : Calm mode s) (skipped : Reading.skip { s with rest := t } = .ok s')
    (beginning : GroupHead.read s'.flags s'.rest = .ok (head, u))
    (opened : List (GroupKind × Text)) :
    Calm mode { s' with rest := u, opened := opened } ∧
      (mode = .tame → (∀ g, head ≠ .flags g) ∧ ∀ g, head = .scoped g → g = s'.flags) := by
  have calm₀ := calm.inside rest
  have calm₁ := (skip_moves calm₀ skipped).calm calm₀
  constructor
  · have behind : Calm mode { s' with rest := u } :=
      calm₁.of_taken (fun _ => rfl) (read_taken beginning _)
    exact behind.with_opened opened
  · rintro rfl
    have same : s' = { s with rest := t } := by
      have := skip_eq_ok.mp skipped
      rw [calm₀.skip?] at this
      exact (Option.some.inj this).symm
    have blanks : s'.flags.extended = false := by
      rw [same]
      exact calm.1
    refine read_tame blanks beginning (calm.2 _ ?_)
    rw [rest, openings_group, same]
    exact List.mem_cons_self

theorem group?_advances {body : Option (Reader Regex)} (reads : ∀ b ∈ body, Reads mode b)
    {t : Text} (rest : s.rest = '(' :: t)
    (first : skipIgnored s.flags.extended .outside ('(' :: t) = some ('(' :: t)) {r : Regex}
    (calm : Calm mode s) (h : group? body ('(' :: t) { s with rest := t } = .ok (r, s')) :
    Advances mode s s' := by
  unfold group? at h
  cases body with
  | none => cases h
  | some body =>
  have reads := reads body rfl
  obtain ⟨s₁, skipped, h⟩ := bind_eq_ok.mp h
  obtain ⟨⟨head, u⟩, beginning, h⟩ := bind_eq_ok.mp h
  obtain ⟨calm₂, tame⟩ := calm.head rest skipped beginning ((head.kind, '(' :: t) :: s₁.opened)
  have moves := skip_moves (calm.inside rest) skipped
  have taken := moves.taken.trans (read_taken beginning _)
  obtain ⟨v, ignored, same⟩ := Option.map_eq_some_iff.mp (skip_eq_ok.mp skipped)
  obtain rfl : s₁ = { s with rest := v } := same.symm
  have start (plain : mode.comments = false) :
      Lex.Passes t (if head.isComplete then ')' :: u else u) :=
    (moves.passes plain).trans (passes_of_read beginning)
  obtain ⟨complete, f, enter, same, rfl⟩ | ⟨incomplete, s₂, r', read, close, final⟩ :=
    readGroup_behind (s := ⟨u, s.flags, (head.kind, '(' :: t) :: s.opened⟩) h
  · have named : head ≠ .capturing := by
      rintro rfl
      cases complete
    have whole := Clears.complete first ignored beginning named enter
    rw [← rest] at whole
    refine ⟨fun eq => same (tame eq).1, fun plain => ?_, [(head.kind, '(' :: t)], rfl, ?_, ?_,
      whole⟩
    · have start := start plain
      rw [if_pos complete] at start
      rw [rest]
      exact .group start
    · rw [rest]
      exact .group taken
    · intro e mem
      rw [List.mem_singleton.mp mem]
      exact understood_of_read ignored beginning fun eq => absurd eq named
  · have advances :=
      reads.advances (calm₂.with_flags fun eq => GroupHead.inner_eq (tame eq).2) read
    have star : u.head? ≠ some '*' := fun mark => reads.star mark read
    obtain ⟨new, opened, inner, understood', clears⟩ := advances.groups
    rw [close] at inner clears
    have whole :=
      Clears.group first ignored beginning star (Place.enter_open incomplete s.flags) clears
    rw [← rest] at whole
    rw [final]
    refine ⟨fun eq => ?_, fun plain => ?_, (head.kind, '(' :: t) :: new, ?_, ?_, ?_, whole⟩
    · dsimp only
      rw [advances.flags eq]
      exact head.getD_restored s.flags
    · have start := start plain
      rw [incomplete] at start
      have inside : Lex.Passes u (')' :: s'.rest) := by
        rw [← close]
        exact advances.passes plain
      rw [rest]
      exact .group (start.trans inside)
    · simp only [opened, List.reverse_cons, List.append_assoc]
      rfl
    · have behind := inner.trans (.char (by decide) (by decide) (by decide) (.done s'.rest))
      rw [List.append_nil] at behind
      rw [rest]
      exact .group (taken.trans behind)
    · have understood := understood_of_read ignored beginning fun _ => star
      exact List.forall_mem_cons.mpr ⟨understood, understood'⟩

/-! ## Expressions -/

theorem readAtom_advances {body : Option (Reader Regex)} (reads : ∀ b ∈ body, Reads mode b)
    {r : Regex} (calm : Calm mode s) (h : readAtom body s = .ok (r, s')) :
    Advances mode s s' := by
  obtain ⟨s₁, skipped, atom⟩ := readAtom_eq_ok h
  have first := skip_moves calm skipped
  have calm := first.calm calm
  have plain := skip_idem skipped
  refine first.advances.trans ?_
  cases atom with
  | nothing => exact .refl _
  | char rest escape bracket group close single =>
    rw [rest] at plain
    exact (Moves.char rest plain escape bracket group close).advances
  | group rest read =>
    rw [rest] at plain
    exact group?_advances reads rest plain calm read
  | escape rest read => exact (readEscaped_moves rest read).advances
  | bracket rest read => exact (readClass_moves rest read).advances

theorem readPiece_advances {body : Option (Reader Regex)} (reads : ∀ b ∈ body, Reads mode b)
    {r : Regex} (calm : Calm mode s) (h : readPiece body s = .ok (r, s')) :
    Advances mode s s' := by
  obtain ⟨⟨r', s₁⟩, atom, h⟩ := bind_eq_ok.mp h
  have first := readAtom_advances reads calm atom
  exact first.trans (quantified_moves (first.calm calm) h).advances

theorem readBranches_advances {body : Option (Reader Regex)}
    (reads : ∀ b ∈ body, Reads mode b) {branches : List (List Regex)}
    (calm : Calm mode s) (h : readBranches body s = .ok (branches, s')) :
    Advances mode s s' := by
  fun_induction readBranches body s generalizing branches s' with
  | case1 => cases h
  | case2 => cases h
  | case3 s r s₁ piece _ last later ih =>
    cases h
    have first := readPiece_advances reads calm piece
    exact first.trans (ih (first.calm calm) later)
  | case4 s r s₁ piece _ rs branches' last later ih =>
    cases h
    have first := readPiece_advances reads calm piece
    exact first.trans (ih (first.calm calm) later)
  | case5 => cases h
  | case6 s r s₁ piece _ t rest branches' last later ih =>
    cases h
    have bar : Moves mode s { s with rest := t } :=
      .mark rest (by decide) (by decide)
    exact bar.advances.trans (ih (bar.calm calm) later)
  | case7 s =>
    cases h
    exact .refl s

/-- An asterisk repeats nothing. -/
theorem readBranches_star {body : Option (Reader Regex)} (star : s.rest.head? = some '*')
    {x : List (List Regex) × Reading} : readBranches body s ≠ .ok x := by
  obtain ⟨t, f, opened⟩ := s
  obtain ⟨t, rfl⟩ := List.head?_eq_some_iff.mp star
  have skip : Reading.skip ⟨'*' :: t, f, opened⟩ = .ok ⟨'*' :: t, f, opened⟩ := by
    simp [Reading.skip, Reading.skip?, skipIgnored]
  have atom : readAtom body ⟨'*' :: t, f, opened⟩ = .ok (empty, ⟨'*' :: t, f, opened⟩) := by
    simp only [readAtom, skip, ok_bind]
    rfl
  have piece : readPiece body ⟨'*' :: t, f, opened⟩ = .error .nothingToRepeat := by
    simp only [readPiece, atom, quantified, skip, ok_bind]
    rfl
  intro read
  rw [readBranches, piece] at read
  cases read

theorem reads_readExpression (mode : Mode) (depth : Nat) :
    Reads mode (readExpression depth) := by
  induction depth with
  | zero =>
    constructor
    · intro s s' r calm h
      obtain ⟨⟨branches, s₁⟩, read, h⟩ := bind_eq_ok.mp h
      cases h
      exact readBranches_advances (fun b mem => by cases mem) calm read
    · intro s x star h
      obtain ⟨y, read, -⟩ := bind_eq_ok.mp h
      exact readBranches_star star read
  | succ depth ih =>
    constructor
    · intro s s' r calm h
      obtain ⟨⟨branches, s₁⟩, read, h⟩ := bind_eq_ok.mp h
      cases h
      refine readBranches_advances (fun b mem => ?_) calm read
      cases mem
      exact ih
    · intro s x star h
      obtain ⟨y, read, -⟩ := bind_eq_ok.mp h
      exact readBranches_star star read

end UrlRouting.Regex
