import UrlRouting.Proofs.Regex.Bracket
import UrlRouting.Proofs.Regex.LineComments
import UrlRouting.Proofs.Regex.Nesting

/-!
# Blanks, comments and quantifiers as tokens

`Moves` relates the states of a reader that opens no groups and sets no flags. Comments and
quantifiers are read in this way.

A text is followed in one of three modes. Nothing need be known of it; or it has no number sign, so
that no comment can begin, whatever the flags; or it is tame, so that neither a comment can begin
nor a flag be set. `Calm` says that a state is as the mode asks.
-/

namespace UrlRouting.Regex

/-! ## Modes -/

/-- What is known of a text that is read. -/
inductive Mode
  | any
  | hashFree
  | tame
  deriving DecidableEq

/-- Whether comments may be among the tokens. -/
def Mode.comments : Mode → Bool
  | any => true
  | hashFree | tame => false

theorem Mode.comments_eq_false {mode : Mode} (known : mode ≠ .any) : mode.comments = false := by
  cases mode with
  | any => exact absurd rfl known
  | hashFree => rfl
  | tame => rfl

/-- The remaining text is as the mode asks. -/
def Calm : Mode → Reading → Prop
  | .any, _ => True
  | .hashFree, s => HashFree s.rest
  | .tame, s => s.flags.extended = false ∧ ∀ w ∈ openings s.rest, isTame w

theorem Calm.any (s : Reading) : Calm .any s := trivial

/-- The remaining text is not `(?#`. -/
theorem Calm.no_comment {s : Reading} (calm : Calm .tame s) (t : Text) :
    s.rest ≠ '(' :: '?' :: '#' :: t := by
  intro rest
  have tame := calm.2 ('(' :: '?' :: '#' :: t) (by rw [rest]; simp)
  cases tame

/-- A text without number signs does not begin a comment. -/
theorem HashFree.no_comment {t u : Text} (free : HashFree t) : t ≠ '(' :: '?' :: '#' :: u := by
  rintro rfl
  have mark : HashFree ('#' :: u) := HashFree.of_append (s := ['(', '?']) rfl free
  exact absurd rfl mark.ne_hash

/-- What is left behind tokens is as calm as before, if a tame text leaves the flags as they are. -/
theorem Calm.of_taken {mode : Mode} {s s' : Reading} {ws : List Text} (calm : Calm mode s)
    (flags : mode = .tame → s'.flags = s.flags) (taken : Taken mode.comments s.rest ws s'.rest) :
    Calm mode s' := by
  cases mode with
  | any => trivial
  | hashFree =>
    obtain ⟨t, split, closed, -⟩ := taken.exists_closed (.inl rfl)
    have free : HashFree s.rest := calm
    rw [split] at free
    exact free.of_append closed
  | tame =>
    obtain ⟨plain, tame⟩ := calm
    obtain ⟨-, -, -, groups⟩ := taken.exists_closed (.inl rfl)
    refine ⟨by rw [flags rfl, plain], fun w mem => tame w ?_⟩
    rw [groups]
    exact List.mem_append_right _ mem

/-! ## Moves -/

/-- A reader takes whole tokens that open no groups, and leaves the flags as they are. -/
structure Moves (mode : Mode) (s s' : Reading) : Prop where
  flags : s'.flags = s.flags
  opened : s'.opened = s.opened
  taken : Taken mode.comments s.rest [] s'.rest
  clears : Clears s.flags s.rest [] s.flags s'.rest
  passes : mode.comments = false → Lex.Passes s.rest s'.rest

namespace Moves

variable {mode : Mode} {s s' s'' : Reading}

theorem refl (s : Reading) : Moves mode s s := ⟨rfl, rfl, .done _, .refl _ _, fun _ => .refl _⟩

theorem trans (first : Moves mode s s') (second : Moves mode s' s'') :
    Moves mode s s'' := by
  refine ⟨second.flags.trans first.flags, second.opened.trans first.opened,
    first.taken.trans second.taken, first.clears.trans ?_,
    fun plain => (first.passes plain).trans (second.passes plain)⟩
  rw [← first.flags]
  exact second.clears

/-- Over a character that is a token by itself. -/
theorem char {c : Char} {t : Text} (rest : s.rest = c :: t)
    (first : skipIgnored s.flags.extended .outside (c :: t) = some (c :: t)) (escape : c ≠ '\\')
    (bracket : c ≠ '[') (group : c ≠ '(') (close : c ≠ ')') :
    Moves mode s { s with rest := t } := by
  refine ⟨rfl, rfl, ?_, ?_, fun _ => ?_⟩
  · rw [rest]
    exact .char escape bracket group (.done t)
  · rw [rest]
    exact .char first escape bracket group close
  · rw [rest]
    exact .of_append (.char escape bracket group close) t

/-- Over an inert character that is no blank. -/
theorem mark {c : Char} {t : Text} (rest : s.rest = c :: t) (inert : isInert c)
    (blank : c ∉ [' ', '\t', '\r', '\n']) : Moves mode s { s with rest := t } := by
  obtain ⟨escape, bracket, -, group, close, -⟩ := inert_ne inert
  refine char rest ?_ escape bracket group close
  rw [Clears.skipIgnored_cons_inert _ inert, if_neg (by simp_all)]

theorem calm (moves : Moves mode s s') (calm : Calm mode s) : Calm mode s' :=
  calm.of_taken (fun _ => moves.flags) moves.taken

end Moves

/-! ## Blanks and comments -/

/-- What is ignored from a place on, and what is left. -/
def Skips : Ignored → Text → Text → Prop
  | .outside, t, u => Taken true t [] u
  | .comment, t, u => ∃ s v, t = s ++ v ∧ CommentEnd s ∧ Taken true v [] u
  | .line, t, u =>
    (∃ s v, t = s ++ '\n' :: v ∧ '\n' ∉ s ∧ Taken true v [] u) ∨ '\n' ∉ t ∧ u = []

theorem skips_of_skipIgnored {extended : Bool} {place : Ignored} {t u : Text}
    (h : skipIgnored extended place t = some u) : Skips place t u := by
  fun_induction skipIgnored extended place t with
  | case1 t ih =>
    obtain ⟨s, v, rfl, inner, rest⟩ := ih h
    exact .comment rfl inner rest
  | case2 =>
    cases h
    exact .done _
  | case3 c t _ blank ih =>
    obtain ⟨escape, bracket, -, group, -⟩ := inert_ne (isInert_of_isIgnored blank)
    exact .char escape bracket group (ih h)
  | case4 c t _ _ mark ih =>
    obtain rfl : c = '#' := by simpa using (Bool.and_eq_true_iff.mp mark).2
    rcases ih h with ⟨s, v, rfl, inner, rest⟩ | ⟨inner, rfl⟩
    · exact .line rfl inner rest
    · exact .lastLine rfl inner
  | case5 c t _ _ _ =>
    cases h
    exact .done _
  | case6 c t ih =>
    obtain ⟨s, v, rfl, inner, rest⟩ := ih h
    exact ⟨'\\' :: c :: s, v, rfl, .escape c inner, rest⟩
  | case7 t ih => exact ⟨[')'], t, rfl, .close, ih h⟩
  | case8 c t notEscape _ ih =>
    obtain ⟨s, v, rfl, inner, rest⟩ := ih h
    refine ⟨c :: s, v, rfl, .char ?_ inner, rest⟩
    rintro rfl
    cases inner <;> exact notEscape _ _ rfl rfl
  | case9 => cases h
  | case10 t ih => exact .inl ⟨[], t, rfl, List.not_mem_nil, ih h⟩
  | case11 c t notEnd ih =>
    have ne : '\n' ≠ c := fun eq => notEnd eq.symm
    rcases ih h with ⟨s, v, rfl, inner, rest⟩ | ⟨inner, rfl⟩
    · exact .inl ⟨c :: s, v, rfl, by simp [ne, inner], rest⟩
    · exact .inr ⟨by simp [ne, inner], rfl⟩
  | case12 =>
    cases h
    exact .inr ⟨List.not_mem_nil, rfl⟩

/-- Outside of extended mode nothing but comments is ignored. -/
theorem skipIgnored_plain {t : Text} (h : ∀ u, t ≠ '(' :: '?' :: '#' :: u) :
    skipIgnored false .outside t = some t := by
  cases t with
  | nil => rfl
  | cons c t =>
    rw [skipIgnored.eq_def]
    split
    next eq => exact absurd eq (h _)
    next eq => cases eq
    next eq =>
      cases eq
      rfl
    all_goals contradiction

theorem Calm.skip? {s : Reading} (calm : Calm .tame s) : s.skip? = some s := by
  unfold Reading.skip?
  rw [calm.1, skipIgnored_plain calm.no_comment]
  rfl

/-- Without number signs only blanks are ignored. -/
theorem skipIgnored_hashFree {extended : Bool} {t u : Text} (free : HashFree t)
    (h : skipIgnored extended .outside t = some u) : ∃ s, t = s ++ u ∧ Inert s := by
  induction t generalizing u with
  | nil =>
    cases h
    exact ⟨[], rfl, .nil⟩
  | cons c t ih =>
    rw [skipIgnored.eq_3 _ _ _ fun u eq eq' => free.no_comment (by rw [eq, eq'])] at h
    split at h
    next blank =>
      obtain ⟨escape, bracket, -⟩ := inert_ne (isInert_of_isIgnored blank)
      have rest : HashFree t := HashFree.of_append (Lex.closed_singleton escape bracket) free
      obtain ⟨s, rfl, inert⟩ := ih rest h
      exact ⟨c :: s, rfl, .cons (isInert_of_isIgnored blank) inert⟩
    split at h
    next mark =>
      have hash : c = '#' := by simpa using (Bool.and_eq_true_iff.mp mark).2
      exact absurd hash free.ne_hash
    next =>
      cases h
      exact ⟨[], rfl, .nil⟩

theorem skip?_moves {mode : Mode} {s s' : Reading} (calm : Calm mode s)
    (h : s.skip? = some s') : Moves mode s s' := by
  cases mode with
  | any =>
    obtain ⟨t, skipped, rfl⟩ := Option.map_eq_some_iff.mp h
    exact ⟨rfl, rfl, skips_of_skipIgnored skipped, .skip skipped, nofun⟩
  | hashFree =>
    obtain ⟨t, skipped, rfl⟩ := Option.map_eq_some_iff.mp h
    obtain ⟨blanks, split, inert⟩ := skipIgnored_hashFree calm skipped
    refine ⟨rfl, rfl, ?_, .skip skipped, fun _ => ?_⟩
    · rw [split]
      exact .of_inert inert t
    · rw [split]
      exact .of_append (.inert inert) t
  | tame =>
    rw [calm.skip?] at h
    cases h
    exact .refl s

theorem skip_eq_ok {s s' : Reading} : s.skip = .ok s' ↔ s.skip? = some s' := by
  unfold Reading.skip
  cases s.skip? <;> simp

theorem skip_moves {mode : Mode} {s s' : Reading} (calm : Calm mode s)
    (h : s.skip = .ok s') : Moves mode s s' :=
  skip?_moves calm (skip_eq_ok.mp h)

/-! ## Quantifiers -/

theorem take_moves {mode : Mode} {s s' : Reading} {c : Char} {found : Bool}
    (inert : isInert c) (blank : c ∉ [' ', '\t', '\r', '\n']) (h : s.take c = (found, s')) :
    Moves mode s s' := by
  unfold Reading.take at h
  split at h
  next c' t rest =>
    split at h
    next same =>
      cases h
      cases same
      exact .mark rest inert blank
    next =>
      cases h
      exact .refl s
  next =>
    cases h
    exact .refl s

theorem takeNumber_moves {mode : Mode} {s s' : Reading} {n : Nat}
    (h : takeNumber s = some (n, s')) : Moves mode s s' := by
  unfold takeNumber at h
  dsimp only at h
  split at h
  next => cases h
  next =>
    cases h
    have digits : Inert (s.rest.takeWhile Char.isDigit) := fun c mem =>
      isInert_of_isDigit (List.all_eq_true.mp List.all_takeWhile c mem)
    have split := List.takeWhile_append_dropWhile (p := Char.isDigit) (l := s.rest)
    have taken : Taken mode.comments _ [] _ := .of_inert digits (s.rest.dropWhile Char.isDigit)
    have clears := Clears.of_inert digits s.flags (s.rest.dropWhile Char.isDigit)
    have passes := Lex.Passes.of_append (.inert digits) (s.rest.dropWhile Char.isDigit)
    rw [split] at taken clears passes
    exact ⟨rfl, rfl, taken, clears, fun _ => passes⟩

theorem takeLeast_moves {mode : Mode} {s s' : Reading} {n : Nat}
    (h : takeLeast s = some (n, s')) : Moves mode s s' := by
  unfold takeLeast at h
  split at h
  next =>
    cases h
    exact .refl s
  next => exact takeNumber_moves h

theorem takeMost_moves {mode : Mode} {s s' : Reading} {least : Nat} {most : Option Nat}
    (calm : Calm mode s) (h : takeMost least s = some (most, s')) : Moves mode s s' := by
  unfold takeMost at h
  split at h
  next s₁ comma =>
    obtain ⟨s₂, skipped, h⟩ := Option.bind_eq_some_iff.mp h
    have first : Moves mode s s₁ := take_moves (by decide) (by decide) comma
    have second := skip?_moves (first.calm calm) skipped
    split at h
    next number =>
      cases h
      exact (first.trans second).trans (takeNumber_moves number)
    next =>
      cases h
      exact first.trans second
  next s₁ comma =>
    cases h
    exact take_moves (by decide) (by decide) comma

theorem takeBounds_moves {mode : Mode} {s s' : Reading} {q : Quantity}
    (calm : Calm mode s) (h : takeBounds s = some (q, s')) : Moves mode s s' := by
  obtain ⟨s₁, skipped₁, h⟩ := Option.bind_eq_some_iff.mp h
  obtain ⟨⟨least, s₂⟩, lower, h⟩ := Option.bind_eq_some_iff.mp h
  obtain ⟨s₃, skipped₂, h⟩ := Option.bind_eq_some_iff.mp h
  obtain ⟨⟨most, s₄⟩, upper, h⟩ := Option.bind_eq_some_iff.mp h
  obtain ⟨s₅, skipped₃, h⟩ := Option.bind_eq_some_iff.mp h
  have before := (skip?_moves calm skipped₁).trans (takeLeast_moves lower)
  have middle := before.trans (skip?_moves (before.calm calm) skipped₂)
  have after := middle.trans (takeMost_moves (middle.calm calm) upper)
  have last := after.trans (skip?_moves (after.calm calm) skipped₃)
  split at h
  next close =>
    cases h
    exact last.trans (take_moves (by decide) (by decide) close)
  next => cases h

theorem takeQuantity_moves {mode : Mode} {s s' : Reading} {q : Quantity}
    (calm : Calm mode s) (h : takeQuantity s = some (q, s')) : Moves mode s s' := by
  unfold takeQuantity at h
  split at h
  next t rest =>
    cases h
    exact .mark rest (by decide) (by decide)
  next t rest =>
    cases h
    exact .mark rest (by decide) (by decide)
  next t rest =>
    cases h
    exact .mark rest (by decide) (by decide)
  next t rest =>
    have brace : Moves mode s { s with rest := t } :=
      .mark rest (by decide) (by decide)
    exact brace.trans (takeBounds_moves (brace.calm calm) h)
  next => cases h

theorem repeated_moves {mode : Mode} {s s' : Reading} {r r' : Regex} {q : Quantity}
    (calm : Calm mode s) (h : repeated r q s = .ok (r', s')) : Moves mode s s' := by
  obtain ⟨s₁, skipped, h⟩ := bind_eq_ok.mp h
  cases h
  have first := skip_moves calm skipped
  exact (first.trans (take_moves (by decide) (by decide) rfl)).trans
    (take_moves (by decide) (by decide) rfl)

theorem quantified_moves {mode : Mode} {s s' : Reading} {r r' : Regex}
    (calm : Calm mode s) (h : quantified r s = .ok (r', s')) : Moves mode s s' := by
  obtain ⟨s₁, skipped, h⟩ := bind_eq_ok.mp h
  have first := skip_moves calm skipped
  split at h
  next =>
    cases h
    exact first
  next q s₂ quantity =>
    split at h
    next => cases h
    split at h
    next => cases h
    have second := first.trans (takeQuantity_moves (first.calm calm) quantity)
    exact second.trans (repeated_moves (second.calm calm) h)

end UrlRouting.Regex
