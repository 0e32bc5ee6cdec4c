import UrlRouting.Proofs.Regex.Advancing
import UrlRouting.Proofs.Regex.Unnumbered

/-!
# Reading in front of a closing parenthesis

A text that is read by itself is compared with the same text as the body of a group. `Follows`
relates the states of both readers: in front of the other stands the closing parenthesis and what
comes after it, or both have come to their end in a line comment.

The readers of blanks and quantifiers keep up with each other. Only where a brace is followed by a
comment that is not closed may they part; then the text by itself is `Doomed`.
-/

namespace UrlRouting.Regex

/-! ## States side by side -/

/-- The second state is the first one with `)` and the text `k` behind it, after groups `base`,
unless both are at their end. -/
structure Follows (k : Text) (base : List GroupKind) (s t : Reading) : Prop where
  flags : t.flags = s.flags
  groups : t.groups = s.groups ++ base
  rest : t.rest = s.rest ++ ')' :: k ∨ s.rest = [] ∧ t.rest = []

namespace Follows

variable {k : Text} {base : List GroupKind} {s t : Reading}

/-- Where something is left, it is the same on both sides. -/
theorem rest_cons (f : Follows k base s t) {c : Char} {u : Text} (rest : s.rest = c :: u) :
    t.rest = c :: u ++ ')' :: k := by
  rcases f.rest with more | ⟨none, -⟩
  · rw [more, rest]
  · rw [rest] at none
    cases none

/-- The states after the same text has been taken. -/
theorem advance (f : Follows k base s t) (u : Text) :
    Follows k base { s with rest := u } { t with rest := u ++ ')' :: k } :=
  ⟨f.flags, f.groups, .inl rfl⟩

end Follows

/-! ## Blanks and mode -/

/-- No line comment goes on behind what is left. -/
def Reading.Ended (s : Reading) : Prop :=
  ∃ outer, Place.openEnded ⟨s.flags, outer, .outside⟩ s.rest = false

theorem Reading.Ended.of_clears {s s' : Reading} {new : List GroupKind} (ended : s.Ended)
    (clears : Clears s.flags s.rest new s'.flags s'.rest) : s'.Ended := by
  obtain ⟨outer, ends⟩ := ended
  obtain ⟨w, reaches, -⟩ := clears
  exact ⟨outer, (reaches outer).not_openEnded ends⟩

/-- What is left can be read in front of a closing parenthesis and the text `k`. It is calm, or no
line comment at its end goes on to an end of line in `k`. -/
structure Fits (mode : Mode) (k : Text) (s : Reading) : Prop where
  calm : Calm mode s
  ended : mode = .any → '\n' ∈ k → s.Ended

theorem Fits.of_clears {mode : Mode} {k : Text} {s s' : Reading} {new : List GroupKind}
    (fits : Fits mode k s) (calm : Calm mode s')
    (clears : Clears s.flags s.rest new s'.flags s'.rest) : Fits mode k s' :=
  ⟨calm, fun any line => (fits.ended any line).of_clears clears⟩

theorem Moves.fits {mode : Mode} {k : Text} {s s' : Reading} (moves : Moves mode s s')
    (fits : Fits mode k s) : Fits mode k s' := by
  have clears : Clears s.flags s.rest [] s'.flags s'.rest := by
    rw [moves.flags]
    exact moves.clears
  exact fits.of_clears (moves.calm fits.calm) clears

theorem Advances.fits {mode : Mode} {k : Text} {s s' : Reading} (advances : Advances mode s s')
    (fits : Fits mode k s) : Fits mode k s' := by
  obtain ⟨new, -, -, -, clears⟩ := advances.groups
  exact fits.of_clears (advances.calm fits.calm) clears

/-- Without number signs no line comment goes on behind the text. -/
theorem skipIgnored_append_hashFree {extended : Bool} {t u : Text} (free : HashFree t)
    (h : skipIgnored extended .outside t = some u) (k : Text) :
    skipIgnored extended .outside (t ++ ')' :: k) = some (u ++ ')' :: k) := by
  induction t generalizing u with
  | nil =>
    cases h
    simp [skipIgnored]
  | cons c t ih =>
    have notComment : ∀ v, c :: t ≠ '(' :: '?' :: '#' :: v := fun v => free.no_comment
    have notComment' := not_comment_append notComment k
    rw [skipIgnored.eq_3 _ _ _ fun v eq eq' => notComment v (by rw [eq, eq'])] at h
    rw [List.cons_append,
      skipIgnored.eq_3 _ _ _ fun v eq eq' => notComment' v (by rw [List.cons_append, eq, eq'])]
    split at h
    next blank =>
      obtain ⟨escape, bracket, -⟩ := inert_ne (isInert_of_isIgnored blank)
      rw [if_pos blank]
      exact ih (HashFree.of_append (Lex.closed_singleton escape bracket) free) h
    next notBlank =>
      rw [if_neg notBlank]
      split at h
      next mark =>
        have hash : c = '#' := by simpa using (Bool.and_eq_true_iff.mp mark).2
        exact absurd hash free.ne_hash
      next notMark =>
        cases h
        exact if_neg notMark

theorem skip?_of {s : Reading} {u : Text}
    (h : skipIgnored s.flags.extended .outside s.rest = some u) :
    s.skip? = some { s with rest := u } := by
  rw [Reading.skip?, h]
  rfl

theorem skip?_idempotent {s s' : Reading} (h : s.skip? = some s') : s'.skip? = some s' := by
  obtain ⟨t, skipped, rfl⟩ := Option.map_eq_some_iff.mp h
  exact skip?_of (skipIgnored_idem skipped)

section

variable {mode : Mode} {k : Text} {base : List GroupKind} {s t : Reading}

/-- Where something is left behind what is ignored, the same is ignored in the other place. -/
theorem skip?_follows_of_ne_nil (f : Follows k base s t) (more : t.rest = s.rest ++ ')' :: k)
    {s' : Reading} (h : s.skip? = some s') (left : s'.rest ≠ []) :
    ∃ t', t.skip? = some t' ∧ Follows k base s' t' ∧ t'.rest = s'.rest ++ ')' :: k := by
  obtain ⟨u, skipped, rfl⟩ := Option.map_eq_some_iff.mp h
  have same := skipIgnored_append_of_not_swallows skipped
    (not_swallows_of_skipIgnored skipped left) k
  rw [← f.flags, ← more] at same
  exact ⟨_, skip?_of same, ⟨f.flags, f.groups, .inl rfl⟩, rfl⟩

theorem skip?_follows (fits : Fits mode k s) (f : Follows k base s t) {s' : Reading}
    (h : s.skip? = some s') : ∃ t', t.skip? = some t' ∧ Follows k base s' t' := by
  have calm := fits.calm
  rcases f.rest with more | ⟨none, none'⟩
  · cases mode with
    | tame =>
      rw [calm.skip?] at h
      cases h
      refine ⟨t, skip?_of ?_, f⟩
      rw [f.flags, calm.1, more]
      exact skipIgnored_plain (not_comment_append calm.no_comment k)
    | hashFree =>
      obtain ⟨u, skipped, rfl⟩ := Option.map_eq_some_iff.mp h
      rw [← f.flags] at skipped
      have same := skipIgnored_append_hashFree calm skipped k
      rw [← more] at same
      exact ⟨_, skip?_of same, f.flags, f.groups, .inl rfl⟩
    | any =>
      obtain ⟨u, skipped, rfl⟩ := Option.map_eq_some_iff.mp h
      have ways : skipIgnored s.flags.extended .outside t.rest = some (u ++ ')' :: k) ∨
          u = [] ∧ skipIgnored s.flags.extended .outside t.rest = some [] := by
        rw [more]
        by_cases line : '\n' ∈ k
        · obtain ⟨outer, ends⟩ := fits.ended rfl line
          exact .inl (skipIgnored_append_of_not_swallows skipped (Place.not_swallows ends) k)
        · exact (skipIgnored_append skipped).imp (· k) fun lost => ⟨lost.1, lost.2 k line⟩
      rw [← f.flags] at ways
      rcases ways with same | ⟨rfl, swallowed⟩
      · exact ⟨_, skip?_of same, f.flags, f.groups, .inl rfl⟩
      · exact ⟨_, skip?_of swallowed, f.flags, f.groups, .inr ⟨rfl, rfl⟩⟩
  · have nothing : ∀ {r : Reading}, r.rest = [] → r.skip? = some { r with rest := [] } := by
      intro r rest
      refine skip?_of ?_
      rw [rest]
      rfl
    rw [nothing none] at h
    cases h
    exact ⟨_, nothing none', f.flags, f.groups, .inr ⟨rfl, rfl⟩⟩

theorem skip_follows (fits : Fits mode k s) (f : Follows k base s t) {s' : Reading}
    (h : s.skip = .ok s') : ∃ t', t.skip = .ok t' ∧ Follows k base s' t' := by
  obtain ⟨t', skipped, f'⟩ := skip?_follows fits f (skip_eq_ok.mp h)
  exact ⟨t', skip_eq_ok.mpr skipped, f'⟩

/-! ## Single characters and numbers -/

theorem take_follows {c : Char} (ne : c ≠ ')') (f : Follows k base s t) :
    (t.take c).1 = (s.take c).1 ∧ Follows k base (s.take c).2 (t.take c).2 := by
  unfold Reading.take
  cases rest : s.rest with
  | nil =>
    rcases f.rest with more | ⟨-, none'⟩
    · rw [more, rest]
      simpa only [List.nil_append, if_neg ne.symm, true_and] using f
    · rw [none']
      exact ⟨rfl, f⟩
  | cons d u =>
    rw [f.rest_cons rest]
    by_cases same : d = c
    · simpa only [List.cons_append, if_pos same, true_and] using f.advance u
    · simpa only [List.cons_append, if_neg same, true_and] using f

theorem takeNumber_follows (f : Follows k base s t) :
    takeNumber s = none ∧ takeNumber t = none ∨ ∃ n s' t', takeNumber s = some (n, s') ∧
      takeNumber t = some (n, t') ∧ Follows k base s' t' := by
  have close : Char.isDigit ')' = false := by decide
  rcases f.rest with more | ⟨none, none'⟩
  · simp only [takeNumber, more, takeWhile_append_cons close, dropWhile_append_cons close]
    split
    next => exact .inl ⟨rfl, rfl⟩
    next => exact .inr ⟨_, _, _, rfl, rfl, f.advance _⟩
  · exact .inl ⟨by simp [takeNumber, none], by simp [takeNumber, none']⟩

end

/-! ## Doomed texts -/

/-- Behind commas and digits stands a comment that is not closed. -/
inductive Doomed : Reading → Prop
  | unclosed {s : Reading} : s.skip? = none → Doomed s
  | char {s s' : Reading} {c : Char} {u : Text} :
    s.skip? = some s' → s'.rest = c :: u → c = ',' ∨ c.isDigit → Doomed { s' with rest := u } →
    Doomed s

theorem Doomed.of_skip {s s' : Reading} (h : s.skip? = some s') (doomed : Doomed s') :
    Doomed s := by
  have same := skip?_idempotent h
  cases doomed with
  | unclosed none =>
    rw [same] at none
    cases none
  | char skipped rest mark more =>
    rw [same] at skipped
    cases skipped
    exact .char h rest mark more

theorem skip?_mark {s : Reading} {c : Char} {u : Text} (rest : s.rest = c :: u)
    (mark : c = ',' ∨ c.isDigit) : s.skip? = some s := by
  have ne : ∀ d ∈ ['(', ' ', '\t', '\r', '\n', '#'], c ≠ d := by
    rintro d mem rfl
    rcases mark with rfl | digit
    · simp at mem
    · revert digit
      simp only [List.mem_cons, List.not_mem_nil, or_false] at mem
      rcases mem with rfl | rfl | rfl | rfl | rfl | rfl <;> decide
  refine skip?_of (u := s.rest) ?_
  have notComment : ∀ v, c = '(' → u = '?' :: '#' :: v → False :=
    fun v eq => absurd eq (ne '(' (by simp))
  rw [rest, skipIgnored.eq_3 _ _ _ notComment]
  simp [ne]

theorem Doomed.of_mark {s : Reading} {c : Char} {u : Text} (rest : s.rest = c :: u)
    (mark : c = ',' ∨ c.isDigit) (doomed : Doomed { s with rest := u }) : Doomed s :=
  .char (skip?_mark rest mark) rest mark doomed

theorem Doomed.of_digits {ds : Text} (digits : ∀ c ∈ ds, c.isDigit) {s : Reading}
    (doomed : Doomed s) : Doomed { s with rest := ds ++ s.rest } := by
  induction ds with
  | nil => exact doomed
  | cons d ds ih =>
    refine .of_mark rfl (.inr (digits d List.mem_cons_self)) ?_
    exact ih fun c mem => digits c (List.mem_cons_of_mem d mem)

/-! ## Bounds -/

/-- Two readers side by side: both fail, both succeed with related results, or the first fails on a
text that is doomed. -/
inductive Abreast {α β : Type} (R : α → β → Prop) (doom : Prop) : Option α → Option β → Prop
  | none : Abreast R doom none none
  | doomed (y : Option β) : doom → Abreast R doom none y
  | some {a : α} {b : β} : R a b → Abreast R doom (some a) (some b)

theorem Abreast.bind {α β γ δ : Type} {R : α → β → Prop} {S : γ → δ → Prop} {doom : Prop}
    {x : Option α} {y : Option β} {f : α → Option γ} {g : β → Option δ} (h : Abreast R doom x y)
    (next : ∀ {a b}, R a b → Abreast S doom (f a) (g b)) :
    Abreast S doom (x >>= f) (y >>= g) := by
  cases h with
  | none => exact .none
  | doomed y doom => exact .doomed _ doom
  | some related => exact next related

/-- States side by side in the middle of bounds. If what is left is doomed, so is the whole. -/
structure Beside (mode : Mode) (k : Text) (base : List GroupKind) (doom : Prop)
    (s t : Reading) : Prop where
  fits : Fits mode k s
  follows : Follows k base s t
  doomed : Doomed s → doom

section

variable {mode : Mode} {k : Text} {base : List GroupKind} {doom : Prop} {s t : Reading}

theorem skip?_abreast (h : Beside mode k base doom s t) :
    Abreast (Beside mode k base doom) doom s.skip? t.skip? := by
  cases skipped : s.skip? with
  | none => exact .doomed _ (h.doomed (.unclosed skipped))
  | some s' =>
    obtain ⟨t', skipped', f⟩ := skip?_follows h.fits h.follows skipped
    rw [skipped']
    refine .some ⟨(skip?_moves h.fits.calm skipped).fits h.fits, f, fun doomed => ?_⟩
    exact h.doomed (doomed.of_skip skipped)

theorem takeNumber_beside (h : Beside mode k base doom s t) :
    takeNumber s = none ∧ takeNumber t = none ∨ ∃ n s' t', takeNumber s = some (n, s') ∧
      takeNumber t = some (n, t') ∧ Beside mode k base doom s' t' := by
  rcases takeNumber_follows h.follows with none | ⟨n, s', t', number, number', f⟩
  · exact .inl none
  · refine .inr ⟨n, s', t', number, number', (takeNumber_moves number).fits h.fits, f, ?_⟩
    intro doomed
    apply h.doomed
    unfold takeNumber at number
    dsimp only at number
    split at number
    next => cases number
    cases number
    have digits : ∀ c ∈ s.rest.takeWhile Char.isDigit, c.isDigit :=
      List.all_eq_true.mp List.all_takeWhile
    have whole := doomed.of_digits digits
    rwa [List.takeWhile_append_dropWhile] at whole

theorem takeLeast_abreast (h : Beside mode k base doom s t) :
    Abreast (fun x y => x.1 = y.1 ∧ Beside mode k base doom x.2 y.2) doom (takeLeast s)
      (takeLeast t) := by
  have same : (t.rest.head? = some ',') = (s.rest.head? = some ',') := by
    cases rest : s.rest with
    | nil => rcases h.follows.rest with more | ⟨-, none'⟩ <;> simp [*]
    | cons c u => rw [h.follows.rest_cons rest]; rfl
  unfold takeLeast
  simp only [same]
  split
  next => exact .some ⟨rfl, h⟩
  next =>
    rcases takeNumber_beside h with ⟨none, none'⟩ | ⟨n, s', t', number, number', beside⟩
    · rw [none, none']
      exact .none
    · rw [number, number']
      exact .some ⟨rfl, beside⟩

theorem takeMost_abreast {least : Nat}
    (h : Beside mode k base doom s t) :
    Abreast (fun x y => x.1 = y.1 ∧ Beside mode k base doom x.2 y.2) doom (takeMost least s)
      (takeMost least t) := by
  rcases comma : s.take ',' with ⟨found, s₁⟩
  rcases comma' : t.take ',' with ⟨found', t₁⟩
  obtain ⟨same, f⟩ := take_follows (c := ',') (by decide) h.follows
  rw [comma, comma'] at same f
  have beside : Beside mode k base doom s₁ t₁ := by
    refine ⟨(take_moves (by decide) (by decide) comma).fits h.fits, f, fun doomed => h.doomed ?_⟩
    unfold Reading.take at comma
    split at comma
    next c u rest =>
      split at comma
      next mark =>
        cases comma
        exact .of_mark rest (.inl mark) doomed
      next =>
        cases comma
        exact doomed
    next =>
      cases comma
      exact doomed
  obtain rfl : found' = found := same
  unfold takeMost
  rw [comma, comma']
  cases found' with
  | false => exact .some ⟨rfl, beside⟩
  | true =>
    refine (skip?_abreast beside).bind fun {s₂ t₂} beside₂ => ?_
    rcases takeNumber_beside beside₂ with ⟨none, none'⟩ | ⟨n, s', t', number, number', beside⟩
    · rw [none, none']
      exact .some ⟨rfl, beside₂⟩
    · rw [number, number']
      exact .some ⟨rfl, beside⟩

theorem takeBounds_abreast (h : Beside mode k base doom s t) :
    Abreast (fun x y => x.1 = y.1 ∧ Follows k base x.2 y.2) doom (takeBounds s)
      (takeBounds t) := by
  refine (skip?_abreast h).bind fun beside₁ => ?_
  refine (takeLeast_abreast beside₁).bind fun {x y} least => ?_
  refine (skip?_abreast least.2).bind fun beside₃ => ?_
  rw [least.1]
  refine (takeMost_abreast beside₃).bind fun {x' y'} most => ?_
  refine (skip?_abreast most.2).bind fun {s₅ t₅} beside₅ => ?_
  rw [most.1]
  rcases close : s₅.take '\x7d' with ⟨found, s₆⟩
  rcases close' : t₅.take '\x7d' with ⟨found', t₆⟩
  obtain ⟨same, f⟩ := take_follows (c := '\x7d') (by decide) beside₅.follows
  rw [close, close'] at same f
  obtain rfl : found' = found := same
  cases found' with
  | false => exact .none
  | true => exact .some ⟨rfl, f⟩

end

/-! ## Quantifiers -/

/-- A brace begins no bounds, because of a comment behind it that is not closed. -/
def Unbounded (s : Reading) : Prop := ∃ u, s.rest = '\x7b' :: u ∧ Doomed { s with rest := u }

section

variable {mode : Mode} {k : Text} {base : List GroupKind} {s t : Reading}

theorem takeQuantity_abreast (fits : Fits mode k s) (f : Follows k base s t) :
    Abreast (fun x y => x.1 = y.1 ∧ Follows k base x.2 y.2) (Unbounded s) (takeQuantity s)
      (takeQuantity t) := by
  cases rest : s.rest with
  | nil =>
    have first : takeQuantity s = none := by simp [takeQuantity, rest]
    have second : takeQuantity t = none := by
      rcases f.rest with more | ⟨-, nothing⟩
      · simp [takeQuantity, more, rest]
      · simp [takeQuantity, nothing]
    rw [first, second]
    exact .none
  | cons c u =>
    have rest' := f.rest_cons rest
    by_cases brace : c = '\x7b'
    · subst brace
      have moves : Moves mode s { s with rest := u } :=
        .mark rest (by decide) (by decide)
      have bounds : takeQuantity s = takeBounds { s with rest := u } := by simp [takeQuantity, rest]
      have bounds' : takeQuantity t = takeBounds { t with rest := u ++ ')' :: k } := by
        simp [takeQuantity, rest']
      rw [bounds, bounds']
      exact takeBounds_abreast
        ⟨moves.fits fits, f.advance u, fun doomed => ⟨u, rest, doomed⟩⟩
    · unfold takeQuantity
      rw [rest, rest', List.cons_append]
      split
      next eq =>
        cases eq
        exact .some ⟨rfl, f.advance _⟩
      next eq =>
        cases eq
        exact .some ⟨rfl, f.advance _⟩
      next eq =>
        cases eq
        exact .some ⟨rfl, f.advance _⟩
      next eq =>
        cases eq
        exact absurd rfl brace
      next once star plus _ =>
        split
        next eq =>
          cases eq
          exact absurd rfl (once u)
        next eq =>
          cases eq
          exact absurd rfl (star u)
        next eq =>
          cases eq
          exact absurd rfl (plus u)
        next eq =>
          cases eq
          exact absurd rfl brace
        next => exact .none

theorem repeated_eq {s s₁ : Reading} (skipped : s.skip = .ok s₁) (r : Regex) (q : Quantity) :
    repeated r q s = .ok
      (let greedy := (s₁.take '?').1 == ((s₁.take '?').2.take '+').2.flags.swapGreed
        let r := loop q.least q.most greedy r
        if ((s₁.take '?').2.take '+').1 then atomic r else r,
        ((s₁.take '?').2.take '+').2) := by
  rw [repeated, skipped]
  rfl

theorem repeated_follows {q : Quantity} {r r' a : Regex}
    (same : r'.unnumbered = r.unnumbered) (fits : Fits mode k s) (f : Follows k base s t)
    {s' : Reading} (h : repeated r q s = .ok (a, s')) :
    ∃ a' t', repeated r' q t = .ok (a', t') ∧ a'.unnumbered = a.unnumbered ∧
      Follows k base s' t' := by
  obtain ⟨s₁, skipped, -⟩ := bind_eq_ok.mp h
  obtain ⟨t₁, skipped', f₁⟩ := skip_follows fits f skipped
  obtain ⟨lazy, f₂⟩ := take_follows (c := '?') (by decide) f₁
  obtain ⟨possessive, f₃⟩ := take_follows (c := '+') (by decide) f₂
  rw [repeated_eq skipped] at h
  cases h
  refine ⟨_, _, repeated_eq skipped' r' q, ?_, f₃⟩
  rw [lazy, possessive, f₃.flags]
  split <;> simp [unnumbered, same]

theorem quantified_follows {r r' a : Regex}
    (same : r'.unnumbered = r.unnumbered) (fits : Fits mode k s) (f : Follows k base s t)
    {s' : Reading} (h : quantified r s = .ok (a, s')) :
    Unbounded s' ∨ ∃ a' t', quantified r' t = .ok (a', t') ∧ a'.unnumbered = a.unnumbered ∧
      Follows k base s' t' := by
  obtain ⟨s₁, skipped, h⟩ := bind_eq_ok.mp h
  obtain ⟨t₁, skipped', f₁⟩ := skip_follows fits f skipped
  have fits₁ := (skip_moves fits.calm skipped).fits fits
  have abreast := takeQuantity_abreast fits₁ f₁
  have repeatable : r'.repeatable = r.repeatable := by
    rw [← repeatable_unnumbered r', same, repeatable_unnumbered]
  rw [quantified, skipped', ok_bind]
  cases quantity : takeQuantity s₁ with
  | none =>
    rw [quantity] at h abreast
    cases h
    generalize takeQuantity t₁ = y at abreast ⊢
    cases abreast with
    | none => exact .inr ⟨_, _, rfl, same, f₁⟩
    | doomed _ doom => exact .inl doom
  | some x =>
    obtain ⟨q, s₂⟩ := x
    rw [quantity] at h abreast
    have moves := takeQuantity_moves fits₁.calm quantity
    generalize takeQuantity t₁ = y at abreast ⊢
    cases abreast with
    | some related =>
      rename_i y
      obtain ⟨q', t₂⟩ := y
      obtain ⟨rfl, f₂⟩ := related
      dsimp only at h ⊢
      rw [repeatable]
      split at h
      next => cases h
      next proper =>
        split at h
        next => cases h
        next valid =>
          rw [if_neg proper, if_neg valid]
          exact .inr (repeated_follows same (moves.fits fits₁) f₂ h)

end

end UrlRouting.Regex
