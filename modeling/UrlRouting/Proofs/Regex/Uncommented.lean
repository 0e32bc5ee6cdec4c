import UrlRouting.Proofs.Regex.Heads

/-!
# Expressions without their comments

The reader of expressions takes comments for nothing, and in extended mode blanks and lines behind a
number sign, too. `uncommented` leaves these out. It goes from token to token and keeps track of the
flags: those in force, and those that the end of each open group restores.

`Clears` says that a part of an expression becomes a text with groups of known kinds. Readers take
such parts, so the groups that a reader opens are those which `kinds` finds in the text without
comments.
-/

namespace UrlRouting

open Regex

/-! ## Kinds of groups -/

namespace Constraint

/-- The kinds of the groups that begin in a text outside of escapes and classes. -/
def kinds (t : Text) : List GroupKind := (openings t).map fun w => classify w.tail

@[simp] theorem kinds_nil : kinds [] = [] := rfl

theorem kinds_cons {c : Char} (escape : c ≠ '\\') (bracket : c ≠ '[') (group : c ≠ '(') (t : Text) :
    kinds (c :: t) = kinds t := by
  rw [kinds, openings_cons escape bracket group]
  rfl

theorem kinds_group (t : Text) : kinds ('(' :: t) = classify t :: kinds t := by
  rw [kinds, openings_group]
  rfl

theorem kinds_escape (c : Char) (t : Text) : kinds ('\\' :: c :: t) = kinds t := by
  have skip := Taken.openings_escape (r := []) c Inert.nil t
  rw [List.nil_append] at skip
  rw [kinds, skip]
  rfl

theorem kinds_inert {s : Text} (inert : Inert s) (t : Text) : kinds (s ++ t) = kinds t := by
  induction s with
  | nil => rfl
  | cons c s ih =>
    obtain ⟨escape, bracket, -, group, -⟩ := inert_ne (inert c List.mem_cons_self)
    rw [List.cons_append, kinds_cons escape bracket group]
    exact ih fun d mem => inert d (List.mem_cons_of_mem c mem)

theorem kinds_bracket {s : Text} (through : Lex.opened.Through s .outside) (t : Text) :
    kinds ('[' :: (s ++ t)) = kinds t := by
  have rests : Lex.opened.starts (s ++ t) = Lex.outside.starts t := through.starts_append t
  rw [kinds, openings, Lex.starts_outside_cons, List.filter_cons_of_neg (by simp [opensGroup]),
    show Lex.outside.step '[' = .opened from rfl, rests]
  rfl

/-- Where nothing opens in a text in front of another, nothing opens in it in front of any. -/
theorem kinds_eq_of_taken {s t : Text} (taken : Taken false (s ++ t) [] t) (u : Text) :
    kinds (s ++ u) = kinds u := by
  obtain ⟨r, split, closed, groups⟩ := taken.exists_closed (.inl rfl)
  obtain rfl := List.append_cancel_right split
  have count := congrArg List.length groups
  rw [openings_append closed, List.length_append, List.length_map, List.nil_append] at count
  have none : openings s = [] := List.length_eq_zero_iff.mp (by omega)
  rw [kinds, openings_append closed, none]
  rfl

end Constraint

namespace Regex

open Constraint (kinds classify)

/-! ## Ignored text -/

theorem isInert_of_isIgnored {extended : Bool} {c : Char}
    (h : (extended && [' ', '\t', '\r', '\n'].contains c) = true) : isInert c := by
  have blank := (Bool.and_eq_true_iff.mp h).2
  exact isInert_of (p := [' ', '\t', '\r', '\n'].contains) (by decide) blank

/-- A blank is ignored in extended mode. -/
theorem skipIgnored_blank {extended : Bool} {c : Char}
    (h : (extended && [' ', '\t', '\r', '\n'].contains c) = true) (t : Text) :
    skipIgnored extended .outside (c :: t) = skipIgnored extended .outside t := by
  obtain ⟨-, -, -, group, -⟩ := inert_ne (isInert_of_isIgnored h)
  rw [skipIgnored.eq_3 _ _ _ fun u eq => absurd eq group, if_pos h]

theorem length_skipIgnored {extended : Bool} {place : Ignored} {t u : Text}
    (h : skipIgnored extended place t = some u) : u.length ≤ t.length := by
  fun_induction skipIgnored extended place t with
  | case1 t ih =>
    have := ih h
    simp only [List.length_cons]
    omega
  | case2 =>
    cases h
    exact Nat.le_refl _
  | case3 c t _ _ ih => exact Nat.le_succ_of_le (ih h)
  | case4 c t _ _ _ ih => exact Nat.le_succ_of_le (ih h)
  | case5 =>
    cases h
    exact Nat.le_refl _
  | case6 c t ih =>
    have := ih h
    simp only [List.length_cons]
    omega
  | case7 t ih => exact Nat.le_succ_of_le (ih h)
  | case8 c t _ _ ih => exact Nat.le_succ_of_le (ih h)
  | case9 => cases h
  | case10 t ih => exact Nat.le_succ_of_le (ih h)
  | case11 c t _ ih => exact Nat.le_succ_of_le (ih h)
  | case12 =>
    cases h
    exact Nat.le_refl _

/-- Behind what is ignored nothing is ignored. -/
theorem skipIgnored_idem {extended : Bool} {place : Ignored} {t u : Text}
    (h : skipIgnored extended place t = some u) : skipIgnored extended .outside u = some u := by
  fun_induction skipIgnored extended place t with
  | case1 t ih => exact ih h
  | case2 =>
    cases h
    rfl
  | case3 c t _ _ ih => exact ih h
  | case4 c t _ _ _ ih => exact ih h
  | case5 c t notComment notBlank notMark =>
    cases h
    rw [skipIgnored.eq_3 _ _ _ notComment, if_neg notBlank, if_neg notMark]
  | case6 c t ih => exact ih h
  | case7 t ih => exact ih h
  | case8 c t _ _ ih => exact ih h
  | case9 => cases h
  | case10 t ih => exact ih h
  | case11 c t _ ih => exact ih h
  | case12 =>
    cases h
    rfl

theorem length_read {f : Flags} {t u : Text} {head : GroupHead}
    (h : GroupHead.read f t = .ok (head, u)) : u.length ≤ t.length := by
  rcases read_local h with ⟨-, rfl, -⟩ | ⟨s, rfl, -⟩
  · exact Nat.le_refl _
  · simp only [List.length_cons, List.length_append]
    omega

/-! ## Tokens and their places -/

/-- Where a token of an expression stands. -/
structure Place where
  /-- The flags in force. -/
  flags : Flags
  /-- The flags that the end of each open group restores, of the innermost group first. -/
  outer : List (Option Flags)
  /-- The lexical state. -/
  lex : Lex

namespace Place

/-- Behind the beginning of a group. -/
def enter (p : Place) : GroupHead → Place
  | .flags f => { p with flags := f }
  | .backref _ => p
  | .scoped f => { p with flags := f, outer := some p.flags :: p.outer }
  | _ => { p with outer := none :: p.outer }

/-- Behind the end of a group. -/
def leave (p : Place) : Place :=
  match p.outer with
  | [] => p
  | restored :: outer => { p with flags := restored.getD p.flags, outer := outer }

/-- The first token that is not ignored, the place behind it and the text that is left. The
beginning of a group is one token. -/
def token? (p : Place) (t : Text) : Option (Text × Place × Text) :=
  if p.lex = .outside then
    match skipIgnored p.flags.extended .outside t with
    | none => none
    | some [] => none
    | some (c :: u) =>
      if c = '(' then
        match skipIgnored p.flags.extended .outside u with
        | none => none
        | some v =>
          match GroupHead.read p.flags v with
          | .error _ => none
          | .ok (head, w) => some ('(' :: v.take (v.length - w.length), p.enter head, w)
      else if c = ')' then some ([')'], p.leave, u)
      else some ([c], { p with lex := p.lex.step c }, u)
  else
    match t with
    | [] => none
    | c :: u => some ([c], { p with lex := p.lex.step c }, u)

theorem length_token? {p p' : Place} {t w u : Text} (h : p.token? t = some (w, p', u)) :
    u.length < t.length := by
  unfold token? at h
  split at h
  next =>
    split at h
    next => cases h
    next => cases h
    next c u' skipped =>
      have shorter : u'.length < t.length := length_skipIgnored skipped
      split at h
      next =>
        split at h
        next => cases h
        next v skipped' =>
          split at h
          next => cases h
          next head w' beginning =>
            cases h
            have first := length_skipIgnored skipped'
            have second := length_read beginning
            omega
      next =>
        split at h
        next =>
          cases h
          exact shorter
        next =>
          cases h
          exact shorter
  next =>
    split at h
    next => cases h
    next =>
      cases h
      exact Nat.lt_succ_self _

end Place

/-- The text of an expression from a place on, without what is ignored. It ends where no token can
be read. -/
def uncommented (p : Place) (t : Text) : Text :=
  match _h : p.token? t with
  | none => []
  | some (w, p', u) => w ++ uncommented p' u
termination_by t.length
decreasing_by exact Place.length_token? _h

theorem uncommented_none {p : Place} {t : Text} (h : p.token? t = none) : uncommented p t = [] := by
  rw [uncommented]
  split
  next => rfl
  next some => cases h.symm.trans some

theorem uncommented_some {p p' : Place} {t w u : Text} (h : p.token? t = some (w, p', u)) :
    uncommented p t = w ++ uncommented p' u := by
  rw [uncommented]
  split
  next none => cases h.symm.trans none
  next some =>
    cases h.symm.trans some
    rfl

theorem uncommented_congr {p : Place} {t u : Text} (h : p.token? t = p.token? u) :
    uncommented p t = uncommented p u := by
  cases token : p.token? u with
  | none => rw [uncommented_none (h.trans token), uncommented_none token]
  | some x => rw [uncommented_some (h.trans token), uncommented_some token]

/-! ## From place to place -/

/-- From one place to another, over tokens and what is ignored in front of them. Between the texts
is the text of the tokens. -/
inductive Place.Reaches : Place → Text → Text → Place → Text → Prop
  | refl (p : Place) (t : Text) : Reaches p t [] p t
  | blank {f : Flags} {outer : List (Option Flags)} {c : Char} {t w v : Text} {q : Place} :
    (f.extended && [' ', '\t', '\r', '\n'].contains c) = true →
    Reaches ⟨f, outer, .outside⟩ t w q v → Reaches ⟨f, outer, .outside⟩ (c :: t) w q v
  | skip {f : Flags} {outer : List (Option Flags)} {t u w v : Text} {q : Place} :
    skipIgnored f.extended .outside t = some u →
    Reaches ⟨f, outer, .outside⟩ u w q v → Reaches ⟨f, outer, .outside⟩ t w q v
  | token {p p' q : Place} {t u v w w' : Text} :
    p.token? t = some (w, p', u) → Reaches p' u w' q v → Reaches p t (w ++ w') q v

/-- A blank in extended mode does not change what the next token is. -/
theorem Place.token?_blank {f : Flags} {outer : List (Option Flags)} {c : Char}
    (blank : (f.extended && [' ', '\t', '\r', '\n'].contains c) = true) (t : Text) :
    Place.token? ⟨f, outer, .outside⟩ (c :: t) = Place.token? ⟨f, outer, .outside⟩ t := by
  simp only [Place.token?, skipIgnored_blank blank, ↓reduceIte]

/-- What is ignored does not change what the next token is. -/
theorem Place.token?_skip {f : Flags} {outer : List (Option Flags)} {t u : Text}
    (h : skipIgnored f.extended .outside t = some u) :
    Place.token? ⟨f, outer, .outside⟩ t = Place.token? ⟨f, outer, .outside⟩ u := by
  simp only [Place.token?, h, skipIgnored_idem h, ↓reduceIte]

theorem Place.token?_nil (p : Place) : p.token? [] = none := by
  unfold Place.token?
  split <;> rfl

namespace Place.Reaches

variable {p q r : Place} {t u v w w' : Text}

theorem trans (first : Reaches p t w q u) (second : Reaches q u w' r v) :
    Reaches p t (w ++ w') r v := by
  induction first with
  | refl => exact second
  | blank here _ ih => exact .blank here (ih second)
  | skip skipped _ ih => exact .skip skipped (ih second)
  | token here _ ih =>
    rw [List.append_assoc]
    exact .token here (ih second)

theorem single {p' : Place} (h : p.token? t = some (w, p', u)) : Reaches p t w p' u := by
  have reaches := Reaches.token h (.refl p' u)
  rwa [List.append_nil] at reaches

/-- What is left is left without what is ignored, too. -/
theorem uncommented (reaches : Reaches p t w q u) :
    Regex.uncommented p t = w ++ Regex.uncommented q u := by
  induction reaches with
  | refl => rfl
  | blank here _ ih => exact (uncommented_congr (token?_blank here _)).trans ih
  | skip skipped _ ih => exact (uncommented_congr (token?_skip skipped)).trans ih
  | token here _ ih => rw [uncommented_some here, ih, List.append_assoc]

/-- Where nothing is left nothing is reached. -/
theorem eq_nil (reaches : Reaches p t w q u) (none : t = []) : u = [] := by
  induction reaches with
  | refl => exact none
  | blank => cases none
  | skip skipped _ ih =>
    cases none
    cases skipped
    exact ih rfl
  | token here =>
    rw [none, token?_nil] at here
    cases here

end Place.Reaches

/-! ## Parts of an expression -/

/-- The part of an expression between two texts becomes, without what is ignored, a text with groups
of the given kinds, and leads from some flags to others. -/
def Clears (f : Flags) (t : Text) (new : List GroupKind) (f' : Flags) (u : Text) : Prop :=
  ∃ w, (∀ outer, Place.Reaches ⟨f, outer, .outside⟩ t w ⟨f', outer, .outside⟩ u) ∧
    ∀ v, kinds (w ++ v) = new ++ kinds v

namespace Clears

variable {f f' f'' : Flags} {t u v : Text} {new new' : List GroupKind}

theorem refl (f : Flags) (t : Text) : Clears f t [] f t :=
  ⟨[], fun _ => .refl _ t, fun _ => rfl⟩

theorem trans (first : Clears f t new f' u) (second : Clears f' u new' f'' v) :
    Clears f t (new ++ new') f'' v := by
  obtain ⟨w, text, groups⟩ := first
  obtain ⟨w', text', groups'⟩ := second
  refine ⟨w ++ w', fun outer => (text outer).trans (text' outer), fun x => ?_⟩
  rw [List.append_assoc, groups, groups', List.append_assoc]

/-- Over text that is ignored. -/
theorem skip (h : skipIgnored f.extended .outside t = some u) : Clears f t [] f u :=
  ⟨[], fun _ => .skip h (.refl _ u), fun _ => rfl⟩

theorem token_char {c : Char} (first : skipIgnored f.extended .outside (c :: t) = some (c :: t))
    (group : c ≠ '(') (close : c ≠ ')') (outer : List (Option Flags)) :
    Place.token? ⟨f, outer, .outside⟩ (c :: t) =
      some ([c], ⟨f, outer, Lex.outside.step c⟩, t) := by
  simp [Place.token?, first, group, close]

/-- Over a character that stands for itself. -/
theorem char {c : Char} (first : skipIgnored f.extended .outside (c :: t) = some (c :: t))
    (escape : c ≠ '\\') (bracket : c ≠ '[') (group : c ≠ '(') (close : c ≠ ')') :
    Clears f (c :: t) [] f t := by
  refine ⟨[c], fun outer => ?_, Constraint.kinds_cons escape bracket group⟩
  have token := token_char first group close outer
  rw [Lex.step_outside escape bracket] at token
  exact .single token

/-- Only blanks are ignored at the beginning of an inert text. -/
theorem skipIgnored_cons_inert (extended : Bool) {c : Char} (inert : isInert c) (t : Text) :
    skipIgnored extended .outside (c :: t) =
      if extended && [' ', '\t', '\r', '\n'].contains c then skipIgnored extended .outside t
      else some (c :: t) := by
  obtain ⟨-, -, -, group, -, hash⟩ := inert_ne inert
  rw [skipIgnored.eq_3 _ _ _ fun u eq => absurd eq group]
  simp [hash]

theorem of_inert {s : Text} (inert : Inert s) (f : Flags) (t : Text) :
    Clears f (s ++ t) [] f t := by
  induction s with
  | nil => exact refl f t
  | cons c s ih =>
    have here := inert c List.mem_cons_self
    have ih := ih fun d mem => inert d (List.mem_cons_of_mem c mem)
    have first := skipIgnored_cons_inert f.extended here (s ++ t)
    split at first
    next blank =>
      obtain ⟨w, text, groups⟩ := ih
      exact ⟨w, fun outer => .blank blank (text outer), groups⟩
    next =>
      obtain ⟨escape, bracket, -, group, close, -⟩ := inert_ne here
      exact (char first escape bracket group close).trans ih

theorem escape (c : Char) {s : Text} (inert : Inert s) (f : Flags) (t : Text) :
    Clears f ('\\' :: c :: (s ++ t)) [] f t := by
  suffices pair : Clears f ('\\' :: c :: (s ++ t)) [] f (s ++ t) from
    pair.trans (of_inert inert f t)
  refine ⟨['\\', c], fun outer => ?_, Constraint.kinds_escape c⟩
  have second : Place.token? ⟨f, outer, .escaped 0⟩ (c :: (s ++ t)) =
      some ([c], ⟨f, outer, .outside⟩, s ++ t) := rfl
  have first := token_char (f := f) (c := '\\') (t := c :: (s ++ t)) (by simp [skipIgnored])
    (by decide) (by decide) outer
  exact .token first (.single second)

theorem reaches_through {σ : Lex} {s : Text} (through : σ.Through s .outside) (f : Flags)
    (outer : List (Option Flags)) (t : Text) :
    Place.Reaches ⟨f, outer, σ⟩ (s ++ t) s ⟨f, outer, .outside⟩ t := by
  induction s generalizing σ with
  | nil =>
    cases through
    exact .refl _ t
  | cons c s ih =>
    have token : Place.token? ⟨f, outer, σ⟩ (c :: (s ++ t)) =
        some ([c], ⟨f, outer, σ.step c⟩, s ++ t) := if_neg through.1
    exact .token token (ih through.2)

theorem bracket {s : Text} (through : Lex.opened.Through s .outside) (f : Flags) (t : Text) :
    Clears f ('[' :: (s ++ t)) [] f t := by
  refine ⟨'[' :: s, fun outer => ?_, Constraint.kinds_bracket through⟩
  have first := token_char (f := f) (c := '[') (t := s ++ t) (by simp [skipIgnored])
    (by decide) (by decide) outer
  exact .token first (reaches_through through f outer t)

/-! ### Groups -/

/-- What is not ignored is the first character without what is ignored. -/
theorem head_uncommented {c d : Char} {outer : List (Option Flags)}
    (first : skipIgnored f.extended .outside (c :: t) = some (c :: t))
    (mem : d ∈ (uncommented ⟨f, outer, .outside⟩ (c :: t)).head?) : d = c := by
  cases token : Place.token? ⟨f, outer, .outside⟩ (c :: t) with
  | none =>
    rw [uncommented_none token] at mem
    cases mem
  | some x =>
    obtain ⟨w, p', u⟩ := x
    rw [uncommented_some token] at mem
    unfold Place.token? at token
    rw [if_pos rfl, first] at token
    dsimp only at token
    split at token
    next group =>
      split at token
      next => cases token
      next =>
        split at token
        next => cases token
        next =>
          cases token
          cases mem
          exact group.symm
    next =>
      split at token
      next close =>
        cases token
        cases mem
        exact close.symm
      next =>
        cases token
        cases mem
        rfl

/-- Over the beginning of a group. A group that captures without a name is told by the character
behind its parenthesis. -/
theorem beginning {w : Text} {head : GroupHead}
    (first : skipIgnored f.extended .outside ('(' :: t) = some ('(' :: t))
    (skipped : skipIgnored f.extended .outside t = some u)
    (read : GroupHead.read f u = .ok (head, w)) : ∃ s,
      (∀ outer, Place.Reaches ⟨f, outer, .outside⟩ ('(' :: t) ('(' :: s)
        (Place.enter ⟨f, outer, .outside⟩ head) w) ∧
      ∀ v, (head = .capturing → ∀ c ∈ v.head?, c ≠ '?' ∧ c ≠ '*') →
        kinds ('(' :: (s ++ v)) = head.kind :: kinds v := by
  have token : ∀ outer, Place.token? ⟨f, outer, .outside⟩ ('(' :: t) =
      some ('(' :: u.take (u.length - w.length), Place.enter ⟨f, outer, .outside⟩ head, w) := by
    intro outer
    simp [Place.token?, first, skipped, read]
  refine ⟨u.take (u.length - w.length), fun outer => .single (token outer), ?_⟩
  intro v plain
  rcases read_local read with ⟨rfl, rfl, -⟩ | ⟨s, rfl, reads⟩
  · rw [Nat.sub_self, List.take_zero, List.nil_append, Constraint.kinds_group]
    congr 1
    cases v with
    | nil => rfl
    | cons c v =>
      obtain ⟨mark, star⟩ := plain rfl c rfl
      exact classify_capturing mark star
  · have taken : Taken false (('?' :: s) ++ w) [] w := read_taken read false
    have length : ('?' :: (s ++ w)).length - w.length = ('?' :: s).length := by
      simp only [List.length_cons, List.length_append]
      omega
    have part : List.take (('?' :: (s ++ w)).length - w.length) ('?' :: (s ++ w)) = '?' :: s := by
      rw [length]
      exact List.take_left
    rw [part, Constraint.kinds_group, Constraint.kinds_eq_of_taken taken]
    exact congrArg (· :: kinds v) (read_kind (reads v) (by simp))

/-- Over a group that sets flags for what follows, or refers to another one. -/
theorem complete {w : Text} {head : GroupHead} {f' : Flags}
    (first : skipIgnored f.extended .outside ('(' :: t) = some ('(' :: t))
    (skipped : skipIgnored f.extended .outside t = some u)
    (read : GroupHead.read f u = .ok (head, w)) (named : head ≠ .capturing)
    (enter : ∀ outer, Place.enter ⟨f, outer, .outside⟩ head = ⟨f', outer, .outside⟩) :
    Clears f ('(' :: t) [head.kind] f' w := by
  obtain ⟨s, text, groups⟩ := beginning first skipped read
  refine ⟨'(' :: s, fun outer => ?_, fun v => groups v fun eq => absurd eq named⟩
  rw [← enter]
  exact text outer

/-- Over a group with a body. -/
theorem group {v w : Text} {head : GroupHead} {f₁ f₂ : Flags} {restored : Option Flags}
    (first : skipIgnored f.extended .outside ('(' :: t) = some ('(' :: t))
    (skipped : skipIgnored f.extended .outside t = some u)
    (read : GroupHead.read f u = .ok (head, w)) (star : w.head? ≠ some '*')
    (enter : ∀ outer, Place.enter ⟨f, outer, .outside⟩ head = ⟨f₁, restored :: outer, .outside⟩)
    (body : Clears f₁ w new f₂ (')' :: v)) :
    Clears f ('(' :: t) (head.kind :: new) (restored.getD f₂) v := by
  obtain ⟨s, text, groups⟩ := beginning first skipped read
  obtain ⟨x, inner, groups'⟩ := body
  have close : ∀ outer, Place.token? ⟨f₂, restored :: outer, .outside⟩ (')' :: v) =
      some ([')'], ⟨restored.getD f₂, outer, .outside⟩, v) := by
    intro outer
    simp [Place.token?, skipIgnored, Place.leave]
  refine ⟨'(' :: (s ++ (x ++ [')'])), fun outer => ?_, fun y => ?_⟩
  · have opened := text outer
    rw [enter] at opened
    exact opened.trans ((inner (restored :: outer)).trans (.single (close outer)))
  · have whole : '(' :: (s ++ (x ++ [')'])) ++ y = '(' :: (s ++ (x ++ ')' :: y)) := by simp
    rw [whole, groups, groups', Constraint.kinds_cons (by decide) (by decide) (by decide),
      List.cons_append]
    rintro rfl c mem
    rcases read_local read with ⟨-, rfl, mark⟩ | ⟨s', rfl, reads⟩
    · cases enter []
      cases x with
      | nil =>
        cases mem
        decide
      | cons d x =>
        have here : c ∈ (uncommented ⟨f, [none], .outside⟩ u).head? := by
          rw [(inner [none]).uncommented]
          exact mem
        have first' := skipIgnored_idem skipped
        cases u with
        | nil =>
          rw [uncommented_none rfl] at here
          cases here
        | cons e u =>
          obtain rfl := head_uncommented first' here
          exact ⟨fun eq => mark u (by rw [eq]), fun eq => star (by rw [eq]; rfl)⟩
    · have kind := read_kind (reads []) (by simp)
      exact absurd kind (classify_mark _)

end Clears

end Regex

end UrlRouting
