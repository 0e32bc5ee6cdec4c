import UrlRouting.Proofs.Regex.Escape

/-!
# Classes as tokens

A class is read through the bracket that closes it. The reader counts brackets as `Lex` does, so the
text of a class leads from its opening bracket back to the outside, and nothing in it opens a group.
-/

namespace UrlRouting.Regex

/-- The state in which so many brackets are open. -/
def Lex.atDepth : Nat → Lex
  | 0 => outside
  | depth + 1 => inside depth

/-! ## Tokens of classes -/

theorem classToken_raw (caseless : Bool) {c : Char} (escape : c ≠ '\\') (t : Text) :
    classToken caseless (c :: t) = .ok (.raw c, t) := by
  rw [classToken.eq_def]
  split
  next eq => cases eq
  next eq =>
    cases eq
    exact absurd rfl escape
  next eq =>
    cases eq
    rfl

/-- A bracket that stands by itself opens or closes a class, any other character does neither. -/
theorem Lex.through_raw {c : Char} (escape : c ≠ '\\') (more : Nat) :
    (Lex.inside more).Through [c] (.atDepth (depthAfter (more + 1) (.raw c))) := by
  refine ⟨nofun, ?_⟩
  change Lex.within more c = _
  by_cases bracket : c = '['
  · subst bracket
    rfl
  by_cases close : c = ']'
  · subst close
    cases more <;> rfl
  rw [Lex.within_of_ne escape bracket close]
  have same : depthAfter (more + 1) (.raw c) = more + 1 := by
    unfold depthAfter
    split
    next eq => cases eq; exact absurd rfl bracket
    next eq => cases eq; exact absurd rfl close
    next => rfl
  rw [same]
  rfl

/-- What a token of a class takes, and how many brackets are open behind it. -/
theorem classToken_ok {caseless : Bool} {t u : Text} {token : CharClass.Token}
    (read : classToken caseless t = .ok (token, u)) :
    ∃ s, t = s ++ u ∧ s ≠ [] ∧ Text.dangles s = false ∧
      (∀ more, (Lex.inside more).Through s (.atDepth (depthAfter (more + 1) token))) ∧
      ∀ k, classToken caseless (t ++ ')' :: k) = .ok (token, u ++ ')' :: k) := by
  unfold classToken at read
  split at read
  · cases read
  next t =>
    obtain ⟨⟨e, v⟩, escape, rest⟩ := bind_eq_ok.mp read
    obtain ⟨c, s, rfl, inert, append⟩ := readEscape_ok escape
    have plain : Text.dangles ('\\' :: c :: s) = false := by
      rw [Text.dangles_escape]
      exact Text.dangles_of_forall fun d mem => (inert_ne (inert d mem)).1
    have through : ∀ more, (Lex.inside more).Through ('\\' :: c :: s) (.inside more) := by
      intro more
      exact ⟨nofun, nofun, inert.through more⟩
    cases e with
    | char d folds =>
      cases rest
      refine ⟨_, rfl, List.cons_ne_nil _ _, plain, through, fun k => ?_⟩
      change classToken caseless ('\\' :: (c :: (s ++ u) ++ ')' :: k)) = _
      rw [classToken, append, ok_bind]
      rfl
    | set cs =>
      cases rest
      refine ⟨_, rfl, List.cons_ne_nil _ _, plain, through, fun k => ?_⟩
      change classToken caseless ('\\' :: (c :: (s ++ u) ++ ')' :: k)) = _
      rw [classToken, append, ok_bind]
      rfl
    | expr r => cases rest
    | backref name => cases rest
  next c t notEscape =>
    have escape : c ≠ '\\' := notEscape
    have plain : Text.dangles [c] = false := by
      rw [Text.dangles_cons escape]
      rfl
    cases read
    exact ⟨[c], rfl, List.cons_ne_nil _ _, plain, Lex.through_raw escape,
      fun k => classToken_raw caseless escape _⟩

/-- What the tokens of a class take, from a depth on. -/
theorem classTokens_ok {caseless : Bool} {depth : Nat} {t u : Text}
    {tokens : List CharClass.Token} (read : classTokens caseless (depth + 1) t = .ok (tokens, u)) :
    ∃ s, t = s ++ u ∧ s ≠ [] ∧ Text.dangles s = false ∧
      (Lex.inside depth).Through s .outside ∧
      ∀ k, classTokens caseless (depth + 1) (t ++ ')' :: k) = .ok (tokens, u ++ ')' :: k) := by
  generalize same : depth + 1 = d at read
  fun_induction classTokens caseless d t generalizing depth tokens u with
  | case1 => cases read
  | case2 d t token v first stop =>
    cases read
    subst same
    obtain ⟨s, rfl, nonempty, plain, through, append⟩ := classToken_ok first
    refine ⟨s, rfl, nonempty, plain, ?_, fun k => ?_⟩
    · have ends := through depth
      rwa [stop] at ends
    · rw [classTokens, append]
      exact if_pos stop
  | case3 => cases read
  | case4 d t token v first more shorter tokens' v' later ih =>
    cases read
    subst same
    obtain ⟨e, deeper⟩ := Nat.exists_eq_succ_of_ne_zero more
    obtain ⟨s, rfl, nonempty, plain, through, append⟩ := classToken_ok first
    obtain ⟨s', rfl, -, plain', through', append'⟩ := ih deeper.symm later
    refine ⟨s ++ s', by simp, by simp [nonempty], ?_, ?_, fun k => ?_⟩
    · rw [Text.dangles_append plain, plain']
    · have first := through depth
      rw [deeper] at first
      exact first.append through'
    · have length : ((s' ++ v') ++ ')' :: k).length < ((s ++ (s' ++ v')) ++ ')' :: k).length := by
        have := List.length_pos_iff.mpr nonempty
        simp only [List.length_append, List.length_cons]
        omega
      rw [classTokens, append]
      dsimp only
      rw [if_neg more, dif_pos length, append' k]
  | case5 => cases read

/-! ## The beginnings of classes -/

theorem Lex.Through.of_inside {s : Text} {σ τ : Lex} (through : (inside 0).Through s τ)
    (nonempty : s ≠ []) (first : ∀ c ∈ s.head?, σ.step c = within 0 c) (proper : σ ≠ outside) :
    σ.Through s τ := by
  cases s with
  | nil => exact absurd rfl nonempty
  | cons c s =>
    refine ⟨proper, ?_⟩
    rw [first c rfl]
    exact through.2

/-- What the beginning of a class takes, and that it sees all it asks for in what follows. -/
theorem classOpening_ok {t u : Text} {opening : List CharClass.Token}
    (read : classOpening t = (opening, u)) :
    ∃ s, t = s ++ u ∧ Text.dangles s = false ∧
      (∀ r, (Lex.inside 0).Through r .outside → r ≠ [] → r <+: u →
        Lex.opened.Through (s ++ r) .outside) ∧
      (u ≠ [] → ∀ k, classOpening (t ++ k) = (opening, u ++ k)) := by
  have through : ∀ {r : Text} {σ : Lex}, (Lex.inside 0).Through r .outside → r ≠ [] → r <+: u →
      σ ≠ .outside → (∀ c ∈ u.head?, σ.step c = Lex.within 0 c) → σ.Through r .outside := by
    intro r σ through nonempty isPrefix proper first
    refine through.of_inside nonempty (fun c mem => first c ?_) proper
    obtain ⟨rest, rfl⟩ := isPrefix
    cases r with
    | nil => exact absurd rfl nonempty
    | cons d r => exact mem
  unfold classOpening at read
  rcases t with - | ⟨c, t⟩
  · cases read
    exact ⟨[], rfl, rfl, fun r _ nonempty isPrefix => absurd (List.prefix_nil.mp isPrefix) nonempty,
      fun proper => absurd rfl proper⟩
  by_cases negation : c = '^'
  · subst negation
    rcases t with - | ⟨d, t⟩
    · cases read
      exact ⟨['^'], rfl, rfl,
        fun r _ nonempty isPrefix => absurd (List.prefix_nil.mp isPrefix) nonempty,
        fun proper => absurd rfl proper⟩
    by_cases close : d = ']'
    · subst close
      cases read
      exact ⟨['^', ']'], rfl, rfl, fun r inner _ _ => ⟨nofun, nofun, inner⟩, fun _ k => rfl⟩
    · simp only [List.head?_cons, if_true, List.tail_cons, Option.some.injEq, close, if_false,
        Prod.mk.injEq] at read
      obtain ⟨rfl, rfl⟩ := read
      refine ⟨['^'], rfl, rfl, fun r inner nonempty isPrefix => ⟨nofun, ?_⟩, fun _ k => ?_⟩
      · refine through inner nonempty isPrefix nofun fun e mem => ?_
        cases mem
        change (if d = ']' then _ else _) = _
        rw [if_neg close]
      · simp [classOpening, close]
  · by_cases close : c = ']'
    · subst close
      simp only [List.head?_cons, Option.some.injEq, negation, if_false, if_true, List.tail_cons,
        Prod.mk.injEq] at read
      obtain ⟨rfl, rfl⟩ := read
      exact ⟨[']'], rfl, rfl, fun r inner _ _ => ⟨nofun, inner⟩, fun _ k => by simp [classOpening]⟩
    · simp only [List.head?_cons, Option.some.injEq, negation, close, if_false,
        Prod.mk.injEq] at read
      obtain ⟨rfl, rfl⟩ := read
      refine ⟨[], rfl, rfl, fun r inner nonempty isPrefix => ?_, fun _ k => ?_⟩
      · refine through inner nonempty isPrefix nofun fun e mem => ?_
        cases mem
        change (if c = '^' then _ else if c = ']' then _ else _) = _
        rw [if_neg negation, if_neg close]
      · simp [classOpening, negation, close]

/-- A class is one token, read the same in front of a closing parenthesis. -/
theorem readClass_ok {s s' : Reading} {r : Regex} (read : readClass s = .ok (r, s')) :
    s'.flags = s.flags ∧ s'.opened = s.opened ∧
      (∃ x, s.rest = x ++ s'.rest ∧ Lex.opened.Through x .outside ∧ Text.dangles x = false) ∧
      ∃ cs, r = set cs ∧ ∀ (opened : List (GroupKind × Text)) (k : Text),
        readClass ⟨s.rest ++ ')' :: k, s.flags, opened⟩ =
          .ok (set cs, ⟨s'.rest ++ ')' :: k, s'.flags, opened⟩) := by
  unfold readClass at read
  rcases eq : classOpening s.rest with ⟨opening, t⟩
  rw [eq] at read
  obtain ⟨⟨tokens, u⟩, inner, rest⟩ := bind_eq_ok.mp read
  dsimp only at rest
  split at rest
  next cs known =>
    cases rest
    obtain ⟨x, split, plain, through, append⟩ := classOpening_ok eq
    obtain ⟨y, rfl, nonempty, plain', through', append'⟩ := classTokens_ok inner
    refine ⟨rfl, rfl, ⟨x ++ y, by simp [split], ?_, ?_⟩, cs, rfl, fun opened k => ?_⟩
    · exact through y through' nonempty (List.prefix_append _ _)
    · rw [Text.dangles_append plain, plain']
    · unfold readClass
      rw [append (by simp [nonempty])]
      dsimp only
      rw [append' k, ok_bind]
      dsimp only
      rw [known]
      rfl
  next => cases rest

end UrlRouting.Regex
