import UrlRouting.Proofs.Regex.Uncommented

/-!
# Line comments at the end of a text

In extended mode a number sign begins a comment that goes on to the end of the line. If the text
ends first, such a comment takes whatever is put behind the text; then the text is open-ended. It
depends on the flags set in the text whether a number sign begins a comment, so this is said of a
place in an expression and the text behind it.

What is reached in a text that is not open-ended is not open-ended (`Reaches.not_openEnded`). An
open-ended text is open-ended in front of a closing parenthesis, too, unless a line ends behind it
(`Place.openEnded_append`). So a text is not open-ended if it is followed by a closing parenthesis
that is reached.
-/

namespace UrlRouting.Regex

/-! ## Text that is ignored -/

theorem not_comment_append {t : Text} (h : ∀ u, t ≠ '(' :: '?' :: '#' :: u) (k u : Text) :
    t ++ ')' :: k ≠ '(' :: '?' :: '#' :: u := by
  intro eq
  match t with
  | [] => cases eq
  | [_] => cases eq
  | [_, _] => cases eq
  | c :: d :: e :: t =>
    cases eq
    exact h t rfl

theorem skipIgnored_line {t : Text} (h : '\n' ∉ t) (extended : Bool) :
    skipIgnored extended .line t = some [] := by
  induction t with
  | nil => rfl
  | cons c t ih =>
    simp only [List.mem_cons, not_or] at h
    rw [skipIgnored, ih h.2]
    exact fun eq => h.1 eq.symm

/-- In front of a closing parenthesis a text is skipped as by itself, or a line comment at its end
goes on to the end of the line. -/
theorem skipIgnored_append {extended : Bool} {place : Ignored} {t u : Text}
    (h : skipIgnored extended place t = some u) :
    (∀ k, skipIgnored extended place (t ++ ')' :: k) = some (u ++ ')' :: k)) ∨
      u = [] ∧ ∀ k, '\n' ∉ k → skipIgnored extended place (t ++ ')' :: k) = some [] := by
  have notComment' : ∀ (c : Char) (t k : Text), (∀ u, c = '(' → t = '?' :: '#' :: u → False) →
      ∀ u, c = '(' → t ++ ')' :: k = '?' :: '#' :: u → False := by
    rintro c t k plain u rfl eq
    refine not_comment_append (t := '(' :: t) (fun v same => ?_) k u (by rw [List.cons_append, eq])
    cases same
    exact plain v rfl rfl
  fun_induction skipIgnored extended place t with
  | case1 t ih => exact ih h
  | case2 =>
    cases h
    exact .inl fun k => by simp [skipIgnored]
  | case3 c t notComment blank ih =>
    have step (k : Text) : skipIgnored extended .outside (c :: t ++ ')' :: k) =
        skipIgnored extended .outside (t ++ ')' :: k) := skipIgnored_blank blank _
    simpa only [step] using ih h
  | case4 c t notComment notBlank mark ih =>
    have step (k : Text) : skipIgnored extended .outside (c :: t ++ ')' :: k) =
        skipIgnored extended .line (t ++ ')' :: k) := by
      rw [List.cons_append, skipIgnored.eq_3 _ _ _ (notComment' c t k notComment), if_neg notBlank,
        if_pos mark]
    simpa only [step] using ih h
  | case5 c t notComment notBlank notMark =>
    cases h
    refine .inl fun k => ?_
    rw [List.cons_append, skipIgnored.eq_3 _ _ _ (notComment' c t k notComment), if_neg notBlank,
      if_neg notMark]
  | case6 c t ih => exact ih h
  | case7 t ih => exact ih h
  | case8 c t notEscape notClose ih =>
    have step (k : Text) : skipIgnored extended .comment (c :: t ++ ')' :: k) =
        skipIgnored extended .comment (t ++ ')' :: k) := by
      rw [List.cons_append, skipIgnored]
      · rintro d u rfl eq
        cases t with
        | nil => cases h
        | cons e t => exact notEscape e t rfl rfl
      · exact notClose
    simpa only [step] using ih h
  | case9 => cases h
  | case10 t ih => exact ih h
  | case11 c t notEnd ih =>
    have step (k : Text) : skipIgnored extended .line (c :: t ++ ')' :: k) =
        skipIgnored extended .line (t ++ ')' :: k) := by
      rw [List.cons_append, skipIgnored]
      exact notEnd
    simpa only [step] using ih h
  | case12 =>
    cases h
    refine .inr ⟨rfl, fun k quiet => skipIgnored_line ?_ extended⟩
    simp [quiet]

/-- Whether what is ignored at the beginning of a text is all of it, and ends in a line comment. -/
def swallows (extended : Bool) (t : Text) : Bool :=
  skipIgnored extended .outside t = some [] &&
    skipIgnored extended .outside (t ++ [')']) = some []

theorem skipIgnored_append_of_not_swallows {extended : Bool} {t u : Text}
    (h : skipIgnored extended .outside t = some u) (ends : swallows extended t = false) (k : Text) :
    skipIgnored extended .outside (t ++ ')' :: k) = some (u ++ ')' :: k) := by
  rcases skipIgnored_append h with same | ⟨rfl, lost⟩
  · exact same k
  · rw [swallows, h, lost [] (by simp)] at ends
    simp at ends

theorem skipIgnored_append_of_swallows {extended : Bool} {t : Text}
    (goes : swallows extended t = true) {k : Text} (quiet : '\n' ∉ k) :
    skipIgnored extended .outside (t ++ ')' :: k) = some [] := by
  simp only [swallows, Bool.and_eq_true, decide_eq_true_eq] at goes
  rcases skipIgnored_append goes.1 with same | ⟨-, lost⟩
  · rw [same []] at goes
    cases goes.2
  · exact lost k quiet

theorem swallows_append {extended : Bool} {t : Text} (goes : swallows extended t = true) {k : Text}
    (quiet : '\n' ∉ k) : swallows extended (t ++ ')' :: k) = true := by
  have more : '\n' ∉ k ++ [')'] := by simp [quiet]
  have whole : t ++ ')' :: k ++ [')'] = t ++ ')' :: (k ++ [')']) := by simp
  rw [swallows, whole, skipIgnored_append_of_swallows goes quiet,
    skipIgnored_append_of_swallows goes more]
  rfl

theorem not_swallows_of_skipIgnored {extended : Bool} {t u : Text}
    (h : skipIgnored extended .outside t = some u) (more : u ≠ []) :
    swallows extended t = false := by
  rw [swallows, h]
  simp [more]

/-! ## Open-ended texts -/

namespace Place

/-- Whether the text behind a place ends in a line comment that goes on behind the text. -/
def openEnded (p : Place) (t : Text) : Bool :=
  match _h : p.token? t with
  | none => p.lex = .outside && swallows p.flags.extended t
  | some (_, p', u) => p'.openEnded u
termination_by t.length
decreasing_by exact length_token? _h

variable {p p' q : Place} {t u v w k : Text}

theorem openEnded_none (h : p.token? t = none) :
    p.openEnded t = (p.lex = .outside && swallows p.flags.extended t) := by
  rw [openEnded]
  split
  next => rfl
  next some => cases h.symm.trans some

theorem openEnded_some (h : p.token? t = some (w, p', u)) : p.openEnded t = p'.openEnded u := by
  rw [openEnded]
  split
  next none => cases h.symm.trans none
  next some =>
    cases h.symm.trans some
    rfl

theorem openEnded_nil (p : Place) : p.openEnded [] = false := by
  rw [openEnded_none p.token?_nil]
  simp [swallows, skipIgnored]

/-- At places with the same token, and the same comments in front of it. -/
theorem openEnded_congr (same : p.token? t = p.token? u)
    (goes : swallows p.flags.extended t = swallows p.flags.extended u) :
    p.openEnded t = p.openEnded u := by
  cases token : p.token? u with
  | none => rw [openEnded_none (same.trans token), openEnded_none token, goes]
  | some x => rw [openEnded_some (same.trans token), openEnded_some token]

/-- Where something is left, a text is open-ended if what is left of it is. -/
theorem Reaches.openEnded_eq (reaches : Reaches p t w q u) (more : u ≠ []) :
    p.openEnded t = q.openEnded u := by
  induction reaches with
  | refl => rfl
  | @blank f outer c t w v q here _ ih =>
    refine (openEnded_congr (token?_blank here t) ?_).trans (ih more)
    have around : skipIgnored f.extended .outside (c :: t ++ [')']) =
        skipIgnored f.extended .outside (t ++ [')']) := skipIgnored_blank here _
    simp only [swallows, skipIgnored_blank here, around]
  | skip skipped rest ih =>
    have left : _ ≠ [] := fun none => more (rest.eq_nil none)
    refine (openEnded_congr (token?_skip skipped) ?_).trans (ih more)
    rw [not_swallows_of_skipIgnored skipped left,
      not_swallows_of_skipIgnored (skipIgnored_idem skipped) left]
  | token here _ ih => exact (openEnded_some here).trans (ih more)

/-- What is reached in a text that is not open-ended is not open-ended. -/
theorem Reaches.not_openEnded (reaches : Reaches p t w q u) (ends : p.openEnded t = false) :
    q.openEnded u = false := by
  by_cases none : u = []
  · rw [none, openEnded_nil]
  · rw [← reaches.openEnded_eq none, ends]

/-- What is ignored in front of a text that is not open-ended does not go on behind it. -/
theorem not_swallows {f : Flags} {outer : List (Option Flags)}
    (ends : Place.openEnded ⟨f, outer, .outside⟩ t = false) : swallows f.extended t = false := by
  cases token : Place.token? ⟨f, outer, .outside⟩ t with
  | none =>
    rw [openEnded_none token] at ends
    simpa using ends
  | some x =>
    cases skipped : skipIgnored f.extended .outside t with
    | none => simp [swallows, skipped]
    | some u =>
      cases u with
      | nil => simp [Place.token?, skipped] at token
      | cons c u => exact not_swallows_of_skipIgnored skipped (List.cons_ne_nil c u)

/-- A token with something behind it is the same in front of a closing parenthesis. -/
theorem token?_append (h : p.token? t = some (w, p', u)) (more : u ≠ []) (k : Text) :
    ∃ w', p.token? (t ++ ')' :: k) = some (w', p', u ++ ')' :: k) := by
  have kept {x y : Text} (skipped : skipIgnored p.flags.extended .outside x = some y)
      (left : y ≠ []) : skipIgnored p.flags.extended .outside (x ++ ')' :: k) =
        some (y ++ ')' :: k) :=
    skipIgnored_append_of_not_swallows skipped (not_swallows_of_skipIgnored skipped left) k
  unfold token? at h ⊢
  split at h
  next outside =>
    rw [if_pos outside]
    split at h
    next => cases h
    next => cases h
    next c x skipped =>
      rw [kept skipped (List.cons_ne_nil c x)]
      dsimp only [List.cons_append]
      split at h
      next group =>
        rw [if_pos group]
        split at h
        next => cases h
        next y skipped' =>
          split at h
          next => cases h
          next head z beginning =>
            cases h
            have left : y ≠ [] := by
              rintro rfl
              exact more (List.length_eq_zero_iff.mp (Nat.le_zero.mp (length_read beginning)))
            rw [kept skipped' left]
            dsimp only
            rw [read_append beginning k]
            exact ⟨_, rfl⟩
      next notGroup =>
        rw [if_neg notGroup]
        split at h
        next close =>
          cases h
          rw [if_pos close]
          exact ⟨_, rfl⟩
        next notClose =>
          cases h
          rw [if_neg notClose]
          exact ⟨_, rfl⟩
  next inside =>
    rw [if_neg inside]
    split at h
    next => cases h
    next c x =>
      cases h
      exact ⟨_, rfl⟩

/-- An open-ended text is open-ended in front of a closing parenthesis, unless a line ends behind
it. -/
theorem openEnded_append (goes : p.openEnded t = true) (quiet : '\n' ∉ k) :
    p.openEnded (t ++ ')' :: k) = true := by
  fun_induction openEnded p t with
  | case1 p t token =>
    obtain ⟨outside, lost⟩ := Bool.and_eq_true_iff.mp goes
    have outside := of_decide_eq_true outside
    have none : p.token? (t ++ ')' :: k) = none := by
      simp [token?, outside, skipIgnored_append_of_swallows lost quiet]
    rw [openEnded_none none, swallows_append lost quiet]
    simp [outside]
  | case2 p t w p' u token ih =>
    have more : u ≠ [] := by
      rintro rfl
      rw [openEnded_nil] at goes
      cases goes
    obtain ⟨w', token'⟩ := token?_append token more k
    rw [openEnded_some token']
    exact ih goes

theorem openEnded_close (outside : p.lex = .outside) : p.openEnded [')', '$'] = false := by
  have outside' : p.leave.lex = .outside := by
    unfold leave
    split <;> exact outside
  have close : p.token? [')', '$'] = some ([')'], p.leave, ['$']) := by
    simp [token?, outside, skipIgnored]
  have dollar : p.leave.token? ['$'] =
      some (['$'], { p.leave with lex := p.leave.lex.step '$' }, []) := by
    simp [token?, outside', skipIgnored]
  rw [openEnded_some close, openEnded_some dollar, openEnded_nil]

/-- A text is not open-ended if the closing parenthesis behind it is reached. -/
theorem Reaches.ends (reaches : Reaches p (t ++ [')', '$']) w q [')', '$'])
    (outside : q.lex = .outside) : p.openEnded t = false := by
  cases goes : p.openEnded t with
  | false => rfl
  | true =>
    have goes' := openEnded_append (k := ['$']) goes (by decide)
    rw [reaches.openEnded_eq (List.cons_ne_nil _ _), openEnded_close outside] at goes'
    cases goes'

end Place

end UrlRouting.Regex
