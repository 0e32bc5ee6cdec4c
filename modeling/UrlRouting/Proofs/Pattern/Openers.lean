import Mathlib.Data.List.Infix
import UrlRouting.Proofs.Regex.Uncommented

/-!
# The scanner of constraints

`Constraint.openers` follows a constraint as `Lex` does, except that it does not count the brackets
inside a class: the first closing bracket ends the class. `Lex.shallow` forgets the count, and the
scanner is the lexical machine with shallow states (`openersFrom_eq`).

Where the lexical machine is outside of all classes the scanner is, too. So the scanner sees every
group (`kinds_sublist`), and it sees nothing else where no bracket stands inside a class
(`kinds_eq`).
-/

namespace UrlRouting

namespace Regex.Lex

/-! ## Shallow states -/

/-- The state without the brackets inside a class. -/
def shallow : Lex → Lex
  | inside _ => inside 0
  | escaped (_ + 1) => escaped 1
  | σ => σ

/-- The rests of a text that begin outside for a machine that does not count brackets. -/
def shallowStarts : Lex → Text → List Text
  | _, [] => []
  | σ, c :: t =>
    let later := shallowStarts (σ.step c).shallow t
    if σ = outside then (c :: t) :: later else later

/-- The machine that does not count brackets is outside where the other one is. -/
inductive Covers : Lex → Lex → Prop
  | same (σ : Lex) : Covers σ σ.shallow
  | inside (more : Nat) : Covers (inside more) outside
  | opened (more : Nat) : Covers (Lex.inside (more + 1)) opened
  | negated (more : Nat) : Covers (Lex.inside (more + 1)) negated
  | escaped (more : Nat) : Covers (Lex.escaped (more + 1)) (escaped 0)

theorem Covers.outside {φ : Lex} (covers : Covers outside φ) : φ = .outside := by
  cases covers
  rfl

theorem Covers.within (more : Nat) (c : Char) :
    Covers (Lex.within more c) ((Lex.within 0 c).shallow) := by
  unfold Lex.within
  by_cases escape : c = '\\'
  · rw [if_pos escape, if_pos escape]
    exact .same (.escaped (more + 1))
  by_cases bracket : c = '['
  · rw [if_neg escape, if_neg escape, if_pos bracket, if_pos bracket]
    exact .same (.inside (more + 1))
  by_cases close : c = ']'
  · simp only [if_neg escape, if_neg bracket, if_pos close]
    cases more with
    | zero => exact .same .outside
    | succ more => exact .inside more
  · simp only [if_neg escape, if_neg bracket, if_neg close]
    exact .same (.inside more)

/-- Both machines take a character. -/
theorem Covers.step {σ φ : Lex} (covers : Covers σ φ) (c : Char) :
    Covers (σ.step c) (φ.step c).shallow := by
  cases covers with
  | same σ =>
    cases σ with
    | outside => exact .same _
    | opened => exact .same _
    | negated => exact .same _
    | inside more => exact .within more c
    | escaped depth =>
      cases depth with
      | zero => exact .same _
      | succ more => exact .same (.inside more)
  | inside more =>
    by_cases escape : c = '\\'
    · subst escape
      exact .escaped more
    by_cases bracket : c = '['
    · subst bracket
      exact .opened more
    · rw [step_outside escape bracket]
      change Covers (Lex.within more c) .outside
      by_cases close : c = ']'
      · subst close
        cases more with
        | zero => exact .same .outside
        | succ more => exact .inside more
      · rw [within_of_ne escape bracket close]
        exact .inside more
  | opened more =>
    by_cases negation : c = '^'
    · subst negation
      exact .negated more
    by_cases close : c = ']'
    · subst close
      exact .same (.inside more)
    · have step : Lex.opened.step c = Lex.within 0 c := by simp [Lex.step, negation, close]
      rw [step]
      exact .within (more + 1) c
  | negated more =>
    by_cases close : c = ']'
    · subst close
      exact .same (.inside more)
    · have step : Lex.negated.step c = Lex.within 0 c := by simp [Lex.step, close]
      rw [step]
      exact .within (more + 1) c
  | escaped more => exact .inside more

theorem starts_sublist_shallowStarts {σ φ : Lex} (covers : Covers σ φ) (t : Text) :
    (σ.starts t).Sublist (φ.shallowStarts t) := by
  induction t generalizing σ φ with
  | nil => exact .slnil
  | cons c t ih =>
    have later := ih (covers.step c)
    by_cases h : σ = .outside
    · subst h
      obtain rfl := covers.outside
      rw [starts_outside_cons, shallowStarts]
      exact later.cons_cons (c :: t)
    · rw [starts_cons_of_ne h, shallowStarts]
      split
      next => exact later.cons (c :: t)
      next => exact later

/-! ## Brackets inside classes -/

/-- No bracket is open inside a class. -/
def isShallow (σ : Lex) : Bool := σ = σ.shallow

/-- On its way through a text the machine opens no bracket inside a class. -/
def Shallow (σ : Lex) (t : Text) : Prop := ∀ s, s <+: t → (σ.run s).isShallow

instance (σ : Lex) (t : Text) : Decidable (σ.Shallow t) :=
  decidable_of_iff (∀ s ∈ t.inits, (σ.run s).isShallow = true) <| by
    simp only [List.mem_inits]
    exact Iff.rfl

theorem Shallow.cons {σ : Lex} {c : Char} {t : Text} (h : σ.Shallow (c :: t)) :
    (σ.step c).shallow = σ.step c ∧ (σ.step c).Shallow t := by
  constructor
  · have first := h [c] ((List.prefix_cons_inj c).mpr (List.nil_prefix))
    exact (of_decide_eq_true first).symm
  · intro s isPrefix
    exact h (c :: s) ((List.prefix_cons_inj c).mpr isPrefix)

theorem starts_eq_shallowStarts {σ : Lex} {t : Text} (h : σ.Shallow t) :
    σ.starts t = σ.shallowStarts t := by
  induction t generalizing σ with
  | nil => rfl
  | cons c t ih =>
    obtain ⟨same, rest⟩ := h.cons
    rw [starts, shallowStarts, same, ih rest]

end Regex.Lex

open Regex (Lex openings opensGroup)

namespace Constraint

/-- The groups at the front of texts. The texts are rests of one text, which ends at a given
position. -/
def openersAt (stop : Nat) (ws : List Text) : List (Nat × GroupKind) :=
  (ws.filter opensGroup).map fun w => (stop - Text.byteLength w, classify w.tail)

theorem openersAt_sublist {ws xs : List Text} (h : ws.Sublist xs) (stop : Nat) :
    (openersAt stop ws).Sublist (openersAt stop xs) :=
  (h.filter opensGroup).map _

theorem kinds_eq_openersAt (stop : Nat) (t : Text) :
    kinds t = (openersAt stop (Lex.outside.starts t)).map Prod.snd := by
  rw [openersAt, List.map_map]
  rfl

theorem openersAt_shallowStarts_plain {σ : Lex} {c : Char} (h : c ≠ '(') (stop : Nat) (t : Text) :
    openersAt stop (σ.shallowStarts (c :: t)) =
      openersAt stop ((σ.step c).shallow.shallowStarts t) := by
  rw [Lex.shallowStarts]
  split
  next =>
    rw [openersAt, List.filter_cons_of_neg (by simpa [opensGroup] using h)]
    rfl
  next => rfl

/-- Behind the beginning of a class the machine goes on as inside. -/
theorem shallowStarts_inside {σ : Lex} {t : Text} (class' : σ ≠ .outside)
    (first : ∀ c ∈ t.head?, σ.step c = Lex.within 0 c) :
    σ.shallowStarts t = (Lex.inside 0).shallowStarts t := by
  cases t with
  | nil => rfl
  | cons c t =>
    rw [Lex.shallowStarts, Lex.shallowStarts, first c rfl, if_neg class', if_neg nofun]
    rfl

/-- Inside of a class the machine stays there, up to a closing bracket. -/
theorem shallow_within {c : Char} (escape : c ≠ '\\') (close : c ≠ ']') :
    (Lex.within 0 c).shallow = .inside 0 := by
  by_cases bracket : c = '['
  · subst bracket
    rfl
  · rw [Lex.within_of_ne escape bracket close]
    rfl

/-- The scanner is the machine that does not count brackets. -/
theorem openersFrom_eq (inClass : Bool) (position : Nat) (t : Text) {stop : Nat}
    (ends : position + Text.byteLength t = stop) :
    openersFrom inClass position t =
      openersAt stop ((if inClass then Lex.inside 0 else .outside).shallowStarts t) := by
  have marks : '\\'.utf8Size = 1 ∧ '['.utf8Size = 1 ∧ '^'.utf8Size = 1 ∧ ']'.utf8Size = 1 ∧
      '('.utf8Size = 1 := by decide
  fun_induction openersFrom inClass position t with
  | case1 => rfl
  | case2 inClass position c t ih =>
    rw [ih (by simp only [Text.byteLength_cons, marks] at ends; omega),
      openersAt_shallowStarts_plain (by decide)]
    cases inClass <;> rfl
  | case3 position t ih => exact ih (by simp only [Text.byteLength_cons, marks] at ends; omega)
  | case4 position t other ih =>
    rw [ih (by simp only [Text.byteLength_cons, marks] at ends; omega)]
    have same : Lex.negated.shallowStarts t = (Lex.inside 0).shallowStarts t := by
      refine shallowStarts_inside (by decide) fun c mem => ?_
      have ne : c ≠ ']' := by
        intro close
        obtain ⟨u, rest⟩ := List.head?_eq_some_iff.mp mem
        exact other u (by rw [rest, close])
      simp [Lex.step, ne]
    change _ = openersAt stop (Lex.negated.shallowStarts t)
    rw [same]
    rfl
  | case5 position t ih => exact ih (by simp only [Text.byteLength_cons, marks] at ends; omega)
  | case6 position t _ negation close ih =>
    rw [ih (by simp only [Text.byteLength_cons, marks] at ends; omega)]
    have same : Lex.opened.shallowStarts t = (Lex.inside 0).shallowStarts t := by
      refine shallowStarts_inside (by decide) fun c mem => ?_
      obtain ⟨u, rest⟩ := List.head?_eq_some_iff.mp mem
      have ne : c ≠ '^' ∧ c ≠ ']' :=
        ⟨fun eq => negation u (by rw [rest, eq]), fun eq => close u (by rw [rest, eq])⟩
      simp [Lex.step, ne]
    change _ = openersAt stop (Lex.opened.shallowStarts t)
    rw [same]
    rfl
  | case7 position t ih => exact ih (by simp only [Text.byteLength_cons, marks] at ends; omega)
  | case8 position t ih =>
    have here : stop - Text.byteLength ('(' :: t) = position := by omega
    rw [ih (by simp only [Text.byteLength_cons, marks] at ends; omega), ← here]
    rfl
  | case9 inClass position c t escape _ _ _ bracket close group ih =>
    rw [ih (by simp only [Text.byteLength_cons] at ends; omega)]
    have group' : inClass = false → c ≠ '(' := fun outside eq => group outside eq
    cases t with
    | nil =>
      cases inClass with
      | true => rfl
      | false =>
        rw [openersAt_shallowStarts_plain (group' rfl)]
        rfl
    | cons d t =>
      have notEscape : c ≠ '\\' := fun eq => escape d t eq rfl
      cases inClass with
      | true =>
        have stays : (Lex.within 0 c).shallow = .inside 0 :=
          shallow_within notEscape fun eq => close rfl eq
        have step : (Lex.inside 0).shallowStarts (c :: d :: t) =
            (Lex.within 0 c).shallow.shallowStarts (d :: t) := rfl
        rw [if_pos rfl, step, stays]
      | false =>
        have stays : Lex.outside.step c = .outside :=
          Lex.step_outside notEscape fun eq => bracket rfl eq
        rw [if_neg (by decide), openersAt_shallowStarts_plain (group' rfl), stays]
        rfl

theorem openers_eq (t : Text) :
    openers t = openersAt (Text.byteLength t) (Lex.outside.shallowStarts t) :=
  openersFrom_eq false 0 t (Nat.zero_add _)

/-- The scanner reports every parenthesis outside of escapes and classes. -/
theorem openersAt_starts_sublist (t : Text) :
    (openersAt (Text.byteLength t) (Lex.outside.starts t)).Sublist (openers t) := by
  rw [openers_eq]
  exact openersAt_sublist (Lex.starts_sublist_shallowStarts (.same .outside) t) _

/-- Where no bracket stands inside a class the scanner reports nothing else. -/
theorem openersAt_starts_eq {t : Text} (h : Lex.outside.Shallow t) :
    openersAt (Text.byteLength t) (Lex.outside.starts t) = openers t := by
  rw [openers_eq, Lex.starts_eq_shallowStarts h]

/-- The scanner sees every group that the reader sees. -/
theorem kinds_sublist (t : Text) : (kinds t).Sublist ((openers t).map Prod.snd) := by
  rw [kinds_eq_openersAt (Text.byteLength t)]
  exact (openersAt_starts_sublist t).map _

/-- Where no bracket stands inside a class the scanner sees nothing else. -/
theorem kinds_eq {t : Text} (h : Lex.outside.Shallow t) : kinds t = (openers t).map Prod.snd := by
  rw [kinds_eq_openersAt (Text.byteLength t), openersAt_starts_eq h]

/-- The names of the groups that the reader of expressions finds. -/
def readNames (t : Text) : List Text := (kinds t).filterMap (·.name?)

theorem groupNames_eq (t : Text) :
    groupNames t = ((openers t).map Prod.snd).filterMap (·.name?) := by
  rw [groupNames, List.filterMap_map]
  rfl

theorem readNames_sublist (t : Text) : (readNames t).Sublist (groupNames t) := by
  rw [groupNames_eq]
  exact (kinds_sublist t).filterMap _

theorem readNames_eq {t : Text} (h : Lex.outside.Shallow t) : readNames t = groupNames t := by
  rw [groupNames_eq, readNames, kinds_eq h]

/-- What the scanner refuses, the reader does not find. -/
theorem not_capturing_of_mem_kinds {t : Text} (h : firstCapturing? t = none) {kind : GroupKind}
    (mem : kind ∈ kinds t) : kind ≠ .capturing := by
  rintro rfl
  have seen := (kinds_sublist t).subset mem
  obtain ⟨⟨position, kind⟩, opener, same⟩ := List.mem_map.mp seen
  rw [firstCapturing?, Option.map_eq_none_iff, List.find?_eq_none] at h
  exact h _ opener (by simpa using same)

end Constraint

end UrlRouting
