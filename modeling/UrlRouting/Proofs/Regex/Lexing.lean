import UrlRouting.Text

/-!
# Where the tokens of an expression stand

`Lex` follows an expression one character at a time. It knows whether the next character is escaped
and how many brackets of a character class are open, and nothing else of the notation.

`Lex.starts` are the rests of a text that begin outside of escapes and classes. Among them
`openings` are those that begin with the parenthesis of a group.

A text that leads from the outside back to the outside is *closed*; what follows it can be looked at
by itself (`Lex.starts_append`).
-/

namespace UrlRouting.Regex

/-- What is known before a character of an expression. -/
inductive Lex
  | outside
  /-- A class has been opened; a circumflex or a closing bracket is part of its beginning. -/
  | opened
  /-- The circumflex of a class has been read; a closing bracket is still part of its beginning. -/
  | negated
  /-- Inside a class, with so many brackets open besides its own. -/
  | inside (more : Nat)
  /-- After a backslash, with so many brackets open. -/
  | escaped (depth : Nat)
  deriving DecidableEq, Repr

namespace Lex

/-- After a character of a class. -/
def within (more : Nat) (c : Char) : Lex :=
  if c = '\\' then escaped (more + 1)
  else if c = '[' then inside (more + 1)
  else if c = ']' then
    match more with
    | 0 => outside
    | more + 1 => inside more
  else inside more

/-- After any character. -/
def step : Lex → Char → Lex
  | outside, c => if c = '\\' then escaped 0 else if c = '[' then opened else outside
  | opened, c => if c = '^' then negated else if c = ']' then inside 0 else within 0 c
  | negated, c => if c = ']' then inside 0 else within 0 c
  | inside more, c => within more c
  | escaped 0, _ => outside
  | escaped (more + 1), _ => inside more

/-- After a text. -/
def run (σ : Lex) (t : Text) : Lex := t.foldl step σ

@[simp] theorem run_nil (σ : Lex) : σ.run [] = σ := rfl

@[simp] theorem run_cons (σ : Lex) (c : Char) (t : Text) : σ.run (c :: t) = (σ.step c).run t := rfl

@[simp] theorem run_append (σ : Lex) (s t : Text) : σ.run (s ++ t) = (σ.run s).run t :=
  List.foldl_append

theorem step_outside {c : Char} (escape : c ≠ '\\') (bracket : c ≠ '[') :
    outside.step c = outside := by
  simp [step, escape, bracket]

theorem within_of_ne {c : Char} (escape : c ≠ '\\') (bracket : c ≠ '[') (close : c ≠ ']')
    (more : Nat) : within more c = inside more := by
  simp [within, escape, bracket, close]

/-! ## The rests that begin outside -/

/-- The rests of a text that begin outside of escapes and classes. -/
def starts : Lex → Text → List Text
  | _, [] => []
  | σ, c :: t => if σ = outside then (c :: t) :: starts (σ.step c) t else starts (σ.step c) t

@[simp] theorem starts_nil (σ : Lex) : σ.starts [] = [] := rfl

@[simp] theorem starts_outside_cons (c : Char) (t : Text) :
    outside.starts (c :: t) = (c :: t) :: (outside.step c).starts t := by
  simp [starts]

theorem starts_cons_of_ne {σ : Lex} (h : σ ≠ outside) (c : Char) (t : Text) :
    σ.starts (c :: t) = (σ.step c).starts t := by
  simp [starts, h]

/-- What begins outside in a text with another behind it. -/
theorem starts_append (σ : Lex) (s t : Text) :
    σ.starts (s ++ t) = (σ.starts s).map (· ++ t) ++ (σ.run s).starts t := by
  induction s generalizing σ with
  | nil => rfl
  | cons c s ih =>
    by_cases h : σ = outside
    · subst h
      rw [List.cons_append, starts_outside_cons, ih, starts_outside_cons]
      rfl
    · rw [List.cons_append, starts_cons_of_ne h, ih, starts_cons_of_ne h]
      rfl

theorem ne_nil_of_mem_starts {σ : Lex} {t w : Text} (h : w ∈ σ.starts t) : w ≠ [] := by
  induction t generalizing σ with
  | nil => cases h
  | cons c t ih =>
    rw [starts] at h
    split at h
    · rcases List.mem_cons.mp h with rfl | later
      · exact List.cons_ne_nil c t
      · exact ih later
    · exact ih h

theorem suffix_of_mem_starts {σ : Lex} {t w : Text} (h : w ∈ σ.starts t) : w <:+ t := by
  induction t generalizing σ with
  | nil => cases h
  | cons c t ih =>
    rw [starts] at h
    split at h
    · rcases List.mem_cons.mp h with rfl | later
      · exact List.suffix_rfl
      · exact (ih later).trans (List.suffix_cons c t)
    · exact (ih h).trans (List.suffix_cons c t)

/-! ## Closed texts -/

/-- A text leads from one state to another, and each of its characters stands in an escape or a
class. -/
def Through : Lex → Text → Lex → Prop
  | σ, [], τ => σ = τ
  | σ, c :: t, τ => σ ≠ outside ∧ Through (σ.step c) t τ

theorem Through.append {σ τ υ : Lex} {s t : Text} (first : σ.Through s τ) (second : τ.Through t υ) :
    σ.Through (s ++ t) υ := by
  induction s generalizing σ with
  | nil =>
    cases first
    exact second
  | cons c s ih => exact ⟨first.1, ih first.2⟩

theorem Through.run {σ τ : Lex} {s : Text} (through : σ.Through s τ) : σ.run s = τ := by
  induction s generalizing σ with
  | nil => exact through
  | cons c s ih => exact ih through.2

theorem Through.starts_append {σ : Lex} {s : Text} (through : σ.Through s outside) (t : Text) :
    σ.starts (s ++ t) = outside.starts t := by
  induction s generalizing σ with
  | nil =>
    cases through
    rfl
  | cons c s ih =>
    obtain ⟨ne, rest⟩ := through
    rw [List.cons_append, starts_cons_of_ne ne]
    exact ih rest

/-- A text that leads from the outside to the outside. -/
def Closed (t : Text) : Prop := outside.run t = outside

theorem Closed.append {s t : Text} (left : Closed s) (right : Closed t) : Closed (s ++ t) := by
  unfold Closed
  rw [run_append, left, right]

theorem Closed.starts_append {s : Text} (closed : Closed s) (t : Text) :
    outside.starts (s ++ t) = (outside.starts s).map (· ++ t) ++ outside.starts t := by
  rw [Lex.starts_append, closed]

end Lex

/-! ## Groups -/

/-- Whether a text begins with a parenthesis. -/
def opensGroup (t : Text) : Bool := t.head? = some '('

/-- The rests of a text that begin with the parenthesis of a group. -/
def openings (t : Text) : List Text := (Lex.outside.starts t).filter opensGroup

@[simp] theorem openings_nil : openings [] = [] := rfl

theorem openings_cons {c : Char} (escape : c ≠ '\\') (bracket : c ≠ '[') (group : c ≠ '(')
    (t : Text) : openings (c :: t) = openings t := by
  simp [openings, opensGroup, Lex.step_outside escape bracket, group]

@[simp] theorem openings_group (t : Text) : openings ('(' :: t) = ('(' :: t) :: openings t := by
  simp [openings, opensGroup, Lex.step]

theorem openings_append {s : Text} (closed : Lex.Closed s) (t : Text) :
    openings (s ++ t) = (openings s).map (· ++ t) ++ openings t := by
  rw [openings, closed.starts_append, List.filter_append, List.filter_map]
  congr 2
  refine List.filter_congr fun w mem => ?_
  have ne := Lex.ne_nil_of_mem_starts mem
  cases w with
  | nil => exact absurd rfl ne
  | cons c w => rfl

/-! ## Texts without comments -/

/-- No number sign stands outside of escapes and classes, so that no comment can begin. -/
def HashFree (t : Text) : Prop := ∀ w ∈ Lex.outside.starts t, w.head? ≠ some '#'

theorem HashFree.of_append {s t : Text} (closed : Lex.Closed s) (free : HashFree (s ++ t)) :
    HashFree t := by
  intro w mem
  apply free w
  rw [closed.starts_append]
  exact List.mem_append_right _ mem

theorem HashFree.append {s t : Text} (closed : Lex.Closed s) (left : HashFree s)
    (right : HashFree t) : HashFree (s ++ t) := by
  intro w mem
  rw [closed.starts_append] at mem
  rcases List.mem_append.mp mem with mem | mem
  · obtain ⟨v, start, rfl⟩ := List.mem_map.mp mem
    have ne := Lex.ne_nil_of_mem_starts start
    cases v with
    | nil => exact absurd rfl ne
    | cons c v => exact left (c :: v) start
  · exact right w mem

theorem HashFree.ne_hash {c : Char} {t : Text} (free : HashFree (c :: t)) : c ≠ '#' := by
  rintro rfl
  exact free ('#' :: t) (by simp) rfl

theorem Lex.closed_singleton {c : Char} (escape : c ≠ '\\') (bracket : c ≠ '[') :
    Lex.Closed [c] :=
  Lex.step_outside escape bracket

theorem HashFree.of_notMem {t : Text} (free : '#' ∉ t) (σ : Lex) :
    ∀ w ∈ σ.starts t, w.head? ≠ some '#' := by
  induction t generalizing σ with
  | nil => exact fun w mem => nomatch mem
  | cons c t ih =>
    simp only [List.mem_cons, not_or] at free
    intro w mem
    rw [Lex.starts] at mem
    split at mem
    · rcases List.mem_cons.mp mem with rfl | mem
      · simpa using Ne.symm free.1
      · exact ih free.2 _ w mem
    · exact ih free.2 _ w mem

end UrlRouting.Regex
