import UrlRouting.Proofs.Regex.Tokens

/-!
# Where groups end

`Lex.behind` looks for the parenthesis that closes a group: it counts parentheses outside of escapes
and classes. A text is *balanced* if the count is the same behind it, so that no parenthesis in it
closes a group that was opened before. In front of a closing parenthesis there is one balanced text
only (`Lex.Passes.rest_eq`). `Lex.nesting` counts in the same way how many groups are open at once.

Where no comments begin, readers take balanced texts. So two readers of the same group end at the
same parenthesis, whatever flags they read it with.
-/

namespace UrlRouting.Regex

namespace Lex

/-- The text behind the parenthesis that closes a group, where `depth` more groups have been opened
in it. -/
def behind : Lex → Nat → Text → Option Text
  | _, _, [] => none
  | outside, depth, '(' :: t => behind outside (depth + 1) t
  | outside, 0, ')' :: t => some t
  | outside, depth + 1, ')' :: t => behind outside depth t
  | σ, depth, c :: t => behind (σ.step c) depth t

/-- A character that is no parenthesis of a group does not count. -/
theorem behind_cons {σ : Lex} {c : Char} (free : σ = outside → c ≠ '(' ∧ c ≠ ')') (depth : Nat)
    (t : Text) : σ.behind depth (c :: t) = (σ.step c).behind depth t :=
  behind.eq_5 σ depth c t (fun out group => (free out).1 group)
    (fun out _ close => (free out).2 close) fun _ out _ close => (free out).2 close

/-- No parenthesis in an escape or a class counts. -/
theorem Through.behind {σ τ : Lex} {s : Text} (through : σ.Through s τ) (depth : Nat) (k : Text) :
    σ.behind depth (s ++ k) = τ.behind depth k := by
  induction s generalizing σ with
  | nil =>
    cases through
    rfl
  | cons c s ih =>
    obtain ⟨ne, rest⟩ := through
    rw [List.cons_append, behind_cons (fun out => absurd out ne), ih rest]

/-- How many groups are open at once in a text, if so many are open before it. -/
def nesting : Lex → Nat → Text → Nat
  | _, depth, [] => depth
  | outside, depth, '(' :: t => nesting outside (depth + 1) t
  | outside, depth, ')' :: t => max depth (nesting outside (depth - 1) t)
  | σ, depth, c :: t => nesting (σ.step c) depth t

theorem nesting_cons {σ : Lex} {c : Char} (free : σ = outside → c ≠ '(' ∧ c ≠ ')') (depth : Nat)
    (t : Text) : σ.nesting depth (c :: t) = (σ.step c).nesting depth t :=
  nesting.eq_4 σ depth c t (fun out group => (free out).1 group) fun out close => (free out).2 close

theorem Through.nesting {σ τ : Lex} {s : Text} (through : σ.Through s τ) (depth : Nat) (k : Text) :
    σ.nesting depth (s ++ k) = τ.nesting depth k := by
  induction s generalizing σ with
  | nil =>
    cases through
    rfl
  | cons c s ih =>
    obtain ⟨ne, rest⟩ := through
    rw [List.cons_append, nesting_cons (fun out => absurd out ne), ih rest]

theorem le_nesting (σ : Lex) (depth : Nat) (t : Text) : depth ≤ σ.nesting depth t := by
  fun_induction nesting σ depth t with
  | case1 => exact Nat.le_refl _
  | case2 depth t ih => exact Nat.le_of_succ_le ih
  | case3 => exact Nat.le_max_left _ _
  | case4 _ _ _ _ _ _ ih => exact ih

/-- No group that was opened before a text is closed in it, and none that is opened in it is left
open. So the text behind it nests as deep as by itself. -/
structure Balanced (t : Text) : Prop where
  behind : ∀ (depth : Nat) (k : Text), outside.behind depth (t ++ k) = outside.behind depth k
  nesting : ∀ (depth : Nat) (k : Text), outside.nesting depth k ≤ outside.nesting depth (t ++ k)

namespace Balanced

variable {s t u v : Text}

theorem nil : Balanced [] := ⟨fun _ _ => rfl, fun _ _ => Nat.le_refl _⟩

theorem append (left : Balanced s) (right : Balanced t) : Balanced (s ++ t) := by
  constructor
  · intro depth k
    rw [List.append_assoc, left.behind, right.behind]
  · intro depth k
    rw [List.append_assoc]
    exact Nat.le_trans (right.nesting depth k) (left.nesting depth (t ++ k))

theorem char {c : Char} (escape : c ≠ '\\') (bracket : c ≠ '[') (group : c ≠ '(')
    (close : c ≠ ')') : Balanced [c] := by
  constructor
  · intro depth k
    rw [List.singleton_append, behind_cons (fun _ => ⟨group, close⟩), step_outside escape bracket]
  · intro depth k
    apply Nat.le_of_eq
    rw [List.singleton_append, nesting_cons (fun _ => ⟨group, close⟩), step_outside escape bracket]

theorem inert (inert : Inert t) : Balanced t := by
  induction t with
  | nil => exact nil
  | cons c t ih =>
    obtain ⟨escape, bracket, -, group, close, -⟩ := inert_ne (inert c List.mem_cons_self)
    have rest := ih fun d mem => inert d (List.mem_cons_of_mem c mem)
    exact (char escape bracket group close).append rest

/-- From a character that begins an escape or a class to where it ends. -/
theorem through {c : Char} (group : c ≠ '(') (close : c ≠ ')')
    (through : (outside.step c).Through t outside) : Balanced (c :: t) := by
  constructor
  · intro depth k
    rw [List.cons_append, behind_cons (fun _ => ⟨group, close⟩), through.behind]
  · intro depth k
    apply Nat.le_of_eq
    rw [List.cons_append, nesting_cons (fun _ => ⟨group, close⟩), through.nesting]

theorem escape (c : Char) (all : Inert t) : Balanced ('\\' :: c :: t) := by
  have mark : Balanced ['\\', c] := through (by decide) (by decide) ⟨nofun, rfl⟩
  exact mark.append (inert all)

/-- A group around a balanced text. -/
theorem group (inside : Balanced t) : Balanced ('(' :: (t ++ [')'])) := by
  have whole (k : Text) : '(' :: (t ++ [')']) ++ k = '(' :: (t ++ ')' :: k) := by simp
  constructor
  · intro depth k
    rw [whole, Lex.behind, inside.behind, Lex.behind]
  · intro depth k
    rw [whole, Lex.nesting]
    have closing := inside.nesting (depth + 1) (')' :: k)
    rw [Lex.nesting, Nat.add_sub_cancel] at closing
    omega

/-- In front of a closing parenthesis there is one balanced text. -/
theorem rest_eq (first : Balanced s) (second : Balanced t)
    (same : s ++ ')' :: u = t ++ ')' :: v) : u = v := by
  have left : outside.behind 0 (s ++ ')' :: u) = some u := first.behind 0 _
  have right : outside.behind 0 (t ++ ')' :: v) = some v := second.behind 0 _
  rw [same, right] at left
  exact (Option.some.inj left).symm

end Balanced

/-- A balanced text has been taken from the front of a text. -/
def Passes (t u : Text) : Prop := ∃ s, t = s ++ u ∧ Balanced s

namespace Passes

variable {t u v : Text}

theorem refl (t : Text) : Passes t t := ⟨[], rfl, .nil⟩

theorem trans (first : Passes t u) (second : Passes u v) : Passes t v := by
  obtain ⟨x, rfl, left⟩ := first
  obtain ⟨y, rfl, right⟩ := second
  exact ⟨x ++ y, (List.append_assoc x y v).symm, left.append right⟩

theorem of_append {s : Text} (balanced : Balanced s) (t : Text) : Passes (s ++ t) t :=
  ⟨s, rfl, balanced⟩

/-- Text that has been passed does not make the rest nest deeper. -/
theorem nesting (passes : Passes t u) (depth : Nat) :
    outside.nesting depth u ≤ outside.nesting depth t := by
  obtain ⟨x, rfl, balanced⟩ := passes
  exact balanced.nesting depth u

/-- A group is passed if its body is. -/
theorem group (inside : Passes t (')' :: u)) : Passes ('(' :: t) u := by
  obtain ⟨x, rfl, balanced⟩ := inside
  exact ⟨'(' :: (x ++ [')']), by simp, balanced.group⟩

/-- In front of a closing parenthesis there is one balanced text. -/
theorem rest_eq {s : Text} (balanced : Balanced s) (passes : Passes (s ++ ')' :: u) (')' :: v)) :
    v = u := by
  obtain ⟨x, same, other⟩ := passes
  exact other.rest_eq balanced same.symm

end Passes

end Lex

end UrlRouting.Regex
