import Mathlib.Data.List.Basic
import UrlRouting.Proofs.Pattern.WellFormed

/-!
# Brackets outside of placeholders

A text is looked at as the scanner does before it knows what the text writes: characters, and the
bodies of placeholders, in which nothing is a bracket. `Text.Outside` says that no placeholder is
open at the end of a text, and `Text.Paired` that its brackets outside of placeholders come in pairs
besides. A body that has not been closed holds no brace that could close it
(`Text.not_balanced_of_levels`).
-/

namespace UrlRouting.Text

/-- What stands between the braces of a placeholder: a text that ends in no escape and in which
braces come in pairs. -/
def IsBody (t : Text) : Prop := dangles t = false ∧ Balanced t

/-- A text of characters and placeholders. -/
inductive Outside : Text → Prop
  | nil : Outside []
  | char {c : Char} {t : Text} (plain : c ≠ '\x7b') (behind : Outside t) : Outside (c :: t)
  | body {b t : Text} (body : IsBody b) (behind : Outside t) :
      Outside ('\x7b' :: (b ++ '\x7d' :: t))

/-- A text of characters and placeholders in which brackets come in pairs. -/
inductive Paired : Text → Prop
  | nil : Paired []
  | char {c : Char} {t : Text} (plain : c ∉ brackets) (behind : Paired t) : Paired (c :: t)
  | body {b t : Text} (body : IsBody b) (behind : Paired t) : Paired ('\x7b' :: (b ++ '\x7d' :: t))
  | pair {s t : Text} (inside : Paired s) (behind : Paired t) : Paired ('[' :: (s ++ ']' :: t))

theorem Outside.append {s t : Text} (left : Outside s) (right : Outside t) : Outside (s ++ t) := by
  induction left with
  | nil => exact right
  | char plain _ ih => exact .char plain ih
  | body body _ ih =>
    rw [List.cons_append, List.append_assoc]
    exact .body body ih

namespace Paired

variable {s t : Text}

theorem append (left : Paired s) (right : Paired t) : Paired (s ++ t) := by
  induction left with
  | nil => exact right
  | char plain _ ih => exact .char plain ih
  | body body _ ih =>
    rw [List.cons_append, List.append_assoc]
    exact .body body ih
  | pair inside _ _ ih =>
    rw [List.cons_append, List.append_assoc]
    exact .pair inside ih

theorem outside (paired : Paired t) : Outside t := by
  induction paired with
  | nil => exact .nil
  | @char c t plain _ ih =>
    refine .char (fun brace => plain ?_) ih
    rw [brace]
    exact List.mem_cons_self
  | body body _ ih => exact .body body ih
  | pair _ _ inside behind =>
    have closed := Outside.char (c := ']') (by decide) behind
    exact .char (by decide) (inside.append closed)

theorem of_forall (plain : ∀ c ∈ t, c ∉ brackets) : Paired t := by
  induction t with
  | nil => exact .nil
  | cons c t ih =>
    obtain ⟨here, rest⟩ := List.forall_mem_cons.mp plain
    exact .char here (ih rest)

/-- A closing bracket at the end closes one that stands before it. -/
theorem exists_pair_of_getLast? (paired : Paired t) (last : t.getLast? = some ']') :
    ∃ u s, t = u ++ '[' :: (s ++ [']']) ∧ Paired u ∧ Paired s := by
  induction paired with
  | nil => cases last
  | @char c t plain behind ih =>
    cases t with
    | nil =>
      cases last
      exact absurd (by decide) plain
    | cons d t =>
      rw [List.getLast?_cons_cons] at last
      obtain ⟨u, s, whole, before, inside⟩ := ih last
      exact ⟨c :: u, s, congrArg (c :: ·) whole, .char plain before, inside⟩
  | @body b t body behind ih =>
    rw [← List.cons_append, List.getLast?_append_cons] at last
    cases t with
    | nil => cases last
    | cons d t =>
      obtain ⟨u, s, whole, before, inside⟩ := ih last
      refine ⟨'\x7b' :: (b ++ '\x7d' :: u), s, ?_, .body body before, inside⟩
      rw [whole, List.cons_append, List.append_assoc, List.cons_append]
  | @pair r t inside behind _ ih =>
    rw [← List.cons_append, List.getLast?_append_cons] at last
    cases t with
    | nil => exact ⟨[], r, rfl, .nil, inside⟩
    | cons d t =>
      obtain ⟨u, s, whole, before, inner⟩ := ih last
      refine ⟨'[' :: (r ++ ']' :: u), s, ?_, .pair inside before, inner⟩
      rw [whole, List.cons_append, List.append_assoc, List.cons_append]

end Paired

/-- No beginning of a body that goes on with a closing brace is a whole body, if the braces after it
have been counted. -/
theorem not_balanced_of_levels {w x y : Text} {depth : Nat}
    (levels : levels 0 (unescaped y) = some depth) (whole : y = w ++ '\x7d' :: x)
    (free : dangles w = false) : ¬ Balanced w := by
  intro balanced
  rw [whole, unescaped_append free, unescaped_cons (by decide), levels_append, balanced] at levels
  cases levels

end UrlRouting.Text
