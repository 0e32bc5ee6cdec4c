import UrlRouting.Regex.Basic

/-!
# Expressions up to the numbers of their groups

The same text read in two places gives expressions that differ in the numbers of groups only.
`Regex.unnumbered` forgets these numbers, and everything that decides how reading goes on is the
same for an expression and its unnumbered form.
-/

namespace UrlRouting.Regex

/-- The expression with all group numbers set to zero. -/
def unnumbered : Regex → Regex
  | empty => empty
  | set cs => set cs
  | assert a => assert a
  | seq r s => seq r.unnumbered s.unnumbered
  | alt r s => alt r.unnumbered s.unnumbered
  | group _ r => group 0 r.unnumbered
  | loop least most greedy r => loop least most greedy r.unnumbered
  | look direction negated r => look direction negated r.unnumbered
  | atomic r => atomic r.unnumbered
  | backref _ caseless => backref 0 caseless

theorem unnumbered_eq_empty {r : Regex} : r.unnumbered = empty ↔ r = empty := by
  cases r <;> simp [unnumbered]

theorem repeatable_unnumbered (r : Regex) : r.unnumbered.repeatable = r.repeatable := by
  cases r <;> rfl

theorem width?_unnumbered (r : Regex) : r.unnumbered.width? = r.width? := by
  induction r with
  | seq r s ihr ihs => simp only [unnumbered, width?, ihr, ihs]
  | alt r s ihr ihs => simp only [unnumbered, width?, ihr, ihs]
  | group n r ih => exact ih
  | atomic r ih => exact ih
  | loop least most greedy r ih => simp only [unnumbered, width?, ih]
  | _ => rfl

theorem widths?_unnumbered (r : Regex) : r.unnumbered.widths? = r.widths? := by
  induction r with
  | alt r s ihr ihs =>
    have whole := width?_unnumbered (alt r s)
    rw [unnumbered] at whole ⊢
    rw [widths?, widths?, whole, ihs, width?_unnumbered]
  | seq r s => exact congrArg (Option.map fun n => [n]) (width?_unnumbered (seq r s))
  | group n r => exact congrArg (Option.map fun n => [n]) (width?_unnumbered (group n r))
  | atomic r => exact congrArg (Option.map fun n => [n]) (width?_unnumbered (atomic r))
  | loop least most greedy r =>
    exact congrArg (Option.map fun n => [n]) (width?_unnumbered (loop least most greedy r))
  | _ => rfl

theorem unnumbered_join (r : Regex) (rs : List Regex) :
    (sequence.join r rs).unnumbered = sequence.join r.unnumbered (rs.map unnumbered) := by
  induction rs generalizing r with
  | nil => rfl
  | cons r' rs ih =>
    rw [sequence.join, unnumbered, ih]
    rfl

theorem unnumbered_sequence (rs : List Regex) :
    (sequence rs).unnumbered = sequence (rs.map unnumbered) := by
  have kept : (rs.map unnumbered).filter (· ≠ empty) = (rs.filter (· ≠ empty)).map unnumbered := by
    rw [List.filter_map]
    congr 1
    exact List.filter_congr fun r _ => by simp [unnumbered_eq_empty]
  rw [sequence, sequence, kept]
  cases rs.filter (· ≠ empty) with
  | nil => rfl
  | cons r rs => exact unnumbered_join r rs

theorem unnumbered_alternatives (rs : List Regex) :
    (alternatives rs).unnumbered = alternatives (rs.map unnumbered) := by
  fun_induction alternatives rs with
  | case1 => rfl
  | case2 => rfl
  | case3 => rfl
  | case4 r r' rs other ih =>
    rw [unnumbered, ih, List.map_cons, List.map_cons, alternatives.eq_def (r.unnumbered :: _)]
    split
    next eq => cases eq
    next eq => cases eq
    next eq =>
      -- the last two would have been taken together
      obtain ⟨rfl, last, none⟩ : _ ∧ _ ∧ _ := by simpa using eq
      cases r' with
      | alt s t =>
        exact absurd none (other s t rfl)
      | _ => cases last
    next eq =>
      cases eq
      rfl

end UrlRouting.Regex
