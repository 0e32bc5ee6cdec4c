import UrlRouting.Proofs.Regex.Unnumbered
import UrlRouting.Proofs.Regex.Ways

/-!
# The language of an expression

A plain expression is built from sets, sequences, alternatives, groups and loops. `Matches` says
which texts such an expression matches in full. It does not depend on where a text stands, and a way
through the expression takes a text that matches (`Way.matches`, `Matches.exists_way`).
-/

namespace UrlRouting

/-! ## Texts between positions -/

theorem textBetween_eq (input : Array Char) (p q : Nat) :
    textBetween input p q = (input.toList.drop p).take (q - p) := by
  rw [textBetween, Array.toList_extract, List.extract_eq_take_drop]

theorem textBetween_self (input : Array Char) (p : Nat) : textBetween input p p = [] := by
  rw [textBetween_eq, Nat.sub_self, List.take_zero]

theorem textBetween_append (input : Array Char) {p k q : Nat} (first : p ≤ k) (second : k ≤ q) :
    textBetween input p q = textBetween input p k ++ textBetween input k q := by
  obtain ⟨m, rfl⟩ := Nat.exists_eq_add_of_le first
  obtain ⟨n, rfl⟩ := Nat.exists_eq_add_of_le second
  rw [textBetween_eq, textBetween_eq, textBetween_eq, Nat.add_sub_cancel_left,
    Nat.add_sub_cancel_left, Nat.add_assoc, Nat.add_sub_cancel_left, List.take_add, List.drop_drop]

namespace Regex

/-! ## Matching -/

/-- Whether an expression is built from sets, sequences, alternatives, groups and loops. -/
def isPlain : Regex → Bool
  | empty | set _ => true
  | seq r s | alt r s => r.isPlain && s.isPlain
  | group _ r | loop _ _ _ r => r.isPlain
  | assert _ | look .. | atomic _ | backref .. => false

/-- The texts that a plain expression matches in full. -/
def Matches : Regex → Text → Prop
  | empty => fun t => t = []
  | set cs => fun t => ∃ x, t = [x] ∧ cs.contains x
  | seq r s => fun t => ∃ u v, t = u ++ v ∧ r.Matches u ∧ s.Matches v
  | alt r s => fun t => r.Matches t ∨ s.Matches t
  | group _ r => fun t => r.Matches t
  | loop least most _ r => fun t => ∃ ts : List Text, t = ts.flatten ∧ least ≤ ts.length ∧
    (∀ m ∈ most, ts.length ≤ max least m) ∧ ∀ u ∈ ts, r.Matches u
  | assert _ | look .. | atomic _ | backref .. => fun _ => False

theorem isPlain_unnumbered (r : Regex) : r.unnumbered.isPlain = r.isPlain := by
  induction r with
  | seq r s ihr ihs => simp only [unnumbered, isPlain, ihr, ihs]
  | alt r s ihr ihs => simp only [unnumbered, isPlain, ihr, ihs]
  | group n r ih => exact ih
  | loop least most greedy r ih => exact ih
  | _ => rfl

theorem matches_unnumbered (r : Regex) (t : Text) : r.unnumbered.Matches t ↔ r.Matches t := by
  induction r generalizing t with
  | seq r s ihr ihs => simp only [unnumbered, Matches, ihr, ihs]
  | alt r s ihr ihs => simp only [unnumbered, Matches, ihr, ihs]
  | group n r ih => exact ih t
  | loop least most greedy r ih => simp only [unnumbered, Matches, ih]
  | _ => exact Iff.rfl

theorem isRegular_of_isPlain {r : Regex} (plain : r.isPlain = true) : r.isRegular = true := by
  induction r with
  | seq r s ihr ihs =>
    obtain ⟨left, right⟩ := Bool.and_eq_true_iff.mp plain
    exact Bool.and_eq_true_iff.mpr ⟨ihr left, ihs right⟩
  | alt r s ihr ihs =>
    obtain ⟨left, right⟩ := Bool.and_eq_true_iff.mp plain
    exact Bool.and_eq_true_iff.mpr ⟨ihr left, ihs right⟩
  | group n r ih => exact ih plain
  | loop least most greedy r ih => exact ih plain
  | empty => rfl
  | set cs => rfl
  | assert => cases plain
  | look => cases plain
  | atomic => cases plain
  | backref => cases plain

/-- A way through a plain expression takes a text that the expression matches. -/
theorem Way.matches {input : Array Char} {r : Regex} (plain : r.isPlain = true) {p q : Nat}
    {c d : Captures} (within : p ≤ input.size) (way : Way input r p c q d) :
    q ≤ input.size ∧ r.Matches (textBetween input p q) := by
  induction r generalizing p c q d with
  | empty =>
    obtain ⟨rfl, -⟩ := way
    exact ⟨within, textBetween_self input q⟩
  | set cs =>
    obtain ⟨⟨x, here, holds⟩, rfl, -⟩ := way
    obtain ⟨bound, rfl⟩ := Array.getElem?_eq_some_iff.mp here
    refine ⟨bound, input[p], ?_, holds⟩
    rw [textBetween_eq, Nat.add_sub_cancel_left, List.take_one, List.head?_drop]
    simp [here]
  | assert => cases plain
  | seq r s ihr ihs =>
    obtain ⟨left, right⟩ := Bool.and_eq_true_iff.mp plain
    obtain ⟨k, e, before, after⟩ := way
    obtain ⟨within', first⟩ := ihr left within before
    obtain ⟨within'', second⟩ := ihs right within' after
    refine ⟨within'', _, _, ?_, first, second⟩
    exact textBetween_append input (forward input r _ _ _ _ before) (forward input s _ _ _ _ after)
  | alt r s ihr ihs =>
    obtain ⟨left, right⟩ := Bool.and_eq_true_iff.mp plain
    rcases way with way | way
    · obtain ⟨within, first⟩ := ihr left within way
      exact ⟨within, .inl first⟩
    · obtain ⟨within, second⟩ := ihs right within way
      exact ⟨within, .inr second⟩
  | group number r ih =>
    obtain ⟨e, way, -⟩ := way
    exact ih plain within way
  | loop least most greedy r ih =>
    obtain ⟨n, many, few, way⟩ := way
    suffices times : q ≤ input.size ∧ ∃ ts : List Text, textBetween input p q = ts.flatten ∧
        ts.length = n ∧ ∀ u ∈ ts, r.Matches u by
      obtain ⟨within, ts, split, rfl, each⟩ := times
      exact ⟨within, ts, split, many, few, each⟩
    clear many few
    induction n generalizing p c with
    | zero =>
      obtain ⟨rfl, -⟩ := way
      exact ⟨within, [], textBetween_self input q, rfl, nofun⟩
    | succ n ihn =>
      obtain ⟨k, e, here, more⟩ := way
      obtain ⟨within', first⟩ := ih plain within here
      obtain ⟨within'', ts, split, length, each⟩ := ihn within' more
      refine ⟨within'', textBetween input p k :: ts, ?_, by rw [List.length_cons, length], ?_⟩
      · rw [List.flatten_cons, ← split]
        exact textBetween_append input (forward input r _ _ _ _ here)
          ((forward input r).times n _ _ _ _ more)
      · exact List.forall_mem_cons.mpr ⟨first, each⟩
  | look => cases plain
  | atomic => cases plain
  | backref => cases plain

/-- Where a text stands that an expression matches, there is a way through the expression. -/
theorem Matches.exists_way {r : Regex} {input : Array Char} {u t v : Text} (h : r.Matches t)
    (split : input.toList = u ++ t ++ v) (c : Captures) :
    ∃ d, Way input r u.length c (u.length + t.length) d := by
  induction r generalizing u t v c with
  | empty =>
    obtain rfl := h
    exact ⟨c, rfl, rfl⟩
  | set cs =>
    obtain ⟨x, rfl, holds⟩ := h
    refine ⟨c, ⟨x, ?_, holds⟩, rfl, rfl⟩
    rw [← Array.getElem?_toList, split]
    simp
  | assert => exact h.elim
  | seq r s ihr ihs =>
    obtain ⟨t, t', rfl, first, second⟩ := h
    obtain ⟨e, before⟩ := ihr (u := u) (v := t' ++ v) first (by simp [split]) c
    obtain ⟨d, after⟩ := ihs (u := u ++ t) (v := v) second (by simp [split]) e
    rw [List.length_append] at after
    refine ⟨d, _, e, before, ?_⟩
    rwa [List.length_append, ← Nat.add_assoc]
  | alt r s ihr ihs =>
    rcases h with h | h
    · obtain ⟨d, way⟩ := ihr h split c
      exact ⟨d, .inl way⟩
    · obtain ⟨d, way⟩ := ihs h split c
      exact ⟨d, .inr way⟩
  | group number r ih =>
    obtain ⟨d, way⟩ := ih h split c
    exact ⟨_, d, way, rfl⟩
  | loop least most greedy r ih =>
    obtain ⟨ts, rfl, many, few, each⟩ := h
    suffices times : ∃ d, (Way input r).times ts.length u.length c
        (u.length + ts.flatten.length) d by
      obtain ⟨d, way⟩ := times
      exact ⟨d, ts.length, many, few, way⟩
    clear many few
    induction ts generalizing u c with
    | nil => exact ⟨c, rfl, rfl⟩
    | cons t ts ihts =>
      obtain ⟨first, each⟩ := List.forall_mem_cons.mp each
      obtain ⟨e, here⟩ := ih (u := u) (v := ts.flatten ++ v) first (by simp [split]) c
      obtain ⟨d, more⟩ := ihts (u := u ++ t) e (by simp [split]) each
      rw [List.length_append] at more
      refine ⟨d, _, e, here, ?_⟩
      rwa [List.flatten_cons, List.length_append, ← Nat.add_assoc]
  | look => exact h.elim
  | atomic => exact h.elim
  | backref => exact h.elim

/-- A plain expression matches a text in full if and only if a way through it leads from the start
of the text to its end. -/
theorem matches_iff_way {r : Regex} (plain : r.isPlain = true) (t : Text) :
    r.Matches t ↔ ∃ d, Way t.toArray r 0 [] t.length d := by
  constructor
  · intro h
    have split : t.toArray.toList = [] ++ t ++ [] := by simp
    have way := h.exists_way split []
    rwa [List.length_nil, Nat.zero_add] at way
  · rintro ⟨d, way⟩
    obtain ⟨-, taken⟩ := Way.matches plain (Nat.zero_le _) way
    rwa [textBetween_eq, List.drop_zero, Nat.sub_zero, List.take_length] at taken

end Regex

end UrlRouting
