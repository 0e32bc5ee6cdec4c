import UrlRouting.Proofs.Pattern.Segments
import UrlRouting.Proofs.Url.Building
import UrlRouting.Proofs.Url.Slashes

/-!
# Paths of segments

The path that is built from a list of segments is in normal form (`Node.Segments.pathlike`), and no
text can be taken apart by such a list in two ways (`Node.Segments.unique`): a placeholder takes
what stands before the next slash, and an optional part takes nothing only at the end.
-/

namespace UrlRouting

open Url

/-! ## Paths that are built -/

/-- A text that may stand at the end of a path; `slash` allows one at its end. -/
structure Pathlike (slash : Bool) (t : Text) : Prop where
  first : t = [] ∨ t.head? = some '/'
  unmarked : '?' ∉ t
  single : Single t
  last : slash = false → t.getLast? ≠ some '/'

namespace Pathlike

variable {slash : Bool} {t u w : Text}

theorem nil : Pathlike slash [] := ⟨.inl rfl, nofun, .nil, nofun⟩

theorem head_append (slashed : t.Slashed) (u : Text) : (t ++ u).head? = some '/' := by
  rw [List.head?_append, slashed.first]
  rfl

/-- Behind literal text without a slash at its end. -/
theorem literal (slashed : t.Slashed) (ends : t.getLast? ≠ some '/') (rest : Pathlike slash u) :
    Pathlike slash (t ++ u) where
  first := .inr (head_append slashed u)
  unmarked mem := (List.mem_append.mp mem).elim slashed.unmarked rest.unmarked
  single := (single_of_not_isInfix slashed.single).append rest.single fun last => absurd last ends
  last none := by
    rw [List.getLast?_append]
    cases last : u.getLast? with
    | none => exact ends
    | some c => exact fun same => rest.last none (last.trans same)

/-- Behind literal text and a value. -/
theorem value (slashed : t.Slashed) (nonempty : w ≠ []) (unslashed : '/' ∉ w) (unmarked : '?' ∉ w)
    (rest : Pathlike slash u) : Pathlike slash (t ++ (w ++ u)) where
  first := .inr (head_append slashed _)
  unmarked mem := by
    rcases List.mem_append.mp mem with mem | mem
    · exact slashed.unmarked mem
    · exact (List.mem_append.mp mem).elim unmarked rest.unmarked
  single := by
    have behind : Single (w ++ u) := (single_of_notMem unslashed).append rest.single fun last =>
      absurd (List.mem_of_getLast? last) unslashed
    refine (single_of_not_isInfix slashed.single).append behind fun _ first => ?_
    rw [List.head?_append_of_ne_nil w nonempty] at first
    exact unslashed (List.mem_of_head? first)
  last none := by
    rw [List.getLast?_append, List.getLast?_append]
    cases last : u.getLast? with
    | none =>
      obtain ⟨c, final⟩ := Option.ne_none_iff_exists'.mp (mt List.getLast?_eq_none_iff.mp nonempty)
      rw [final]
      rintro same
      cases same
      exact unslashed (List.mem_of_getLast? final)
    | some c => exact fun same => rest.last none (last.trans same)

end Pathlike

namespace Node.Segments

variable {slash : Bool} {ns : List Node}

/-- The path that is built from segments has single slashes and none at its end. -/
theorem pathlike (segments : Segments slash ns) {params : Params}
    (complete : isComplete params ns = true) : Pathlike slash (path params ns) := by
  induction segments with
  | nil => exact .nil
  | optional _ ih =>
    rw [path_optional]
    split
    next inside =>
      obtain ⟨first, unmarked, single, last⟩ := ih inside
      rw [path_nil, List.append_nil]
      exact ⟨first, unmarked, single, fun _ => last rfl⟩
    next => exact .nil
  | @last slash t slashed ends =>
    rw [path_literal, path_nil, List.append_nil]
    exact ⟨.inr slashed.first, slashed.unmarked, single_of_not_isInfix slashed.single, ends⟩
  | front slashed ends _ ih =>
    rw [path_literal]
    exact .literal slashed ends (ih ((isComplete_cons _ _ _).mp complete).2)
  | @value slash t q ns slashed ends free _ ih =>
    obtain ⟨here, rest⟩ := (isComplete_cons _ _ _).mp ((isComplete_cons _ _ _).mp complete).2
    obtain ⟨v, value⟩ := here q rfl
    rw [path_literal, path_placeholder value]
    exact .value slashed (Percent.encode_ne_nil (filled?_eq_some.mp value).2)
      (Percent.notMem_encode (by decide) v) (Percent.notMem_encode (by decide) v) (ih rest)

/-! ## Texts that are taken apart -/

/-- What segments take is empty or begins with a slash. -/
theorem head_of_decomposes (segments : Segments slash ns) {t : Text} {vs : List (Option Text)}
    (taken : Decomposes ns t vs) : t = [] ∨ t.head? = some '/' := by
  have literal {t u : Text} (slashed : t.Slashed) : t ++ u = [] ∨ (t ++ u).head? = some '/' :=
    .inr (Pathlike.head_append slashed u)
  induction segments generalizing t vs with
  | nil =>
    cases taken
    exact .inl rfl
  | optional _ ih =>
    cases taken with
    | absent rest =>
      cases rest
      exact .inl rfl
    | present inside rest =>
      cases rest
      rw [List.append_nil]
      exact ih inside
  | last slashed _ =>
    cases taken
    exact literal slashed
  | front slashed _ _ _ =>
    cases taken
    exact literal slashed
  | value slashed _ _ _ _ =>
    cases taken
    exact literal slashed

/-- What an optional part takes is more than a slash. -/
theorem length_of_decomposes {t₀ : Text} (segments : Segments false (.literal t₀ :: ns)) {t : Text}
    {vs : List (Option Text)} (taken : Decomposes (.literal t₀ :: ns) t vs) : 2 ≤ t.length := by
  have long (slashed : t₀.Slashed) (ends : t₀.getLast? ≠ some '/') : 2 ≤ t₀.length := by
    obtain ⟨u, rfl⟩ := List.head?_eq_some_iff.mp slashed.first
    cases u with
    | nil => exact absurd rfl ends
    | cons c u => simp
  cases segments with
  | last slashed ends =>
    cases taken with
    | literal rest =>
      have := long slashed (ends rfl)
      rw [List.length_append]
      omega
  | front slashed ends _ =>
    cases taken with
    | literal rest =>
      have := long slashed ends
      rw [List.length_append]
      omega
  | value slashed _ free _ =>
    obtain ⟨u, rfl⟩ := List.head?_eq_some_iff.mp slashed.first
    cases taken with
    | literal rest =>
      cases rest with
      | placeholder accepts _ =>
        have := List.length_pos_iff.mpr ((Placeholder.accepts_iff free).mp accepts).1
        simp only [List.length_append, List.length_cons]
        omega

/-- Before the first slash texts agree if the wholes do. -/
theorem append_inj_of_slash {w w' u u' : Text} (unslashed : '/' ∉ w) (unslashed' : '/' ∉ w')
    (first : u = [] ∨ u.head? = some '/') (first' : u' = [] ∨ u'.head? = some '/')
    (same : w ++ u = w' ++ u') : w = w' ∧ u = u' := by
  have front {w u : Text} (unslashed : '/' ∉ w) (first : u = [] ∨ u.head? = some '/') :
      (w ++ u).takeWhile (· ≠ '/') = w := by
    have stop : u.takeWhile (· ≠ '/') = [] := by
      rcases first with rfl | first
      · rfl
      · obtain ⟨u, rfl⟩ := List.head?_eq_some_iff.mp first
        rfl
    rw [List.takeWhile_append_of_pos, stop, List.append_nil]
    intro c mem
    refine decide_eq_true fun slash => unslashed ?_
    rwa [slash] at mem
  have left : w = w' := by rw [← front unslashed first, same, front unslashed' first']
  subst left
  exact ⟨rfl, List.append_cancel_left same⟩

/-- In front of what segments take, and a slash that may stand behind it, stands a slash or
nothing. -/
theorem head_append_of_decomposes (segments : Segments slash ns) {t r : Text}
    {vs : List (Option Text)} (taken : Decomposes ns t vs) (tail : r = [] ∨ r = ['/']) :
    t ++ r = [] ∨ (t ++ r).head? = some '/' := by
  rcases segments.head_of_decomposes taken with rfl | first
  · exact tail.imp id fun slash => by rw [slash]; rfl
  · refine .inr ?_
    rw [List.head?_append, first]
    rfl

/-- What an optional part takes is the beginning of no single slash. -/
theorem append_ne {t₀ t r r' : Text} (segments : Segments false (.literal t₀ :: ns))
    {vs : List (Option Text)} (taken : Decomposes (.literal t₀ :: ns) t vs)
    (tail : r' = [] ∨ r' = ['/']) : t ++ r ≠ r' := by
  have long := segments.length_of_decomposes taken
  intro same
  have lengths := congrArg List.length same
  rw [List.length_append] at lengths
  have short : r'.length ≤ 1 := by rcases tail with rfl | rfl <;> simp
  omega

/-- Segments take a text apart in one way only, even if a slash more may stand behind it. -/
theorem unique (segments : Segments slash ns) {t t' r r' : Text} {vs vs' : List (Option Text)}
    (taken : Decomposes ns t vs) (taken' : Decomposes ns t' vs') (tail : r = [] ∨ r = ['/'])
    (tail' : r' = [] ∨ r' = ['/']) (same : t ++ r = t' ++ r') : vs = vs' := by
  induction segments generalizing t t' vs vs' with
  | nil =>
    cases taken
    cases taken'
    rfl
  | optional segments ih =>
    cases taken with
    | absent rest =>
      cases rest
      cases taken' with
      | absent rest' =>
        cases rest'
        rfl
      | present inside' rest' =>
        cases rest'
        rw [List.append_nil] at same
        exact absurd same.symm (segments.append_ne inside' tail)
    | present inside rest =>
      cases rest
      cases taken' with
      | absent rest' =>
        cases rest'
        rw [List.append_nil] at same
        exact absurd same (segments.append_ne inside tail')
      | present inside' rest' =>
        cases rest'
        rw [List.append_nil, List.append_nil] at same
        rw [ih inside inside' same]
  | last _ _ =>
    cases taken with
    | literal rest =>
      cases rest
      cases taken' with
      | literal rest' =>
        cases rest'
        rfl
  | front _ _ _ ih =>
    cases taken with
    | literal rest =>
      cases taken' with
      | literal rest' =>
        rw [List.append_assoc, List.append_assoc] at same
        exact ih rest rest' (List.append_cancel_left same)
  | value _ _ free segments ih =>
    cases taken with
    | literal rest =>
      cases taken' with
      | literal rest' =>
        rw [List.append_assoc, List.append_assoc] at same
        have same := List.append_cancel_left same
        cases rest with
        | placeholder accepts rest =>
          cases rest' with
          | placeholder accepts' rest' =>
            rw [List.append_assoc, List.append_assoc] at same
            obtain ⟨rfl, behind⟩ := append_inj_of_slash
              ((Placeholder.accepts_iff free).mp accepts).2
              ((Placeholder.accepts_iff free).mp accepts').2
              (segments.head_append_of_decomposes rest tail)
              (segments.head_append_of_decomposes rest' tail') same
            rw [ih rest rest' behind]

end Node.Segments

end UrlRouting
