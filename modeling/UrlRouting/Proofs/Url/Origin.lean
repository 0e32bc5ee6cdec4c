import UrlRouting.Proofs.Text.Split
import UrlRouting.Url.Origin

/-!
# URLs with an origin

A URL that begins with an origin is matched as what stands behind the origin. The query is split off
first: neither a scheme nor the authority of an `Origin` has a question mark, so the first one of
the URL stands behind the origin (`Text.splitFirst_append_of_notMem`). In front of what is left, the
scheme is found again, for it has no colon, and the authority, which ends at the first slash
(`Origin.withoutOrigin_append`). A path is never taken for a scheme (`withoutOrigin_slash`),
whatever it holds behind its first slash.
-/

namespace UrlRouting.Url

/-- The scheme and the authority of an origin that is ignored. -/
structure Origin where
  scheme : Text
  authority : Text
  valid : isOrigin scheme authority = true
  /-- The authority ends where a path or a query begins. -/
  closed : '/' ∉ authority ∧ '?' ∉ authority

/-- An origin as a text. -/
def Origin.text (o : Origin) : Text := o.scheme ++ "://".toList ++ o.authority

/-- A scheme ends at the first colon with two slashes behind it. -/
theorem splitScheme?_append {scheme : Text} (free : ':' ∉ scheme) (t : Text) :
    splitScheme? (scheme ++ ("://".toList ++ t)) = some (scheme, t) := by
  induction scheme with
  | nil => rfl
  | cons c scheme ih =>
    simp only [List.mem_cons, not_or] at free
    rw [List.cons_append, splitScheme?.eq_def]
    split
    next eq => cases eq
    next eq => exact absurd (List.cons_eq_cons.mp eq).1.symm free.1
    next eq =>
      obtain ⟨rfl, rfl⟩ := List.cons_eq_cons.mp eq
      rw [ih free.2]
      rfl

/-- A path begins with no origin. -/
theorem withoutOrigin_slash (t : Text) : withoutOrigin ('/' :: t) = '/' :: t := by
  unfold withoutOrigin
  split
  next => rfl
  next scheme rest found =>
    -- The slash goes into the scheme, and it is no character of one.
    change Option.map _ (splitScheme? t) = some (scheme, rest) at found
    obtain ⟨_, -, same⟩ := Option.map_eq_some_iff.mp found
    cases same
    exact if_neg (by simp [isOrigin, isSchemeChar])

namespace Origin

variable (o : Origin)

theorem notMem_scheme {c : Char} (other : isSchemeChar c = false) : c ∉ o.scheme := by
  intro mem
  have valid := o.valid
  simp only [isOrigin, Bool.and_eq_true, List.all_eq_true] at valid
  rw [valid.1.1.1 c mem] at other
  cases other

theorem notMem_text : '?' ∉ o.text := by
  simp only [text, List.mem_append, not_or]
  exact ⟨⟨o.notMem_scheme (by decide), by decide⟩, o.closed.2⟩

/-- An origin is taken away from a path, and stands for one where there is none. -/
theorem withoutOrigin_append {t : Text} (path : t = [] ∨ t.head? = some '/') :
    withoutOrigin (o.text ++ t) = if t = [] then ['/'] else t := by
  have inside : ∀ c ∈ o.authority, decide (c ≠ '/') = true := fun c mem =>
    decide_eq_true (ne_of_mem_of_not_mem mem o.closed.1)
  have whole : o.text ++ t = o.scheme ++ ("://".toList ++ (o.authority ++ t)) := by
    simp only [text, List.append_assoc]
  rw [withoutOrigin, whole, splitScheme?_append (o.notMem_scheme (by decide))]
  dsimp only
  rw [List.takeWhile_append_of_pos inside, List.dropWhile_append_of_pos inside]
  rcases path with rfl | first
  · rw [List.takeWhile_nil, List.append_nil, if_pos o.valid]
    rfl
  · obtain ⟨t, rfl⟩ := List.head?_eq_some_iff.mp first
    have none : ('/' :: t).takeWhile (fun c => decide (c ≠ '/')) = [] := rfl
    have all : ('/' :: t).dropWhile (fun c => decide (c ≠ '/')) = '/' :: t := rfl
    rw [none, all, List.append_nil, if_pos o.valid, if_neg (List.cons_ne_nil _ _)]

end Origin

end UrlRouting.Url
