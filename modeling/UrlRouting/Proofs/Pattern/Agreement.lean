import UrlRouting.Proofs.Pattern.Segments
import UrlRouting.Proofs.Url.Forms

/-!
# URLs that their own pattern matches

A pattern describes the path that is built from it, if its placeholders accept their values in the
form in which these stand there. The URL has this path in normal form, however, and the matcher
knows nothing of normal forms. So the URL is matched if and only if the pattern describes the normal
path as it is written or with its escapes read (`Matcher.Serves.match?_build_isSome`).

* Without constraints the path that is built is described as it is written, and is matched if it is
  normal (`Pattern.match?_build_isSome_iff`). A slash that is lost on the way to the normal form may
  be missed (`Pattern.match?_build_without_slash`).
* With constraints it is described with its escapes read if the values are accepted as they are
  given, and is matched if it is normal (`Pattern.match?_build_of_accepts`).
-/

namespace UrlRouting

open Url

variable {placement : OptionalPlacement} {t : Text} {p : Pattern} {m : Matcher} {params : Params}

/-- A URL that is built is matched if and only if the pattern describes its path in normal form, as
it is written or with its escapes read. -/
theorem Matcher.Serves.match?_build_isSome {rs : List Regex} {ms : List Nat}
    (serves : m.Serves p rs ms) (unmarked : '?' ∉ path params p.nodes) :
    let path := normalPath p.endsWithSlash (path params p.nodes)
    (m.match? (build p params)).isSome = true ↔
      (∃ vs, p.Describes path vs) ∨ ∃ vs, p.Describes (Percent.decode path) vs := by
  rw [serves.match?_isSome, location_build unmarked]

namespace Pattern

/-- The parts of a pattern take the path that is built from it, if its placeholders accept the form
of the values that they are rendered with. -/
theorem exists_decomposes_pathAs (form : Text → Text) (given : params.Completes p.nodes)
    (accepts : ∀ q ∈ p.placeholders, ∀ v, (q.name, v) ∈ p.rendered params → q.Accepts (form v)) :
    ∃ vs, Node.Decomposes p.nodes (pathAs form params p.nodes) vs := by
  rw [← rendered_eq_leaves] at accepts
  exact ⟨_, decomposes_pathAs form p.nodes accepts (isComplete_iff.mpr given)⟩

/-! ## Without constraints -/

/-- What is built from a pattern without constraints is described by the pattern as long as its
slashes have not been put in order. The URL is matched if and only if the pattern describes the path
in normal form, too, as it is written or with its escapes read. It is matched if there have been
single slashes only, and none at the end but one that the pattern ends in or that is all there is.
-/
theorem match?_build_isSome_iff (h : compile placement t = .ok (p, m))
    (free : ∀ q ∈ p.placeholders, q.constraint = none) (unmarked : ∀ s ∈ p.literals, '?' ∉ s)
    (params : Params) (given : params.Completes p.nodes) :
    let rendered := (p.kept params).flatMap (Leaf.text params)
    let path := normalPath p.endsWithSlash rendered
    (∃ vs, p.Describes rendered vs) ∧
      ((m.match? (build p params)).isSome = true ↔
        (∃ vs, p.Describes path vs) ∨ ∃ vs, p.Describes (Percent.decode path) vs) ∧
      (¬ ['/', '/'] <:+: rendered →
        (p.endsWithSlash = false → rendered.getLast? = some '/' → rendered = ['/']) →
        (m.match? (build p params)).isSome = true) := by
  intro rendered path
  obtain ⟨rs, ms, serves⟩ := (plain_of_free free).serves h
  have whole : Url.path params p.nodes = rendered := path_eq_leaves p params
  have taken := decomposes_path p.nodes free (isComplete_iff.mpr given)
  have matched := serves.match?_build_isSome (unmarked_path unmarked params)
  rw [whole] at taken matched
  refine ⟨⟨_, .inl taken⟩, matched, fun single last => matched.mpr (.inl ?_)⟩
  rw [normalPath_of_single (single_of_not_isInfix single) last]
  exact ⟨_, .of_decomposes taken⟩

/-- An optional part that is dropped in the middle of a path, and one at the end that is not. Its
value has reserved characters. -/
theorem match?_build_in_order : ∃ p m, ∃ params : Params,
    compile .anywhere "/a[/{b}-{c}]/d%[{e}]".toList = .ok (p, m) ∧
      (∀ q ∈ p.placeholders, q.constraint = none) ∧ params.Completes p.nodes ∧
      build p params = "/a/d%x%2F%252F%3F?b=y".toList ∧
      (m.match? (build p params)).isSome = true := by
  let params : Params := .ofList [("e".toList, "x/%2F?".toList), ("b".toList, "y".toList)]
  obtain ⟨⟨p, m⟩, compiled, holds⟩ := exists_ok_of_any
    (compile .anywhere "/a[/{b}-{c}]/d%[{e}]".toList)
    (fun x => decide ((∀ q ∈ x.1.placeholders, q.constraint = none) ∧
      (∀ s ∈ x.1.literals, '?' ∉ s) ∧ params.Completes x.1.nodes ∧
      (x.1.kept params).flatMap (Leaf.text params) = "/a/d%x%2F%252F%3F".toList ∧
      build x.1 params = "/a/d%x%2F%252F%3F?b=y".toList))
    (by decide +kernel)
  obtain ⟨free, unmarked, given, rendered, built⟩ := of_decide_eq_true holds
  refine ⟨p, m, params, compiled, free, given, built, ?_⟩
  have matched := (match?_build_isSome_iff compiled free unmarked params given).2.2
  rw [rendered] at matched
  exact matched (by decide +kernel) fun _ last => absurd last (by decide +kernel)

/-- The slash in front of an optional part that is dropped is lost at the end of the path. Nothing
that the pattern describes is left, though the pattern begins with a slash and no two of them are in
a row. -/
theorem match?_build_without_slash : ∃ p m,
    compile .anywhere "/users/[{id}]".toList = .ok (p, m) ∧
      (∀ q ∈ p.placeholders, q.constraint = none) ∧
      (∃ t ns, p.nodes = .literal t :: ns ∧ t.head? = some '/') ∧
      (∀ s ∈ p.literals, '?' ∉ s ∧ ¬ ['/', '/'] <:+: s) ∧
      Params.Completes .empty p.nodes ∧
      build p .empty = "/users".toList ∧ m.match? (build p .empty) = none := by
  obtain ⟨⟨p, m⟩, compiled, holds⟩ := exists_ok_of_any
    (compile .anywhere "/users/[{id}]".toList)
    (fun x => decide ((∀ q ∈ x.1.placeholders, q.constraint = none) ∧
      (∃ n ∈ x.1.nodes.head?, n.beginsWithSlash = true) ∧
      (∀ s ∈ x.1.literals, '?' ∉ s ∧ ¬ ['/', '/'] <:+: s) ∧
      Params.Completes .empty x.1.nodes ∧
      build x.1 .empty = "/users".toList ∧ (x.2.match? "/users".toList).isNone))
    (by decide +kernel)
  obtain ⟨free, ⟨n, first, begins⟩, plain, given, built, unmatched⟩ := of_decide_eq_true holds
  obtain ⟨ns, nodes⟩ := List.head?_eq_some_iff.mp first
  obtain ⟨t, rfl, slash⟩ := Node.exists_literal_of_beginsWithSlash begins
  refine ⟨p, m, compiled, free, ⟨t, ns, nodes, slash⟩, plain, given, built, ?_⟩
  rw [built]
  exact Option.isNone_iff_eq_none.mp unmatched

/-! ## With constraints -/

/-- What is built from values that the placeholders accept is matched, if no literal text has a
percent sign or a question mark and the path is in normal form. It may have to be read with its
escapes, since the placeholders accept the values as they are given. -/
theorem match?_build_of_accepts (h : compile placement t = .ok (p, m)) (plain : p.Plain)
    (literal : ∀ s ∈ p.literals, '%' ∉ s ∧ '?' ∉ s) (params : Params)
    (given : params.Completes p.nodes)
    (accepts : ∀ q ∈ p.placeholders, ∀ v, (q.name, v) ∈ p.rendered params → q.Accepts v)
    (normal : normalPath p.endsWithSlash ((p.kept params).flatMap (Leaf.text params)) =
      (p.kept params).flatMap (Leaf.text params)) :
    (m.match? (build p params)).isSome = true := by
  obtain ⟨rs, ms, serves⟩ := plain.serves h
  have unmarked := unmarked_path (fun s mem => (literal s mem).2) params
  refine (serves.match?_build_isSome unmarked).mpr (.inr ?_)
  rw [path_eq_leaves, normal, ← path_eq_leaves, decode_path fun s mem => (literal s mem).1]
  obtain ⟨vs, taken⟩ := exists_decomposes_pathAs id given accepts
  exact ⟨vs, .inl taken⟩

/-- Values with blanks and a percent sign are accepted as they are given, and an optional part with
other text around it is rendered. -/
theorem match?_build_escaped : ∃ p m, ∃ params : Params,
    compile .anywhere "/\x7ba:[a-z ]+\x7d[-\x7bb:[0-9]+|%\x7d]/x[/{c}]".toList = .ok (p, m) ∧
      params.Completes p.nodes ∧ build p params = "/a%20b-%25/x/q%3F".toList ∧
      (m.match? (build p params)).isSome = true := by
  let params : Params := .ofList [("a".toList, "a b".toList), ("b".toList, "%".toList),
    ("c".toList, "q?".toList)]
  obtain ⟨⟨p, m⟩, compiled, holds⟩ := exists_ok_of_any
    (compile .anywhere "/\x7ba:[a-z ]+\x7d[-\x7bb:[0-9]+|%\x7d]/x[/{c}]".toList)
    (fun x => decide (x.1.Plain ∧ (∀ s ∈ x.1.literals, '%' ∉ s ∧ '?' ∉ s) ∧
      params.Completes x.1.nodes ∧
      (∀ q ∈ x.1.placeholders, ∀ e ∈ x.1.rendered params, e.1 = q.name → q.takes e.2 = true) ∧
      (x.1.kept params).flatMap (Leaf.text params) = "/a%20b-%25/x/q%3F".toList ∧
      x.1.endsWithSlash = false ∧ build x.1 params = "/a%20b-%25/x/q%3F".toList))
    (by decide +kernel)
  obtain ⟨plain, literal, given, taken, rendered, slash, built⟩ := of_decide_eq_true holds
  refine ⟨p, m, params, compiled, given, built, ?_⟩
  refine match?_build_of_accepts compiled plain literal params given (fun q mem v entry => ?_) ?_
  · exact Placeholder.accepts_of_takes (taken q mem _ entry rfl)
  · rw [rendered, slash]
    decide +kernel

end Pattern

end UrlRouting
