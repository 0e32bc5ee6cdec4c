import UrlRouting.Proofs.Pattern.Agreement
import UrlRouting.Proofs.Pattern.RoundTrip

/-!
# Segments with constraints

A pattern with constraints is made of segments if it is so without them (`Pattern.bare`).
Constraints have no part in what is built, and so the path is in normal form
(`Pattern.pathlike_of_bare`).

The matcher reads a location in one form for all placeholders, as it is written or with its escapes
read. A constraint may accept a value only as it was given, while a placeholder without a constraint
needs the slashes of its value escaped. The URL is matched if one of the forms serves both
(`Pattern.match?_build_of_one_form`), and may be missed if they need different ones
(`Pattern.match?_build_of_two_forms`).
-/

namespace UrlRouting

open Url

/-! ## Patterns without their constraints -/

namespace Node

mutual

/-- A part without its constraints. -/
def bare : Node → Node
  | literal t => literal t
  | placeholder q => placeholder { q with constraint := none }
  | optional children => optional (bareList children)

/-- The parts of a list without their constraints. -/
def bareList : List Node → List Node
  | [] => []
  | n :: ns => n.bare :: bareList ns

end

theorem bareList_eq_map (ns : List Node) : bareList ns = ns.map bare := by
  induction ns with
  | nil => rfl
  | cons n ns ih => rw [bareList, ih, List.map_cons]

theorem isLiteral_bare (n : Node) : n.bare.isLiteral = n.isLiteral := by
  cases n <;> rfl

theorem isOptional_bare (n : Node) : n.bare.isOptional = n.isOptional := by
  cases n <;> rfl

theorem literalFirst_bareList (ns : List Node) :
    literalFirst (bareList ns) = literalFirst ns := by
  cases ns with
  | nil => rfl
  | cons n ns => exact isLiteral_bare n

theorem bareList_eq_nil {ns : List Node} : bareList ns = [] ↔ ns = [] := by
  rw [bareList_eq_map, List.map_eq_nil_iff]

mutual

theorem shaped_bare (n : Node) (shaped : n.Shaped) : n.bare.Shaped := by
  match n with
  | .literal t => exact shaped
  | .placeholder q => trivial
  | .optional children =>
    exact ⟨mt bareList_eq_nil.mp shaped.1, shapedList_bareList children shaped.2⟩

theorem shapedList_bareList (ns : List Node) (shaped : ShapedList ns) :
    ShapedList (bareList ns) := by
  match ns with
  | [] => trivial
  | n :: ns =>
    obtain ⟨here, apart, rest⟩ := shaped
    refine ⟨shaped_bare n here, ?_, shapedList_bareList ns rest⟩
    rwa [isLiteral_bare, literalFirst_bareList]

end

mutual

theorem trailing_bare (n : Node) (trailing : n.Trailing) : n.bare.Trailing := by
  match n with
  | .literal t => trivial
  | .placeholder q => trivial
  | .optional children => exact trailingList_bareList children trailing

theorem trailingList_bareList (ns : List Node) (trailing : TrailingList ns) :
    TrailingList (bareList ns) := by
  match ns with
  | [] => trivial
  | n :: ns =>
    obtain ⟨here, last, rest⟩ := trailing
    refine ⟨trailing_bare n here, ?_, trailingList_bareList ns rest⟩
    rwa [isOptional_bare, bareList_eq_nil]

end

end Node

/-- A pattern without its constraints. -/
def Pattern.bare (p : Pattern) : Pattern := ⟨Node.bareList p.nodes⟩

theorem Pattern.endsWithSlash_bare (p : Pattern) : p.bare.endsWithSlash = p.endsWithSlash := by
  have last : p.bare.nodes.getLast? = p.nodes.getLast?.map Node.bare := by
    rw [Pattern.bare, Node.bareList_eq_map, List.getLast?_map]
  rw [Pattern.endsWithSlash, Pattern.endsWithSlash, last]
  rcases p.nodes.getLast? with _ | _ | _ | _ <;> rfl

/-! ## What is built -/

namespace Url

variable {params : Params}

theorem isComplete_bareList (params : Params) (ns : List Node) :
    isComplete params (Node.bareList ns) = isComplete params ns := by
  induction ns with
  | nil => rfl
  | cons n ns ih =>
    rw [Node.bareList, isComplete, isComplete, List.all_cons, List.all_cons, ← isComplete,
      ← isComplete, ih]
    cases n <;> rfl

mutual

/-- Constraints have no part in what is built. -/
theorem pieces_bare (params : Params) (n : Node) : pieces params n.bare = pieces params n := by
  match n with
  | .literal t => rfl
  | .placeholder q => rfl
  | .optional children =>
    rw [Node.bare, pieces, pieces, isComplete_bareList, piecesOfNodes_bareList params children]

theorem piecesOfNodes_bareList (params : Params) (ns : List Node) :
    piecesOfNodes params (Node.bareList ns) = piecesOfNodes params ns := by
  match ns with
  | [] => rfl
  | n :: ns =>
    rw [Node.bareList, piecesOfNodes, piecesOfNodes, pieces_bare params n,
      piecesOfNodes_bareList params ns]

end

end Url

namespace Pattern

variable {placement : OptionalPlacement} {t : Text} {p : Pattern} {m : Matcher} {params : Params}

/-- The path that is built from segments with constraints has single slashes and none at its end. -/
theorem pathlike_of_bare (segmentShaped : p.bare.SegmentShaped) (shaped : Node.ShapedList p.nodes)
    (trailing : Node.TrailingList p.nodes) (given : params.Completes p.nodes) :
    Pathlike p.endsWithSlash (path params p.nodes) := by
  have segments := segmentShaped.segments (Node.shapedList_bareList _ shaped)
    (Node.trailingList_bareList _ trailing)
  have complete : isComplete params p.bare.nodes = true := by
    rw [Pattern.bare, isComplete_bareList]
    exact isComplete_iff.mpr given
  have pathlike := segments.pathlike complete
  rwa [path, Pattern.endsWithSlash_bare, Pattern.bare, piecesOfNodes_bareList] at pathlike

/-! ## One form for all values -/

/-- The parts of a pattern take the path that is built with values in one form, if this form has no
slash for placeholders without constraints and is accepted by the others. -/
theorem exists_decomposes_of_form {form : Text → Text} (nonempty : ∀ v, v ≠ [] → form v ≠ [])
    (given : params.Completes p.nodes)
    (free : ∀ q ∈ p.placeholders, q.constraint = none →
      ∀ v, (q.name, v) ∈ p.rendered params → '/' ∉ form v)
    (constrained : ∀ q ∈ p.placeholders, q.constraint ≠ none →
      ∀ v, (q.name, v) ∈ p.rendered params → q.Accepts (form v)) :
    ∃ vs, Node.Decomposes p.nodes (pathAs form params p.nodes) vs := by
  refine exists_decomposes_pathAs form given fun q mem v entry => ?_
  by_cases none : q.constraint = none
  · have unslashed := free q mem none v entry
    rw [← rendered_eq_leaves] at entry
    have filled := (get?_of_mem_rendered params p.nodes _ entry).2
    exact (Placeholder.accepts_iff none).mpr ⟨nonempty v filled, unslashed⟩
  · exact constrained q mem none v entry

/-- A slash in the place of an empty text is read as it is. -/
theorem decode_or_slash (t : Text) : Percent.decode (if t = [] then ['/'] else t) =
    if Percent.decode t = [] then ['/'] else Percent.decode t := by
  by_cases empty : t = []
  · rw [empty]
    rfl
  · rw [if_neg empty, if_neg (Percent.decode_ne_nil empty)]

/-- A URL that is built from segments is matched if and only if the pattern describes its path, as
it is written or with its escapes read. One form serves all placeholders if their constraints accept
the escaped values, too, or if no other value has a slash. -/
theorem match?_build_of_one_form (h : compile .trailingOnly t = .ok (p, m)) (plain : p.Plain)
    (shaped : p.bare.SegmentShaped) (unescaped : ∀ s ∈ p.literals, '%' ∉ s) (params : Params)
    (given : params.Completes p.nodes)
    (accepts : ∀ q ∈ p.placeholders, q.constraint ≠ none →
      ∀ v, (q.name, v) ∈ p.rendered params → q.Accepts v) :
    let rendered := (p.kept params).flatMap (Leaf.text params)
    let path := normalPath p.endsWithSlash rendered
    ((m.match? (build p params)).isSome = true ↔
      (∃ vs, p.Describes path vs) ∨ ∃ vs, p.Describes (Percent.decode path) vs) ∧
    ((∀ q ∈ p.placeholders, q.constraint ≠ none →
        ∀ v, (q.name, v) ∈ p.rendered params → q.Accepts (Percent.encode v)) ∨
      (∀ q ∈ p.placeholders, q.constraint = none →
        ∀ v, (q.name, v) ∈ p.rendered params → '/' ∉ v) →
      (m.match? (build p params)).isSome = true) := by
  intro rendered path
  obtain ⟨rs, ms, serves⟩ := plain.serves h
  have wellFormed := (wellFormed_of_parse (compile_eq_ok.mp h).1).1
  obtain ⟨-, unmarked, single, last⟩ :=
    pathlike_of_bare shaped wellFormed.shaped (trailing_of_compile h) given
  have matched := serves.match?_build_isSome unmarked
  have normal := normalPath_of_single single fun keep final => absurd final (last keep)
  refine ⟨by rwa [path_eq_leaves] at matched, fun oneForm => matched.mpr ?_⟩
  rw [normal]
  rcases oneForm with escaped | unslashed
  · obtain ⟨vs, taken⟩ := exists_decomposes_of_form (fun _ => Percent.encode_ne_nil) given
      (fun _ _ _ v _ => Percent.notMem_encode (by decide) v) escaped
    exact .inl ⟨vs, .of_decomposes taken⟩
  · obtain ⟨vs, taken⟩ := exists_decomposes_of_form (fun _ => id) given unslashed accepts
    rw [decode_or_slash, decode_path unescaped]
    exact .inr ⟨vs, .of_decomposes taken⟩

/-- Values that have a blank for the constraint and reserved characters elsewhere, but no slash. -/
theorem match?_build_decoded : ∃ p m, ∃ params : Params,
    compile .trailingOnly "/{a}/{b:[a-z ]+}[/{c}]".toList = .ok (p, m) ∧
      params.Completes p.nodes ∧ build p params = "/x%3Fy/a%20b/100%25".toList ∧
      (m.match? (build p params)).isSome = true := by
  let params : Params := .ofList [("a".toList, "x?y".toList), ("b".toList, "a b".toList),
    ("c".toList, "100%".toList)]
  obtain ⟨⟨p, m⟩, compiled, holds⟩ := exists_ok_of_any
    (compile .trailingOnly "/{a}/{b:[a-z ]+}[/{c}]".toList)
    (fun x => decide (x.1.Plain ∧ x.1.bare.SegmentShaped ∧ (∀ s ∈ x.1.literals, '%' ∉ s) ∧
      params.Completes x.1.nodes ∧
      (∀ q ∈ x.1.placeholders, q.constraint ≠ none →
        ∀ e ∈ x.1.rendered params, e.1 = q.name → q.takes e.2 = true) ∧
      (∀ q ∈ x.1.placeholders, q.constraint = none →
        ∀ e ∈ x.1.rendered params, e.1 = q.name → '/' ∉ e.2) ∧
      build x.1 params = "/x%3Fy/a%20b/100%25".toList))
    (by decide +kernel)
  obtain ⟨plain, shaped, unescaped, given, taken, unslashed, built⟩ := of_decide_eq_true holds
  refine ⟨p, m, params, compiled, given, built, ?_⟩
  refine (match?_build_of_one_form compiled plain shaped unescaped params given
    fun q mem some v entry => ?_).2 (.inr fun q mem none v entry => ?_)
  · exact Placeholder.accepts_of_takes (taken q mem some _ entry rfl)
  · exact unslashed q mem none _ entry rfl

/-- One value needs its slash escaped, and the constraint accepts the other with its blank read
only. No form of the location serves both, and the URL is missed. -/
theorem match?_build_of_two_forms : ∃ p m, ∃ params : Params,
    compile .trailingOnly "/{a}/{b:[a-z ]+}".toList = .ok (p, m) ∧ p.Plain ∧
      p.bare.SegmentShaped ∧ (∀ s ∈ p.literals, '%' ∉ s) ∧ params.Completes p.nodes ∧
      params.toList = [("a".toList, "x/y".toList), ("b".toList, "a b".toList)] ∧
      (∀ q ∈ p.placeholders, q.constraint ≠ none →
        ∀ v, (q.name, v) ∈ p.rendered params → q.Accepts v) ∧
      build p params = "/x%2Fy/a%20b".toList ∧ m.match? (build p params) = none := by
  let params : Params := .ofList [("a".toList, "x/y".toList), ("b".toList, "a b".toList)]
  obtain ⟨⟨p, m⟩, compiled, holds⟩ := exists_ok_of_any
    (compile .trailingOnly "/{a}/{b:[a-z ]+}".toList)
    (fun x => decide (x.1.Plain ∧ x.1.bare.SegmentShaped ∧ (∀ s ∈ x.1.literals, '%' ∉ s) ∧
      params.Completes x.1.nodes ∧
      params.toList = [("a".toList, "x/y".toList), ("b".toList, "a b".toList)] ∧
      (∀ q ∈ x.1.placeholders, q.constraint ≠ none →
        ∀ e ∈ x.1.rendered params, e.1 = q.name → q.takes e.2 = true) ∧
      build x.1 params = "/x%2Fy/a%20b".toList ∧ (x.2.match? "/x%2Fy/a%20b".toList).isNone))
    (by decide +kernel)
  obtain ⟨plain, shaped, unescaped, given, values, taken, built, missed⟩ := of_decide_eq_true holds
  refine ⟨p, m, params, compiled, plain, shaped, unescaped, given, values, ?_, built, ?_⟩
  · intro q mem some v entry
    exact Placeholder.accepts_of_takes (taken q mem some _ entry rfl)
  · rw [built]
    exact Option.isNone_iff_eq_none.mp missed

end Pattern

end UrlRouting
