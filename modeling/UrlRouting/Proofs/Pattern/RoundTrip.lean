import UrlRouting.Proofs.Pattern.Matching
import UrlRouting.Proofs.Url.Leaves
import UrlRouting.Proofs.Url.Segments

/-!
# Building a URL and matching it

The URL that is built from a segment-shaped pattern is matched again, and gives back the parameters
that the placeholders have used and the others apart (`Pattern.match?_build`).
-/

namespace UrlRouting

open Url

variable {placement : OptionalPlacement} {t : Text} {p : Pattern} {m : Matcher} {params : Params}

/-! ## The path -/

theorem Node.Segments.free {slash : Bool} {ns : List Node} (segments : Segments slash ns) :
    ∀ q ∈ placeholders.ofNodes ns, q.constraint = none := by
  induction segments with
  | nil => nofun
  | optional _ ih => simpa [placeholders.ofNodes, placeholders] using ih
  | last _ _ => nofun
  | front _ _ _ ih => simpa [placeholders.ofNodes, placeholders] using ih
  | value _ _ free _ ih =>
    intro q mem
    rcases List.mem_cons.mp mem with rfl | mem
    · exact free
    · exact ih q mem

/-- The path of a URL that is built: a slash if nothing else is built. -/
def Pattern.builtPath (p : Pattern) (params : Params) : Text :=
  if path params p.nodes = [] then ['/'] else path params p.nodes

namespace Pattern

/-- A pattern made of segments describes the path that is built from it in one way only. -/
theorem describes_builtPath (segments : Node.Segments p.endsWithSlash p.nodes)
    (complete : isComplete params p.nodes = true) (vs : List (Option Text)) :
    p.Describes (p.builtPath params) vs ↔ vs = takenOfNodes Percent.encode params p.nodes := by
  have built : p.Describes (p.builtPath params) (takenOfNodes Percent.encode params p.nodes) := by
    have taken := decomposes_path p.nodes segments.free complete
    exact .of_decomposes taken
  have tail {vs : List (Option Text)} (described : p.Describes (p.builtPath params) vs) :
      ∃ u r, Node.Decomposes p.nodes u vs ∧ (r = [] ∨ r = ['/']) ∧
        p.builtPath params = u ++ r := by
    rcases described with taken | ⟨u, whole, taken⟩
    · exact ⟨_, [], taken, .inl rfl, (List.append_nil _).symm⟩
    · exact ⟨u, ['/'], taken, .inr rfl, whole⟩
  constructor
  · intro described
    obtain ⟨u, r, taken, slash, whole⟩ := tail described
    obtain ⟨u', r', taken', slash', whole'⟩ := tail built
    exact segments.unique taken taken' slash slash' (whole.symm.trans whole')
  · rintro rfl
    exact built

/-- What a built URL consists of. -/
theorem build_eq_withQuery (segments : Node.Segments p.endsWithSlash p.nodes)
    (complete : isComplete params p.nodes = true) :
    build p params = withQuery (p.builtPath params) (p.unused params) ∧
      '?' ∉ p.builtPath params ∧ withoutOrigin (p.builtPath params) = p.builtPath params := by
  obtain ⟨-, unmarked, single, last⟩ := segments.pathlike complete
  have whole : build p params = withQuery (p.builtPath params) (p.unused params) := by
    rw [build_eq, normalPath_of_single single fun keep final => absurd final (last keep),
      remaining_eq_unused]
    rfl
  refine ⟨whole, ?_, ?_⟩
  · unfold Pattern.builtPath
    split
    next => decide
    next => exact unmarked
  · unfold Pattern.builtPath
    split
    next => rfl
    next => exact withoutOrigin_of_single single

/-- What a URL that is built from a pattern says: the placeholders that are rendered, and the other
parameters as its query. -/
def spread (p : Pattern) (params : Params) : RouteMatch :=
  ⟨.ofList (p.rendered params), .ofList (p.unused params)⟩

theorem params_spread (distinct : p.names.Nodup) :
    (p.spread params).params.toList = p.rendered params :=
  Keyed.toList_ofList ((keys_rendered_sublist p params).nodup distinct)

theorem query_spread (p : Pattern) (params : Params) :
    (p.spread params).query.toList = p.unused params :=
  Keyed.toList_ofList (nodup_keys_unused p params)

/-- What a URL says, put together again. -/
theorem toList_extend_spread (distinct : p.names.Nodup) :
    ((p.spread params).params.extend (p.spread params).query.toList).toList =
      p.rendered params ++ p.unused params := by
  rw [Keyed.toList_extend, params_spread distinct, query_spread]
  rw [params_spread distinct, query_spread, Entries.keys, List.map_append, List.nodup_append]
  refine ⟨(keys_rendered_sublist p params).nodup distinct, nodup_keys_unused p params, ?_⟩
  rintro key mem _ mem' rfl
  obtain ⟨e, unused, rfl⟩ := List.mem_map.mp mem'
  exact (mem_unused.mp unused).2 mem

end Pattern

/-! ## The round trip -/

/-- A matcher belongs to a pattern that is made of segments. -/
structure Matcher.Segmental (m : Matcher) (p : Pattern) : Prop where
  segments : Node.Segments p.endsWithSlash p.nodes
  serves : ∃ rs ms, m.Serves p rs ms
  distinct : p.names.Nodup

theorem Pattern.SegmentShaped.segmental (shaped : p.SegmentShaped)
    (h : Pattern.compile placement t = .ok (p, m)) (trailing : Node.TrailingList p.nodes) :
    m.Segmental p := by
  obtain ⟨parsed, -⟩ := Pattern.compile_eq_ok.mp h
  have wellFormed := (Pattern.wellFormed_of_parse parsed).1
  have segments := shaped.segments wellFormed.shaped trailing
  exact ⟨segments, (Pattern.plain_of_free segments.free).serves h, wellFormed.distinct⟩

namespace Matcher.Segmental

/-- What is extracted from a path that is built are the parameters that are rendered. -/
theorem extract?_builtPath (segmental : m.Segmental p) (complete : params.Completes p.nodes) :
    m.extract? (p.builtPath params) = some (.ofList (p.rendered params)) := by
  have complete := isComplete_iff.mpr complete
  obtain ⟨rs, ms, serves⟩ := segmental.serves
  have described := (Pattern.describes_builtPath segmental.segments complete _).mpr rfl
  obtain ⟨found, extracted⟩ :=
    Option.isSome_iff_exists.mp (serves.extract?_isSome.mpr ⟨_, described⟩)
  obtain ⟨vs, described, rfl⟩ := serves.describes_of_extract? extracted
  obtain rfl := (Pattern.describes_builtPath segmental.segments complete _).mp described
  rw [extracted, ← rendered_eq_leaves]
  exact congrArg (some ∘ Keyed.ofList) (bindings_takenOfNodes params p.nodes)

/-- What a match of a built URL says. -/
theorem match?_build_eq (segmental : m.Segmental p) (complete : params.Completes p.nodes) :
    m.match? (build p params) = some (p.spread params) := by
  obtain ⟨whole, unmarked, path⟩ :=
    Pattern.build_eq_withQuery segmental.segments (isComplete_iff.mpr complete)
  unfold Matcher.match?
  rw [whole, splitFirst_withQuery unmarked]
  dsimp only
  rw [path, segmental.extract?_builtPath complete]
  dsimp only [Option.some_or, Option.map_some]
  rw [Params.ofQuery, read_queryOf?]
  rfl

end Matcher.Segmental

namespace Pattern

theorem trailing_of_compile (h : compile .trailingOnly t = .ok (p, m)) :
    Node.TrailingList p.nodes := by
  obtain ⟨scanned, -⟩ := parse_eq_ok.mp (compile_eq_ok.mp h).1
  exact trailing_of_scan scanned

/-- A URL that is built from a segment-shaped pattern is matched, if the placeholders outside of
optional parts are filled. The match gives the placeholders that were rendered, in the order of the
pattern and with the values of the parameters, and as its query the other parameters in the order in
which they were given. The same URL is built from both together. -/
theorem match?_build (h : compile .trailingOnly t = .ok (p, m)) (shaped : p.SegmentShaped)
    (params : Params) (given : params.Completes p.nodes) :
    ∃ found, m.match? (build p params) = some found ∧
      found.params.toList = p.rendered params ∧ found.query.toList = p.unused params ∧
      build p (found.params.extend found.query.toList) = build p params := by
  have segmental := shaped.segmental h (trailing_of_compile h)
  exact ⟨_, segmental.match?_build_eq given, params_spread segmental.distinct,
    query_spread p params, build_of_toList (toList_extend_spread segmental.distinct)⟩

/-- Reserved characters and letters outside of ASCII survive, and the inner one of two optional
parts is dropped. -/
theorem match?_build_reserved : ∃ p m, ∃ params : Params,
    compile .trailingOnly "/users/{id}/posts[/{tab}[/{page}]]".toList = .ok (p, m) ∧
      p.SegmentShaped ∧ params.Completes p.nodes ∧
      params.toList = [("q/".toList, "&=".toList), ("tab".toList, "ü ?".toList),
        ("page".toList, []), ("id".toList, "a/b%2f+".toList)] ∧
      ∃ found, m.match? (build p params) = some found ∧
        found.params.toList = [("id".toList, "a/b%2f+".toList), ("tab".toList, "ü ?".toList)] ∧
        found.query.toList = [("q/".toList, "&=".toList), ("page".toList, [])] ∧
        build p (found.params.extend found.query.toList) = build p params := by
  let params : Params := .ofList [("q/".toList, "&=".toList), ("tab".toList, "ü ?".toList),
    ("page".toList, []), ("id".toList, "a/b%2f+".toList)]
  obtain ⟨⟨p, m⟩, compiled, holds⟩ := exists_ok_of_any
    (compile .trailingOnly "/users/{id}/posts[/{tab}[/{page}]]".toList)
    (fun x => decide (x.1.SegmentShaped ∧ params.Completes x.1.nodes ∧
      x.1.rendered params = [("id".toList, "a/b%2f+".toList), ("tab".toList, "ü ?".toList)] ∧
      x.1.unused params = [("q/".toList, "&=".toList), ("page".toList, [])]))
    (by decide +kernel)
  obtain ⟨shaped, complete, rendered, unused⟩ := of_decide_eq_true holds
  refine ⟨p, m, params, compiled, shaped, complete, by decide +kernel, ?_⟩
  rw [← rendered, ← unused]
  exact match?_build compiled shaped params complete

end Pattern

end UrlRouting
