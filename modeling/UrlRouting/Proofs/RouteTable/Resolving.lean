import UrlRouting.Proofs.Pattern.RoundTrip
import UrlRouting.Proofs.RouteTable.Making

/-!
# Resolving URLs of a table

A URL that a table makes for a route with a segment-shaped pattern is resolved by the table, by the
first route whose matcher accepts its path (`RouteTable.resolve?_url`). The base URL, whatever it
is, stands before that path and is taken away again (`RouteTable.withoutBase_append`).
-/

namespace UrlRouting

open Url

/-! ## Routes -/

namespace Pattern

variable {placement : OptionalPlacement} {t : Text} {p p' : Pattern}

/-- A text is the same pattern wherever optional parts may stand. -/
theorem eq_of_parse {placement' : OptionalPlacement} (h : parse placement t = .ok p)
    (h' : parse placement' t = .ok p') : p = p' := by
  obtain ⟨wellFormed, written⟩ := wellFormed_of_parse h
  obtain ⟨wellFormed', written'⟩ := wellFormed_of_parse h'
  exact Except.ok.inj ((wellFormed.parse written).symm.trans (wellFormed'.parse written'))

theorem trailing_of_parse (h : parse .trailingOnly t = .ok p) : Node.TrailingList p.nodes :=
  trailing_of_scan (parse_eq_ok.mp h).1

/-- A text with a slash at its beginning writes a pattern with one. -/
theorem exists_first_of_parse (h : parse placement ('/' :: t) = .ok p) :
    ∃ n ∈ p.nodes.head?, n.beginsWithSlash = true := by
  obtain ⟨wellFormed, written⟩ := wellFormed_of_parse h
  obtain ⟨ns⟩ := p
  have shaped : Node.ShapedList ns := wellFormed.shaped
  generalize whole : '/' :: t = u at written
  cases written with
  | nil => cases whole
  | placeholder => cases whole
  | optional => cases whole
  | @literal s u ns rest =>
    obtain ⟨c, s, rfl⟩ := List.exists_cons_of_ne_nil shaped.1.1
    cases whole
    exact ⟨_, rfl, rfl⟩

end Pattern

namespace Route

variable {placement : OptionalPlacement} {name : Text} {d : RouteDefinition} {r : Route}

/-- A route holds the pattern that its template writes, and the matcher of this pattern. -/
theorem compile_of_ofDefinition (h : ofDefinition placement name d = .ok r) :
    r.template = templateOf d.uri ∧
      Pattern.compile placement r.template = .ok (r.pattern, r.matcher) := by
  unfold ofDefinition at h
  dsimp only at h
  split at h
  next => cases h
  next p m compiled =>
    split at h
    next => cases h
    next =>
      cases h
      exact ⟨rfl, compiled⟩

/-- The matcher of a route goes by segments if the pattern is one of segments. Its slash at the
beginning comes from the template. -/
theorem segmental_of_ofDefinition (h : ofDefinition placement name d = .ok r)
    (trailing : ∃ p, Pattern.parse .trailingOnly r.template = .ok p)
    (segmented : Node.SegmentedList false none r.pattern.nodes) :
    r.matcher.Segmental r.pattern := by
  obtain ⟨template, compiled⟩ := compile_of_ofDefinition h
  obtain ⟨p, parsed⟩ := trailing
  have parsed' := (Pattern.compile_eq_ok.mp compiled).1
  obtain rfl := Pattern.eq_of_parse parsed parsed'
  refine Pattern.SegmentShaped.segmental ⟨fun n mem => ?_, segmented⟩ compiled
    (Pattern.trailing_of_parse parsed)
  rw [template] at parsed'
  obtain ⟨n', mem', first⟩ := Pattern.exists_first_of_parse parsed'
  obtain rfl := Option.mem_unique mem mem'
  exact first

end Route

namespace RouteTable

/-! ## The base -/

theorem dropBeginning_append (b t : Text) : Text.dropBeginning b (b ++ t) = some t := by
  induction b with
  | nil => rfl
  | cons c b ih => rw [List.cons_append, Text.dropBeginning, if_pos rfl, ih]

/-- A base in front of a path is taken away. -/
theorem withoutBase_append {path : Text} (first : path.head? = some '/') (base : Text) :
    withoutBase base (base ++ path) = path := by
  obtain ⟨t, rfl⟩ := List.head?_eq_some_iff.mp first
  rw [withoutBase, dropBeginning_append]
  dsimp only
  split <;> rfl

end RouteTable

/-! ## The round trip -/

/-- The URL that is built from a pattern of segments begins with a slash. -/
theorem Matcher.Segmental.head?_build {p : Pattern} {m : Matcher} {params : Params}
    (segmental : m.Segmental p) (complete : params.Completes p.nodes) :
    (build p params).head? = some '/' := by
  have complete := isComplete_iff.mpr complete
  have first : (p.builtPath params).head? = some '/' := by
    unfold Pattern.builtPath
    split
    next => rfl
    next some => exact (segmental.segments.pathlike complete).first.resolve_left some
  rw [(Pattern.build_eq_withQuery segmental.segments complete).1]
  exact head?_withQuery first _

theorem Route.match?_eq_some {r : Route} {url : Text} {found : RouteMatch} :
    r.match? url = some found ↔ r.allowsGet = true ∧ r.matcher.match? url = some found := by
  rw [Route.match?]
  split <;> simp [*]

namespace RouteTable

variable {table : RouteTable} {name : Text} {r : Route}

/-- A URL is resolved if it is matched by a route. -/
theorem exists_resolve? {url : Text} (known : table.route? name = some r) {found : RouteMatch}
    (matched : r.match? (withoutBase table.base url) = some found) :
    ∃ resolved, table.resolve? url = some resolved := by
  refine Option.isSome_iff_exists.mp (List.findSome?_isSome_iff.mpr ⟨(name, r), ?_, ?_⟩)
  · exact Entries.mem_of_get? known
  · dsimp only
    rw [matched]
    rfl

/-- What is found for a URL is the first route that matches it. -/
theorem first_of_resolve? {url : Text} {resolved : Resolved}
    (h : table.resolve? url = some resolved) :
    ∃ before r after, table.routes.toList = before ++ (resolved.name, r) :: after ∧
      r.match? (withoutBase table.base url) = some resolved.found ∧
      ∀ e ∈ before, e.2.match? (withoutBase table.base url) = none := by
  obtain ⟨before, ⟨n, r⟩, after, whole, here, none⟩ := List.findSome?_eq_some_iff.mp h
  obtain ⟨found, matched, rfl⟩ := Option.map_eq_some_iff.mp here
  exact ⟨before, r, after, whole, matched, fun e mem => Option.map_eq_none_iff.mp (none e mem)⟩

theorem route?_of_mem (mem : (name, r) ∈ table.routes.toList) : table.route? name = some r :=
  Entries.get?_of_mem table.routes.nodup mem

theorem eq_of_mem (known : table.route? name = some r) {r' : Route}
    (mem : (name, r') ∈ table.routes.toList) : r' = r :=
  Option.some.inj ((route?_of_mem mem).symm.trans known)

/-- A table resolves the URLs that it makes for a route which accepts GET, has a segment-shaped
pattern, and is given values for the placeholders outside of optional parts. The name that is found
is that of the first route which accepts GET and whose matcher accepts the URL of the route without
the base; it stands in the table where the route stands, or before. If it is the name of the route
itself, then the match gives back the placeholders that were rendered and, as its query, the other
parameters. -/
theorem resolve?_url {c : Config} (h : ofConfig c = .ok table) (known : table.route? name = some r)
    (get : r.allowsGet = true) (trailing : ∃ p, Pattern.parse .trailingOnly r.template = .ok p)
    (segmented : Node.SegmentedList false none r.pattern.nodes) (params : Params)
    (given : params.Completes r.pattern.nodes) :
    ∃ url resolved, table.url name params = .ok url ∧ table.resolve? url = some resolved ∧
      (∃ before found after, table.routes.toList = before ++ (resolved.name, found) :: after ∧
        found.allowsGet = true ∧ found.matcher.match? (r.url params) = some resolved.found ∧
        (∀ e ∈ before, e.2.allowsGet = true → e.2.matcher.match? (r.url params) = none) ∧
        name ∉ before.map Prod.fst) ∧
      (resolved.name = name → resolved.found.params.toList = r.pattern.rendered params ∧
        resolved.found.query.toList = r.pattern.unused params) := by
  obtain ⟨d, made⟩ := exists_definition h known
  have segmental := Route.segmental_of_ofDefinition made trailing segmented
  have first : (r.url params).head? = some '/' := segmental.head?_build given
  have own : r.match? (r.url params) = some (r.pattern.spread params) :=
    Route.match?_eq_some.mpr ⟨get, segmental.match?_build_eq given⟩
  have url : table.url name params = .ok (table.base ++ r.url params) := by
    rw [url, known]
    dsimp only
    rw [if_pos first]
  have relative := withoutBase_append first table.base
  have matched : r.match? (withoutBase table.base (table.base ++ r.url params)) =
      some (r.pattern.spread params) := by
    rw [relative]
    exact own
  obtain ⟨resolved, found⟩ := exists_resolve? known matched
  obtain ⟨before, r', after, whole, matched, missed⟩ := first_of_resolve? found
  rw [relative] at matched missed
  obtain ⟨get', accepted⟩ := Route.match?_eq_some.mp matched
  refine ⟨_, resolved, url, found, ⟨before, r', after, whole, get', accepted, ?_, ?_⟩, ?_⟩
  · intro e mem get
    have none := missed e mem
    rwa [Route.match?, if_pos get] at none
  · intro earlier
    obtain ⟨⟨n, r₀⟩, mem, same⟩ := List.mem_map.mp earlier
    obtain rfl : n = name := same
    obtain rfl : r₀ = r := eq_of_mem known (by rw [whole]; exact List.mem_append_left _ mem)
    have none := missed _ mem
    rw [own] at none
    cases none
  · rintro rfl
    obtain rfl : r' = r :=
      eq_of_mem known (by rw [whole]; exact List.mem_append_right _ List.mem_cons_self)
    rw [Option.some.inj (matched.symm.trans own)]
    exact ⟨Pattern.params_spread segmental.distinct, Pattern.query_spread _ params⟩

/-- A base with slashes at its end, behind a route that does not accept GET and before one that
matches the same URLs. -/
theorem resolve?_url_between : ∃ c table r, ∃ params : Params, ofConfig c = .ok table ∧
    c.url = "http://h/a//".toList ∧
    c.routes.toList.map (fun e => (e.1, e.2.uri)) =
      [("new".toList, "users/{x}".toList), ("show".toList, "users/{id}[/{tab}]/".toList),
        ("any".toList, "users/{slug}".toList)] ∧
    table.route? "show".toList = some r ∧ r.allowsGet = true ∧
    (∃ p, Pattern.parse .trailingOnly r.template = .ok p) ∧
    Node.SegmentedList false none r.pattern.nodes ∧ params.Completes r.pattern.nodes ∧
    params.toList = [("q".toList, "1".toList), ("tab".toList, []), ("id".toList, "a/b".toList)] ∧
    ∃ url resolved, table.url "show".toList params = .ok url ∧ table.resolve? url = some resolved ∧
      resolved.name = "show".toList ∧
      resolved.found.params.toList = [("id".toList, "a/b".toList)] ∧
      resolved.found.query.toList = [("q".toList, "1".toList), ("tab".toList, [])] := by
  let c : Config :=
    { url := "http://h/a//".toList
      routes := .ofList [("new".toList, ⟨"users/{x}".toList, ["POST".toList]⟩),
        ("show".toList, ⟨"users/{id}[/{tab}]/".toList, RouteDefinition.defaultMethods⟩),
        ("any".toList, ⟨"users/{slug}".toList, RouteDefinition.defaultMethods⟩)]
      placement := .anywhere }
  let params : Params :=
    .ofList [("q".toList, "1".toList), ("tab".toList, []), ("id".toList, "a/b".toList)]
  obtain ⟨table, made, holds⟩ := exists_ok_of_any (ofConfig c)
    (fun table => decide (∃ r ∈ table.route? "show".toList, r.allowsGet = true ∧
      (Pattern.parse .trailingOnly r.template).isOk = true ∧
      Node.SegmentedList false none r.pattern.nodes ∧ params.Completes r.pattern.nodes ∧
      r.pattern.rendered params = [("id".toList, "a/b".toList)] ∧
      r.pattern.unused params = [("q".toList, "1".toList), ("tab".toList, [])] ∧
      ∀ url ∈ (table.url "show".toList params).toOption, ∀ resolved ∈ table.resolve? url,
        resolved.name = "show".toList))
    (by decide +kernel)
  obtain ⟨r, known, get, trailing, segmented, complete, rendered, unused, own⟩ :=
    of_decide_eq_true holds
  have trailing : ∃ p, Pattern.parse .trailingOnly r.template = .ok p := by
    cases parsed : Pattern.parse .trailingOnly r.template with
    | ok p => exact ⟨p, rfl⟩
    | error e =>
      rw [parsed] at trailing
      cases trailing
  obtain ⟨url, resolved, written, found, -, back⟩ :=
    resolve?_url made known get trailing segmented params complete
  have name := own url (by rw [written]; rfl) resolved found
  obtain ⟨first, second⟩ := back name
  exact ⟨c, table, r, params, made, rfl, by decide +kernel, known, get, trailing, segmented,
    complete, by decide +kernel, url, resolved, written, found, name, first.trans rendered,
    second.trans unused⟩

end RouteTable

end UrlRouting
