import UrlRouting.Proofs.Pattern.RoundTrip

/-!
# Matching a URL and building it again

What a match of a URL says is enough to build a URL that says the same
(`Pattern.match?_build_of_match?`), however the URL that was matched had been written. A placeholder
that took part in a match has a value that is not empty, and it took part together with all others
directly in its optional part; so just these placeholders are rendered
(`Url.rendered_of_decomposes`).
-/

namespace UrlRouting

open Url

variable {t : Text} {p : Pattern} {m : Matcher} {params : Params}

/-! ## Values of placeholders -/

theorem Node.Decomposes.length_eq {ns : List Node} {vs : List (Option Text)}
    (taken : Decomposes ns t vs) : vs.length = (placeholders.ofNodes ns).length := by
  induction taken with
  | nil => rfl
  | literal _ ih => exact ih
  | placeholder _ _ ih => rw [List.length_cons, ih]; rfl
  | absent _ ih =>
    rw [List.length_append, List.length_replicate, ih, placeholders.ofNodes, List.length_append]
    rfl
  | present _ _ ihc ih =>
    rw [List.length_append, ihc, ih, placeholders.ofNodes, List.length_append]
    rfl

/-- The value that a name is bound to is what its placeholder took, its escapes read. -/
theorem get?_bindings {names : List Text} (distinct : names.Nodup) (vs : List (Option Text)) :
    ∀ e ∈ names.zip vs, (bindings names vs).get? e.1 = e.2.map Percent.decode := by
  induction names generalizing vs with
  | nil => nofun
  | cons name names ih =>
    obtain ⟨fresh, distinct⟩ := List.nodup_cons.mp distinct
    have absent (vs : List (Option Text)) : (bindings names vs).get? name = none :=
      Entries.get?_eq_none.mpr fun mem => fresh ((keys_bindings_sublist names vs).subset mem)
    match vs with
    | [] => nofun
    | v :: vs =>
      intro e mem
      rw [List.zip_cons_cons] at mem
      rcases List.mem_cons.mp mem with rfl | later
      · cases v with
        | none => exact absent vs
        | some v => exact if_pos rfl
      · have ne : name ≠ e.1 := by
          rintro rfl
          exact fresh (List.of_mem_zip later).1
        cases v with
        | none => exact ih distinct vs e later
        | some v => exact (if_neg ne).trans (ih distinct vs e later)

namespace Url

theorem rendered_eq_nil {ns : List Node} (unset : ∀ name ∈ Node.names ns, params.get? name = none) :
    rendered params ns = [] := by
  refine List.eq_nil_iff_forall_not_mem.mpr fun e mem => ?_
  have name : e.1 ∈ Node.names ns := by
    refine (keys_bindings_sublist (Node.names ns) (takenOfNodes Percent.encode params ns)).subset ?_
    rw [show bindings (Node.names ns) _ = _ from bindings_takenOfNodes params ns]
    exact List.mem_map_of_mem mem
  have value := (get?_of_mem_rendered params ns e mem).1
  rw [unset _ name] at value
  cases value

/-- An optional part without values is left out. -/
theorem entries_optional_of_unset {children : List Node}
    (unset : ∀ name ∈ Node.names children, params.get? name = none) :
    (pieces params (.optional children)).filterMap Piece.entry? = [] := by
  rw [pieces]
  split
  next => exact rendered_eq_nil unset
  next => rfl

/-- If the values of placeholders are what these took of a text, then the placeholders outside of
optional parts are filled, and those are rendered that took part. -/
theorem rendered_of_decomposes {ns : List Node} {vs : List (Option Text)}
    (taken : Node.Decomposes ns t vs)
    (free : ∀ q ∈ Node.placeholders.ofNodes ns, q.constraint = none)
    (values : ∀ e ∈ (Node.names ns).zip vs, params.get? e.1 = e.2.map Percent.decode) :
    isComplete params ns = true ∧ rendered params ns = bindings (Node.names ns) vs := by
  induction taken with
  | nil => exact ⟨rfl, rfl⟩
  | literal _ ih =>
    obtain ⟨complete, rendered⟩ := ih free values
    refine ⟨(isComplete_cons _ _ _).mpr ⟨fun _ same => absurd same (by simp), complete⟩, ?_⟩
    rw [rendered_cons, rendered]
    rfl
  | @placeholder q t u ns vs accepts _ ih =>
    have nonempty := ((Placeholder.accepts_iff (free q List.mem_cons_self)).mp accepts).1
    obtain ⟨here, rest⟩ := List.forall_mem_cons.mp values
    obtain ⟨complete, rendered⟩ := ih (fun q mem => free q (List.mem_cons_of_mem _ mem)) rest
    have value : filled? params q = some (Percent.decode t) :=
      filled?_eq_some.mpr ⟨here, Percent.decode_ne_nil nonempty⟩
    refine ⟨(isComplete_cons _ _ _).mpr ⟨fun q' same => ?_, complete⟩, ?_⟩
    · cases same
      exact ⟨_, value⟩
    · rw [rendered_cons, rendered, pieces, value]
      rfl
  | @absent children ns u vs _ ih =>
    have count : (Node.names children).length =
        (List.replicate (Node.placeholders.ofNodes children).length
          (none : Option Text)).length := by
      rw [Node.names, List.length_map, List.length_replicate]
    have split : Node.names (.optional children :: ns) = Node.names children ++ Node.names ns :=
      Node.names_cons _ ns
    rw [split, List.zip_append count] at values
    obtain ⟨inside, rest⟩ := List.forall_mem_append.mp values
    obtain ⟨complete, rendered⟩ := ih (fun q mem => free q (List.mem_append_right _ mem)) rest
    refine ⟨(isComplete_cons _ _ _).mpr ⟨fun _ same => absurd same (by simp), complete⟩, ?_⟩
    have unset : ∀ name ∈ Node.names children, params.get? name = none := by
      intro name mem
      obtain ⟨i, bound, rfl⟩ := List.mem_iff_getElem.mp mem
      refine inside ((Node.names children)[i], none) (List.mem_iff_getElem.mpr ⟨i, ?_, ?_⟩)
      · rw [List.length_zip, ← count, Nat.min_self]
        exact bound
      · simp
    rw [rendered_cons, entries_optional_of_unset unset, rendered, split, bindings_append count,
      bindings_replicate]
  | @present children ns t u ws vs inside _ ihc ih =>
    have count : (Node.names children).length = ws.length := by
      rw [inside.length_eq, Node.names, List.length_map]
    have split : Node.names (.optional children :: ns) = Node.names children ++ Node.names ns :=
      Node.names_cons _ ns
    rw [split, List.zip_append count] at values
    obtain ⟨within, rest⟩ := List.forall_mem_append.mp values
    obtain ⟨whole, renderedInside⟩ := ihc (fun q mem => free q (List.mem_append_left _ mem)) within
    obtain ⟨complete, rendered⟩ := ih (fun q mem => free q (List.mem_append_right _ mem)) rest
    refine ⟨(isComplete_cons _ _ _).mpr ⟨fun _ same => absurd same (by simp), complete⟩, ?_⟩
    rw [rendered_cons, rendered, split, bindings_append count, pieces, if_pos whole,
      ← renderedInside]
    rfl

end Url

/-! ## The round trip -/

/-- What a match of a URL says is what its location is cut into. -/
theorem Matcher.Segmental.decomposes_of_match? (segmental : m.Segmental p) {url : Text}
    {found : RouteMatch} (matched : m.match? url = some found) :
    ∃ u vs, Node.Decomposes p.nodes u vs ∧ found.params.toList = bindings p.names vs := by
  obtain ⟨rs, ms, serves⟩ := segmental.serves
  obtain ⟨params, extracted, rfl⟩ := Option.map_eq_some_iff.mp matched
  have described : ∃ form vs, p.Describes form vs ∧ params = .ofList (bindings p.names vs) := by
    rcases Option.or_eq_some_iff.mp extracted with here | ⟨-, here⟩ <;>
      exact ⟨_, serves.describes_of_extract? here⟩
  obtain ⟨form, vs, described, rfl⟩ := described
  have toList := Keyed.toList_ofList ((keys_bindings_sublist p.names vs).nodup segmental.distinct)
  rcases described with taken | ⟨u, -, taken⟩
  · exact ⟨form, vs, taken, toList⟩
  · exact ⟨u, vs, taken, toList⟩

namespace Pattern

/-- If a URL is matched by a segment-shaped pattern, and no key of its query is the name of a
placeholder, then the URL that is built from what the match says is matched too, and says the same
in the same order. -/
theorem match?_build_of_match? (h : compile .trailingOnly t = .ok (p, m)) (shaped : p.SegmentShaped)
    {url : Text} {found : RouteMatch} (matched : m.match? url = some found)
    (apart : ∀ key ∈ found.query.keys, key ∉ p.names) :
    m.match? (build p (found.params.extend found.query.toList)) = some found := by
  have segmental := shaped.segmental h (trailing_of_compile h)
  obtain ⟨u, vs, taken, given⟩ := segmental.decomposes_of_match? matched
  have bound := keys_bindings_sublist p.names vs
  have whole : (found.params.extend found.query.toList).toList =
      bindings p.names vs ++ found.query.toList := by
    rw [← given]
    refine Keyed.toList_extend ?_
    rw [given, Entries.keys, List.map_append, List.nodup_append]
    refine ⟨bound.nodup segmental.distinct, found.query.nodup, ?_⟩
    rintro key mem _ mem' rfl
    exact apart key mem' (bound.subset mem)
  generalize found.params.extend found.query.toList = params at whole
  have value (key : Text) : params.get? key =
      ((bindings p.names vs).get? key).or (found.query.get? key) := by
    rw [Keyed.get?, show params.entries = _ from whole, Entries.get?_append]
    rfl
  have values : ∀ e ∈ p.names.zip vs, params.get? e.1 = e.2.map Percent.decode := by
    intro e mem
    have none : found.query.get? e.1 = none :=
      Entries.get?_eq_none.mpr fun key => apart _ key (List.of_mem_zip mem).1
    rw [value, none, Option.or_none]
    exact get?_bindings segmental.distinct vs e mem
  obtain ⟨complete, rendered⟩ := rendered_of_decomposes taken segmental.segments.free values
  have rendered : p.rendered params = bindings p.names vs :=
    (rendered_eq_leaves p params).symm.trans rendered
  have unused : p.unused params = found.query.toList := by
    have used : (bindings p.names vs).filter
        (fun e => !(p.rendered params).keys.contains e.1) = [] := by
      refine List.filter_eq_nil_iff.mpr fun e mem => ?_
      have key : e.1 ∈ (bindings p.names vs).keys := List.mem_map_of_mem mem
      rw [rendered]
      simpa using key
    have kept : found.query.toList.filter (fun e => !(p.rendered params).keys.contains e.1) =
        found.query.toList := by
      refine List.filter_eq_self.mpr fun e mem => ?_
      have foreign : e.1 ∉ (bindings p.names vs).keys := fun key =>
        apart e.1 (List.mem_map_of_mem mem) (bound.subset key)
      rw [rendered]
      simpa using foreign
    rw [unused, whole, List.filter_append, used, kept, List.nil_append]
  rw [segmental.match?_build_eq (isComplete_iff.mp complete), spread, rendered, unused, ← given,
    Keyed.ofList_toList, Keyed.ofList_toList]

/-- A URL with an origin, a slash too much, and escapes, of which the decoded form is matched. -/
theorem match?_build_of_decoded : ∃ p m found,
    compile .trailingOnly "/users/{id}[/{tab}]".toList = .ok (p, m) ∧ p.SegmentShaped ∧
      m.match? "https://example.com/%75sers/a%252fb%C3/?q=1+2&q=%zz".toList = some found ∧
      found.params.toList = [("id".toList, "a/b\uFFFD".toList)] ∧
      found.query.toList = [("q".toList, "%zz".toList)] ∧
      (∀ key ∈ found.query.keys, key ∉ p.names) ∧
      m.match? (build p (found.params.extend found.query.toList)) = some found := by
  obtain ⟨⟨p, m⟩, compiled, holds⟩ := exists_ok_of_any
    (compile .trailingOnly "/users/{id}[/{tab}]".toList)
    (fun x => decide (x.1.SegmentShaped ∧
      ∃ found ∈ x.2.match? "https://example.com/%75sers/a%252fb%C3/?q=1+2&q=%zz".toList,
        found.params.toList = [("id".toList, "a/b\uFFFD".toList)] ∧
        found.query.toList = [("q".toList, "%zz".toList)] ∧
        ∀ key ∈ found.query.keys, key ∉ x.1.names))
    (by decide +kernel)
  obtain ⟨shaped, found, matched, params, query, apart⟩ := of_decide_eq_true holds
  exact ⟨p, m, found, compiled, shaped, matched, params, query, apart,
    match?_build_of_match? compiled shaped matched apart⟩

end Pattern

end UrlRouting
