import Mathlib.Data.List.Nodup
import UrlRouting.Proofs.Pattern.Guard
import UrlRouting.Proofs.Url.Leaves

/-!
# What becomes of parameters

Building a URL uses each parameter once (`Pattern.build_uses_each_once`): it is either the value of
one placeholder in the path or one pair of the query, which is read back as the parameters that no
placeholder has used. An optional part that is not complete gives back the parameters of everything
in it.
-/

namespace UrlRouting

open Url

variable {placement : OptionalPlacement} {t : Text} {p : Pattern}

namespace Pattern

/-- What is rendered, and what is not used, are all parameters. -/
theorem rendered_append_unused_perm (distinct : p.names.Nodup) (params : Params) :
    (p.rendered params ++ p.unused params).Perm params.toList := by
  have given {e : Text × Text} (mem : e ∈ p.rendered params) : params.get? e.1 = some e.2 := by
    rw [← rendered_eq_leaves] at mem
    exact (get?_of_mem_rendered params p.nodes e mem).1
  refine (List.perm_ext_iff_of_nodup ?_ (List.Nodup.of_map Prod.fst params.nodup)).mpr fun e => ?_
  · refine List.nodup_append.mpr ⟨?_, ?_, ?_⟩
    · exact List.Nodup.of_map Prod.fst ((keys_rendered_sublist p params).nodup distinct)
    · exact (List.Nodup.of_map Prod.fst params.nodup).filter _
    · rintro e mem _ unused rfl
      exact (mem_unused.mp unused).2 (List.mem_map_of_mem mem)
  · rw [List.mem_append]
    constructor
    · rintro (mem | mem)
      · exact Entries.mem_of_get? (given mem)
      · exact (mem_unused.mp mem).1
    · intro mem
      by_cases used : e.1 ∈ (p.rendered params).keys
      · obtain ⟨e', mem', same⟩ := List.mem_map.mp used
        have value : params.get? e.1 = some e.2 := Entries.get?_of_mem params.nodup mem
        rw [← same, given mem'] at value
        have whole : e' = e := Prod.ext same (Option.some.inj value)
        exact .inl (whole ▸ mem')
      · exact .inr (mem_unused.mpr ⟨mem, used⟩)

theorem unused_eq_nil {params : Params} :
    p.unused params = [] ↔ ∀ key ∈ params.keys, key ∈ (p.rendered params).keys := by
  have keys : params.keys = params.toList.map Prod.fst := rfl
  rw [unused, List.filter_eq_nil_iff, keys, List.forall_mem_map]
  simp

/-- A URL is built of the texts of the leaves that are kept, in order, as a path with single
slashes. Behind it stands a query if a parameter has not been used. It is read back as all
parameters that have not been used, in the order in which they were given. No parameter is lost or
used twice. -/
theorem build_uses_each_once (h : parse placement t = .ok p) (params : Params) :
    let path := normalPath p.endsWithSlash ((p.kept params).flatMap (Leaf.text params))
    (p.rendered params ++ p.unused params).Perm params.toList ∧
      ((∀ key ∈ params.keys, key ∈ (p.rendered params).keys) → build p params = path) ∧
      ((∃ key ∈ params.keys, key ∉ (p.rendered params).keys) → ∃ query,
        build p params = path ++ (if '?' ∈ path then '&' else '?') :: query ∧
          (Params.ofQuery query).toList = p.unused params) := by
  intro path
  have whole : build p params = withQuery path (p.unused params) := build_eq_leaves p params
  refine ⟨rendered_append_unused_perm (wellFormed_of_parse h).1.distinct params, ?_, ?_⟩
  · intro all
    rw [whole, withQuery, if_pos (unused_eq_nil.mpr all)]
  · rintro ⟨key, mem, other⟩
    have some : p.unused params ≠ [] := fun none => other (unused_eq_nil.mp none key mem)
    refine ⟨Text.joinWith '&' ((p.unused params).map queryPair), ?_, ?_⟩
    · rw [whole, withQuery, if_neg some]
      simp
    · have read := read_queryOf? (p.unused params)
      rw [queryOf?, if_neg some, Option.getD_some] at read
      rw [Params.ofQuery, read]
      exact Keyed.toList_ofList (nodup_keys_unused p params)

/-- An optional part that is not complete gives back the parameters of the part inside it. The path
has a question mark, so that the query stands behind an ampersand. -/
theorem build_gives_back : ∃ p, ∃ params : Params,
    parse .anywhere "/s?v=1[/{a}/{b}[/{c}]]/{d}".toList = .ok p ∧
      params.toList = [("c".toList, "1".toList), ("d".toList, "é".toList), ([], []),
        ("a".toList, "x+&y".toList)] ∧
      (p.rendered params ++ p.unused params).Perm params.toList ∧
      ∃ query, build p params = "/s?v=1/%C3%A9&".toList ++ query ∧
        (Params.ofQuery query).toList =
          [("c".toList, "1".toList), ([], []), ("a".toList, "x+&y".toList)] := by
  let params : Params := .ofList [("c".toList, "1".toList), ("d".toList, "é".toList), ([], []),
    ("a".toList, "x+&y".toList)]
  obtain ⟨p, parsed, holds⟩ :=
    exists_ok_of_any (parse .anywhere "/s?v=1[/{a}/{b}[/{c}]]/{d}".toList)
    (fun p => decide (normalPath p.endsWithSlash ((p.kept params).flatMap (Leaf.text params)) =
        "/s?v=1/%C3%A9".toList ∧ "c".toList ∉ (p.rendered params).keys ∧
      p.unused params = [("c".toList, "1".toList), ([], []), ("a".toList, "x+&y".toList)]))
    (by decide +kernel)
  obtain ⟨path, dropped, unused⟩ := of_decide_eq_true holds
  obtain ⟨all, -, behind⟩ := build_uses_each_once parsed params
  obtain ⟨query, whole, read⟩ := behind ⟨"c".toList, by decide +kernel, dropped⟩
  refine ⟨p, params, parsed, by decide +kernel, all, query, ?_, read.trans unused⟩
  rw [whole, path, if_pos (by decide)]
  rfl

end Pattern

end UrlRouting
