import UrlRouting.Proofs.RouteTable.Resolving
import UrlRouting.Proofs.Url.Origin

/-!
# Absolute URLs

A URL may be given with its origin, which a matcher ignores, and with the base URL of a table, which
the table takes away. Either way it is treated as the relative URL that stands behind, and where
nothing but a query stands behind, as the URL `/` with this query (`absolute_eq_relative`).

What stands behind may hold `://` itself. A matcher sees a relative URL as it is, for it begins with
a slash; a table may take its base away from a relative URL too, if that begins with it.
-/

namespace UrlRouting

/-! ## Origins -/

namespace Matcher

open Url

/-- Two fronts of a URL are matched alike if they leave the same location. -/
theorem match?_congr_front (m : Matcher) {s u : Text} (free : '?' ∉ s) (free' : '?' ∉ u) (t : Text)
    (same : withoutOrigin (s ++ (Text.splitFirst '?' t).1) =
      withoutOrigin (u ++ (Text.splitFirst '?' t).1)) : m.match? (s ++ t) = m.match? (u ++ t) := by
  unfold match?
  rw [Text.splitFirst_append_of_notMem free, Text.splitFirst_append_of_notMem free']
  dsimp only
  rw [same]

variable (m : Matcher) (o : Origin)

/-- An origin in front of a path is ignored. -/
theorem match?_origin {p : Text} (first : p.head? = some '/') :
    m.match? (o.text ++ p) = m.match? p := by
  obtain ⟨t, rfl⟩ := List.head?_eq_some_iff.mp first
  have free : '?' ∉ o.text ++ ['/'] := by simp [o.notMem_text]
  rw [List.append_cons]
  refine m.match?_congr_front free (u := ['/']) (by decide) t ?_
  rw [List.append_assoc]
  exact (o.withoutOrigin_append (.inr rfl)).trans (withoutOrigin_slash _).symm

/-- An origin without a path stands for the path `/`. -/
theorem match?_origin_query {q : Text} (query : q = [] ∨ q.head? = some '?') :
    m.match? (o.text ++ q) = m.match? ('/' :: q) := by
  have empty : (Text.splitFirst '?' q).1 = [] := by
    rcases query with rfl | first
    · rfl
    · obtain ⟨t, rfl⟩ := List.head?_eq_some_iff.mp first
      rfl
  refine m.match?_congr_front o.notMem_text (u := ['/']) (by decide) q ?_
  rw [empty]
  exact (o.withoutOrigin_append (.inl rfl)).trans (withoutOrigin_slash _).symm

end Matcher

/-! ## Bases -/

namespace RouteTable

/-- A table resolves what is left of a URL without the base. -/
theorem resolve?_congr {table : RouteTable} {url url' : Text}
    (same : withoutBase table.base url = withoutBase table.base url') :
    table.resolve? url = table.resolve? url' := by
  unfold resolve?
  rw [same]

theorem withoutBase_of_not_prefix {base url : Text} (other : ¬ base <+: url) :
    withoutBase base url = url := by
  have none : Text.dropBeginning base url = none :=
    Option.not_isSome_iff_eq_none.mp (mt dropBeginning_isSome.mp other)
  rw [withoutBase, none]

/-- A base without a path stands for the path `/`. -/
theorem withoutBase_append_query {base q : Text} (nonempty : base ≠ [])
    (query : q = [] ∨ q.head? = some '?') : withoutBase base (base ++ q) = '/' :: q := by
  rw [withoutBase, dropBeginning_append]
  dsimp only
  rw [if_neg nonempty]
  rcases query with rfl | first
  · rfl
  · obtain ⟨t, rfl⟩ := List.head?_eq_some_iff.mp first
    rfl

end RouteTable

/-! ## Both -/

/-- A URL with an origin is matched as it is matched without it, and a URL with the base is resolved
as it is resolved without it, if what is left does not begin with the base by itself. Where no path
is left, it is `/`. -/
theorem absolute_eq_relative :
    (∀ (m : Matcher) (o : Url.Origin) (p q : Text), p.head? = some '/' →
      q = [] ∨ q.head? = some '?' →
      m.match? (o.text ++ p) = m.match? p ∧ m.match? (o.text ++ q) = m.match? ('/' :: q)) ∧
    ∀ (table : RouteTable) (p q : Text), table.base ≠ [] → p.head? = some '/' →
      q = [] ∨ q.head? = some '?' →
      (¬ table.base <+: p → table.resolve? (table.base ++ p) = table.resolve? p) ∧
      (¬ table.base <+: '/' :: q →
        table.resolve? (table.base ++ q) = table.resolve? ('/' :: q)) := by
  refine ⟨fun m o p q first query => ⟨m.match?_origin o first, m.match?_origin_query o query⟩,
    fun table p q nonempty first query => ⟨fun other => ?_, fun other => ?_⟩⟩
  · refine RouteTable.resolve?_congr ?_
    rw [RouteTable.withoutBase_append first, RouteTable.withoutBase_of_not_prefix other]
  · refine RouteTable.resolve?_congr ?_
    rw [RouteTable.withoutBase_append_query nonempty query,
      RouteTable.withoutBase_of_not_prefix other]

/-- A path that holds `://`, behind an origin with a port and behind a base with a path, and a query
alone. -/
theorem absolute_eq_relative_nested : ∃ (table : RouteTable) (m : Matcher) (o : Url.Origin),
    o.text = "HTTPS://h:80".toList ∧ table.base = "http://h/app".toList ∧
    (m.match? "/go/ftp://x?y".toList).isSome = true ∧
    m.match? "HTTPS://h:80/go/ftp://x?y".toList = m.match? "/go/ftp://x?y".toList ∧
    m.match? "HTTPS://h:80?y".toList = m.match? "/?y".toList ∧
    ¬ table.base <+: "/go/ftp://x?y".toList ∧ ¬ table.base <+: "/?y".toList ∧
    (table.resolve? "/go/ftp://x?y".toList).isSome = true ∧
    table.resolve? "http://h/app/go/ftp://x?y".toList = table.resolve? "/go/ftp://x?y".toList ∧
    (table.resolve? "/?y".toList).isSome = true ∧
    table.resolve? "http://h/app?y".toList = table.resolve? "/?y".toList := by
  let c : RouteTable.Config :=
    { url := "http://h/app/".toList
      routes := .ofList [("go".toList, ⟨"go/{target:.*}".toList, RouteDefinition.defaultMethods⟩),
        ("home".toList, ⟨[], RouteDefinition.defaultMethods⟩)]
      placement := .anywhere }
  let o : Url.Origin :=
    ⟨"HTTPS".toList, "h:80".toList, by decide +kernel, by decide +kernel⟩
  obtain ⟨table, -, holds⟩ := exists_ok_of_any (RouteTable.ofConfig c)
    (fun table => decide (table.base = "http://h/app".toList ∧
      (∃ r ∈ table.route? "go".toList, (r.matcher.match? "/go/ftp://x?y".toList).isSome = true) ∧
      (table.resolve? "/go/ftp://x?y".toList).isSome = true ∧
      (table.resolve? "/?y".toList).isSome = true)) (by decide +kernel)
  obtain ⟨base, ⟨r, -, matched⟩, path, root⟩ := of_decide_eq_true holds
  have other : ¬ table.base <+: "/go/ftp://x?y".toList := by
    rw [base]
    decide +kernel
  have other' : ¬ table.base <+: "/?y".toList := by
    rw [base]
    decide +kernel
  have nonempty : table.base ≠ [] := by
    rw [base]
    decide +kernel
  obtain ⟨behind, alone⟩ := absolute_eq_relative.1 r.matcher o "/go/ftp://x?y".toList "?y".toList
    rfl (.inr rfl)
  obtain ⟨behind', alone'⟩ := absolute_eq_relative.2 table "/go/ftp://x?y".toList "?y".toList
    nonempty rfl (.inr rfl)
  have behind' := behind' other
  have alone' := alone' other'
  rw [base] at behind' alone'
  exact ⟨table, r.matcher, o, rfl, base, matched, behind, alone, other, other', path, behind', root,
    alone'⟩

end UrlRouting
