import UrlRouting.Proofs.RouteTable.Resolving
import UrlRouting.Proofs.Url.NormalForm

/-!
# Joining URLs to the base

A template begins with a slash and has none at its end, unless that is all
(`Route.getLast?_templateOf`). So the first part of the pattern is literal text with a slash before
it, the last one has none behind it (`Route.nodes_of_endsWithSlash`), and the path of a URL begins
with a slash and ends in none. The base has no slash at its end, and a table puts the URL of a route
behind it as it is (`RouteTable.url_join`).
-/

namespace UrlRouting

open Url

/-! ## Templates -/

namespace Route

variable {placement : OptionalPlacement} {name : Text} {d : RouteDefinition} {r : Route}

theorem templateOf_eq (uri : Text) : templateOf uri = '/' :: Text.trim (· = '/') uri := rfl

/-- A template has a slash at its end only if that is all. -/
theorem getLast?_templateOf {uri : Text} (slash : (templateOf uri).getLast? = some '/') :
    templateOf uri = ['/'] := by
  obtain ⟨-, -, -, -, -, trimmed⟩ := Text.exists_margins (· = '/') uri
  rw [templateOf_eq] at slash ⊢
  generalize Text.trim (· = '/') uri = core at slash trimmed ⊢
  cases core with
  | nil => rfl
  | cons c t =>
    rw [List.getLast?_cons_cons] at slash
    have other := trimmed.last '/' slash
    cases other

/-- Slashes around a declaration are of no account. -/
theorem templateOf_slashes (uri : Text) (m n : Nat) :
    templateOf (List.replicate m '/' ++ uri ++ List.replicate n '/') = templateOf uri := by
  have slashes (n : Nat) : ∀ c ∈ List.replicate n '/', decide (c = '/') = true := fun c mem =>
    decide_eq_true (List.mem_replicate.mp mem).2
  rw [templateOf_eq, templateOf_eq, Text.trim_margins (slashes m) (slashes n)]

/-- Slashes around a declaration do not change what is made of it, be it a route or an error. -/
theorem ofDefinition_slashes (placement : OptionalPlacement) (name : Text) (d : RouteDefinition)
    (m n : Nat) :
    ofDefinition placement name
      { d with uri := List.replicate m '/' ++ d.uri ++ List.replicate n '/' } =
        ofDefinition placement name d := by
  rw [ofDefinition, ofDefinition, templateOf_slashes]

end Route

/-! ## Parts of a template -/

/-- What is written behind the other parts of a list stands at the end of the text. -/
theorem Node.Written.suffix {ns : List Node} {t s : Text} (written : Written ns t)
    (last : ns.getLast? = some (.literal s)) : s <:+ t := by
  induction written with
  | nil => cases last
  | @literal s' u ns rest ih =>
    cases ns with
    | nil =>
      cases last
      cases rest
      exact ⟨[], (List.append_nil s).symm⟩
    | cons n ns => exact (ih last).trans (List.suffix_append s' u)
  | @placeholder q t u ns inside rest ih =>
    cases ns with
    | nil => cases last
    | cons n ns =>
      have behind := ih last
      exact behind.trans ⟨'\x7b' :: (t ++ ['\x7d']), by simp⟩
  | @optional children ns t u inside rest _ ih =>
    cases ns with
    | nil => cases last
    | cons n ns =>
      have behind := ih last
      exact behind.trans ⟨'[' :: (t ++ [']']), by simp⟩

namespace Route

variable {placement : OptionalPlacement} {name : Text} {d : RouteDefinition} {r : Route}

/-- Only the root ends in a slash. -/
theorem nodes_of_endsWithSlash (made : ofDefinition placement name d = .ok r)
    (slash : r.pattern.endsWithSlash = true) : r.pattern.nodes = [.literal ['/']] := by
  obtain ⟨template, compiled⟩ := compile_of_ofDefinition made
  have parsed := (Pattern.compile_eq_ok.mp compiled).1
  have root : r.template = ['/'] := by
    unfold Pattern.endsWithSlash at slash
    split at slash
    next t last =>
      obtain ⟨u, whole⟩ := (Pattern.wellFormed_of_parse parsed).2.suffix last
      rw [template] at whole ⊢
      apply getLast?_templateOf
      rw [← whole, List.getLast?_append, of_decide_eq_true slash, Option.some_or]
    next => cases slash
  have scanned := (Pattern.parse_eq_ok.mp parsed).1
  have only : Pattern.scan placement ['/'] = .ok ⟨[.literal ['/']]⟩ := by
    cases placement <;> rfl
  rw [root, only] at scanned
  rw [← Except.ok.inj scanned]

/-- The text of a URL begins with the slash of the template. -/
theorem head?_path (made : ofDefinition placement name d = .ok r) (params : Params) :
    (path params r.pattern.nodes).head? = some '/' := by
  obtain ⟨template, compiled⟩ := compile_of_ofDefinition made
  have parsed := (Pattern.compile_eq_ok.mp compiled).1
  rw [template] at parsed
  obtain ⟨n, first, slash⟩ := Pattern.exists_first_of_parse parsed
  obtain ⟨t, rfl, begins⟩ := Node.exists_literal_of_beginsWithSlash slash
  obtain ⟨ns, whole⟩ := List.head?_eq_some_iff.mp first
  rw [whole, path_literal, List.head?_append, begins, Option.some_or]

/-- The URL of a route is a path from the root, with single slashes and none at its end, and a query
behind it. -/
theorem url_of_ofDefinition (made : ofDefinition placement name d = .ok r) (params : Params) :
    let path := normalPath r.pattern.endsWithSlash
      ((r.pattern.kept params).flatMap (Leaf.text params))
    r.url params = withQuery path (r.pattern.unused params) ∧
      (r.url params).head? = some '/' ∧ path.head? = some '/' ∧ ¬ ['/', '/'] <:+: path ∧
      (path.getLast? = some '/' → path = ['/']) := by
  intro path
  have whole : r.url params = withQuery path (r.pattern.unused params) := build_eq_leaves _ params
  have first : path.head? = some '/' := by
    apply head?_normalPath
    rw [← path_eq_leaves]
    exact head?_path made params
  refine ⟨whole, ?_, first, (single_normalPath _ _).not_isInfix, fun slash => ?_⟩
  · rw [whole]
    exact head?_withQuery first _
  · rcases (getLast?_normalPath_iff getLast?_text_of_endsWithSlash).mp slash with only | kept
    · exact only
    · have text : Url.path params r.pattern.nodes = ['/'] := by
        rw [nodes_of_endsWithSlash made kept]
        rfl
      rw [path_eq_leaves] at text
      rw [show path = normalPath _ _ from rfl, text, kept]
      rfl

end Route

namespace RouteTable

variable {c : Config} {table : RouteTable} {name : Text} {r : Route}

theorem getLast?_base (h : ofConfig c = .ok table) : table.base.getLast? ≠ some '/' := by
  rw [(eq_of_ofConfig h).1]
  intro slash
  have other := Text.getLast?_trimEnd (· = '/') c.url '/' slash
  cases other

/-- A table puts the URL of a route behind its base. -/
theorem url_eq_append (h : ofConfig c = .ok table) (known : table.route? name = some r)
    (params : Params) : table.url name params = .ok (table.base ++ r.url params) := by
  obtain ⟨d, made⟩ := exists_definition h known
  have first := (Route.url_of_ofDefinition made params).2.1
  rw [url, known]
  dsimp only
  rw [if_pos first]

/-- URLs join cleanly. The URL of a route is a path that begins with a slash, has single slashes and
ends in one only if that is all, and a query behind it. A table puts it behind its base, which does
not end in a slash, with nothing between them. Slashes around a declaration do not matter. -/
theorem url_join :
    (∀ placement name d r, Route.ofDefinition placement name d = .ok r → ∀ params,
      let path := normalPath r.pattern.endsWithSlash
        ((r.pattern.kept params).flatMap (Leaf.text params))
      r.url params = withQuery path (r.pattern.unused params) ∧
        (r.url params).head? = some '/' ∧ path.head? = some '/' ∧ ¬ ['/', '/'] <:+: path ∧
        (path.getLast? = some '/' → path = ['/'])) ∧
      (∀ c table, ofConfig c = .ok table → table.base.getLast? ≠ some '/' ∧
        ∀ name r, table.route? name = some r → ∀ params,
          table.url name params = .ok (table.base ++ r.url params)) ∧
      ∀ placement name (d : RouteDefinition) m n,
        let uri := List.replicate m '/' ++ d.uri ++ List.replicate n '/'
        Route.templateOf uri = Route.templateOf d.uri ∧
          Route.ofDefinition placement name { d with uri := uri } =
            Route.ofDefinition placement name d := by
  refine ⟨?_, ?_, ?_⟩
  · intro placement name d r made params
    exact Route.url_of_ofDefinition made params
  · intro c table h
    exact ⟨getLast?_base h, fun name r known params => url_eq_append h known params⟩
  · intro placement name d m n
    exact ⟨Route.templateOf_slashes d.uri m n, Route.ofDefinition_slashes placement name d m n⟩

/-- A declaration between slashes that is rendered without the value of its placeholder, so that
slashes meet in its path, and a base with slashes at its end. -/
theorem url_join_slashes : ∃ c table r, ∃ params : Params, ofConfig c = .ok table ∧
    c.url = "http://h/a//".toList ∧
    c.routes.toList.map (fun e => (e.1, e.2.uri)) =
      [("show".toList, "//users/{id}//[/{tab}]//".toList)] ∧
    table.route? "show".toList = some r ∧
    params.toList = [("id".toList, []), ("q".toList, "//".toList)] ∧
    r.template = "/users/{id}//[/{tab}]".toList ∧
    r.url params = "/users?id=&q=%2F%2F".toList ∧ (r.url params).head? = some '/' ∧
    table.base = "http://h/a".toList ∧ table.base.getLast? ≠ some '/' ∧
    table.url "show".toList params = .ok "http://h/a/users?id=&q=%2F%2F".toList := by
  let c : Config :=
    { url := "http://h/a//".toList
      routes := .ofList
        [("show".toList, ⟨"//users/{id}//[/{tab}]//".toList, RouteDefinition.defaultMethods⟩)]
      placement := .anywhere }
  let params : Params := .ofList [("id".toList, []), ("q".toList, "//".toList)]
  obtain ⟨table, made, holds⟩ := exists_ok_of_any (ofConfig c)
    (fun table => decide (∃ r ∈ table.route? "show".toList,
      r.template = "/users/{id}//[/{tab}]".toList ∧
      r.url params = "/users?id=&q=%2F%2F".toList ∧ table.base = "http://h/a".toList))
    (by decide +kernel)
  obtain ⟨r, known, template, url, base⟩ := of_decide_eq_true holds
  obtain ⟨urls, joined, -⟩ := url_join
  obtain ⟨d, of⟩ := exists_definition made known
  obtain ⟨-, first, -⟩ := urls _ _ d r of params
  obtain ⟨last, behind⟩ := joined c table made
  have whole := behind "show".toList r known params
  rw [base, url] at whole
  exact ⟨c, table, r, params, made, rfl, by decide +kernel, known, by decide +kernel, template, url,
    first, base, last, whole⟩

end RouteTable

end UrlRouting
