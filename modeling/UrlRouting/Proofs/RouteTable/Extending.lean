import UrlRouting.Proofs.RouteTable.Resolving

/-!
# Tables with one more route

A route that is added to a configuration comes last, so it changes neither the error of a
configuration that makes no table nor what the table answers for the other routes
(`RouteTable.ofConfig_withRoute`): a URL that is resolved without it is resolved alike with it.

What a table answers is read off its routes: it knows the names of these
(`RouteTable.contains_iff`), and a URL is resolved by the earliest route for it
(`RouteTable.resolve?_eq_some`).
-/

namespace UrlRouting

theorem Route.match?_eq_none {r : Route} {url : Text} :
    r.match? url = none ↔ (r.allowsGet = true → r.matcher.match? url = none) := by
  rw [Route.match?]
  split <;> simp [*]

namespace RouteTable

/-! ## What a table answers -/

/-- What is found for a URL is the match of the earliest route that accepts GET and whose matcher
accepts the URL without the base. -/
def Earliest (table : RouteTable) (url : Text) (resolved : Resolved) : Prop :=
  ∃ before r after, table.routes.toList = before ++ (resolved.name, r) :: after ∧
    r.allowsGet = true ∧ r.matcher.match? (withoutBase table.base url) = some resolved.found ∧
    ∀ e ∈ before, e.2.allowsGet = true →
      e.2.matcher.match? (withoutBase table.base url) = none

section Answers

variable {table : RouteTable} {name : Text}

theorem route?_eq_none : table.route? name = none ↔ name ∉ table.routes.keys :=
  Entries.get?_eq_none

theorem exists_route? (known : name ∈ table.routes.keys) : ∃ r, table.route? name = some r :=
  Option.ne_none_iff_exists'.mp (mt route?_eq_none.mp (not_not_intro known))

/-- A table has the routes whose names are in it. -/
theorem contains_iff : table.contains name = true ↔ name ∈ table.routes.keys := by
  rw [← not_iff_not, ← route?_eq_none, Bool.not_eq_true]
  exact Option.isSome_eq_false_iff.trans Option.isNone_iff_eq_none

theorem exists_url (known : name ∈ table.routes.keys) (params : Params) :
    ∃ t, table.url name params = .ok t := by
  obtain ⟨r, found⟩ := exists_route? known
  rw [url, found]
  exact ⟨_, rfl⟩

theorem url_eq_error (unknown : name ∉ table.routes.keys) (params : Params) :
    table.url name params = .error (.unknownRoute name) := by
  rw [url, route?_eq_none.mpr unknown]

/-- A URL is resolved by the earliest route for it. -/
theorem resolve?_eq_some {url : Text} {resolved : Resolved} :
    table.resolve? url = some resolved ↔ table.Earliest url resolved := by
  constructor
  · intro h
    obtain ⟨before, r, after, whole, matched, missed⟩ := first_of_resolve? h
    obtain ⟨get, accepted⟩ := Route.match?_eq_some.mp matched
    exact ⟨before, r, after, whole, get, accepted,
      fun e mem => Route.match?_eq_none.mp (missed e mem)⟩
  · rintro ⟨before, r, after, whole, get, accepted, missed⟩
    refine List.findSome?_eq_some_iff.mpr
      ⟨before, (resolved.name, r), after, whole, ?_, fun e mem => ?_⟩
    · dsimp only
      rw [Route.match?_eq_some.mpr ⟨get, accepted⟩]
      rfl
    · exact Option.map_eq_none_iff.mpr (Route.match?_eq_none.mpr (missed e mem))

end Answers

/-! ## One more route -/

section Extension

variable {c : Config} {table table' : RouteTable} {name : Text}

theorem toList_withRoute (fresh : name ∉ c.routes.keys) (d : RouteDefinition) :
    (c.withRoute name d).routes.toList = c.routes.toList ++ [(name, d)] :=
  Entries.insert_of_notMem fresh d

/-- A configuration that makes no table makes none with one more route, for the same cause. -/
theorem ofConfig_withRoute_eq_error (fresh : name ∉ c.routes.keys) (d : RouteDefinition)
    {e : RouteTableError} (h : ofConfig c = .error e) :
    ofConfig (c.withRoute name d) = .error e := by
  rw [ofConfig_eq_error] at h ⊢
  rw [toList_withRoute fresh, Config.withRoute_placement, makeRoutes_append, h, error_bind]

/-- A table with one more route has this route behind the others. -/
theorem exists_last_of_withRoute (fresh : name ∉ c.routes.keys) {d : RouteDefinition}
    (h : ofConfig c = .ok table) (h' : ofConfig (c.withRoute name d) = .ok table') :
    table'.base = table.base ∧
      ∃ r, table'.routes.toList = table.routes.toList ++ [(name, r)] := by
  obtain ⟨base, made⟩ := eq_of_ofConfig h
  obtain ⟨base', made'⟩ := eq_of_ofConfig h'
  refine ⟨base'.trans base.symm, ?_⟩
  rw [toList_withRoute fresh, Config.withRoute_placement, makeRoutes_append, made, ok_bind,
    makeRoutes] at made'
  split at made'
  next => cases made'
  next r _ => exact ⟨r, (Except.ok.inj made').symm⟩

variable (base : table'.base = table.base) {es : Entries Route}
  (whole : table'.routes.toList = table.routes.toList ++ es)

include base whole

/-- Routes behind the others are tried where these match nothing. -/
theorem resolve?_of_append (url : Text) :
    table'.resolve? url = (table.resolve? url).or (es.findSome? fun (name, r) =>
      (r.match? (withoutBase table.base url)).map fun found => ⟨name, found⟩) := by
  rw [resolve?, whole, List.findSome?_append, base]
  rfl

/-- Routes behind the others do not change the URLs of these. -/
theorem url_of_append (known : name ∈ table.routes.keys) (params : Params) :
    table'.url name params = table.url name params := by
  obtain ⟨r, found⟩ := exists_route? known
  have found' : table'.route? name = some r := by
    change Entries.get? name table'.routes.toList = some r
    rw [whole, Entries.get?_append]
    change (table.route? name).or _ = some r
    rw [found, Option.some_or]
  rw [url, url, found, found', base]

end Extension

/-- A configuration that makes no table fails with the first definition that makes no route, and it
fails alike with one more route. Where both make tables, what is resolved without the new route is
resolved alike with it, all else is resolved by the new route if at all, and the URLs of the other
routes are the same. Every table resolves a URL by the earliest route for it, and has the routes
whose names are in its configuration. -/
theorem ofConfig_withRoute {c : Config} {new : Text} (fresh : new ∉ c.routes.keys)
    (d : RouteDefinition) :
    (∀ e, ofConfig c = .error e → ofConfig (c.withRoute new d) = .error e ∧
      ∃ name cause, e = .invalidRoute name cause ∧ c.FirstInvalid name cause) ∧
    (∀ table table', ofConfig c = .ok table → ofConfig (c.withRoute new d) = .ok table' →
      (∀ url resolved, table.resolve? url = some resolved → table'.resolve? url = some resolved) ∧
      (∀ url resolved, table.resolve? url = none → table'.resolve? url = some resolved →
        resolved.name = new) ∧
      ∀ name ∈ c.routes.keys, ∀ params, table'.url name params = table.url name params) ∧
    ∀ (other : Config) table, ofConfig other = .ok table →
      (∀ url resolved, table.resolve? url = some resolved ↔ table.Earliest url resolved) ∧
      ∀ name, (table.contains name = true ↔ name ∈ other.routes.keys) ∧
        (∀ r, table.route? name = some r ↔ ∃ d, other.routes.get? name = some d ∧
          Route.ofDefinition other.placement name d = .ok r) ∧
        (name ∈ other.routes.keys → (∃ r, table.route? name = some r) ∧
          ∀ params, ∃ t, table.url name params = .ok t) ∧
        (name ∉ other.routes.keys → table.route? name = none ∧
          ∀ params, table.url name params = .error (.unknownRoute name)) := by
  refine ⟨fun e h => ⟨ofConfig_withRoute_eq_error fresh d h, firstInvalid_of_ofConfig h⟩,
    fun table table' h h' => ?_, fun other table h => ⟨fun _ _ => resolve?_eq_some, fun name => ?_⟩⟩
  · obtain ⟨base, r, whole⟩ := exists_last_of_withRoute fresh h h'
    refine ⟨fun url resolved before => ?_, fun url resolved missed found => ?_,
      fun name known params => url_of_append base whole (keys_of_ofConfig h ▸ known) params⟩
    · rw [resolve?_of_append base whole, before, Option.some_or]
    · rw [resolve?_of_append base whole, missed, Option.none_or] at found
      obtain ⟨⟨name, r⟩, mem, here⟩ := List.exists_of_findSome?_eq_some found
      cases List.mem_singleton.mp mem
      obtain ⟨m, -, rfl⟩ := Option.map_eq_some_iff.mp here
      rfl
  · rw [← keys_of_ofConfig h]
    exact ⟨contains_iff, fun r => route?_eq_some h,
      fun known => ⟨exists_route? known, exists_url known⟩,
      fun unknown => ⟨route?_eq_none.mpr unknown, url_eq_error unknown⟩⟩

/-- A new route that accepts every URL, behind one that does not accept GET, and a configuration
whose second definition makes no route. -/
theorem ofConfig_withRoute_any : ∃ c broken table table', ∃ params : Params,
    ∃ d : RouteDefinition, d.uri = "{path:.*}".toList ∧
    c.routes.toList.map (fun e => (e.1, e.2.uri)) =
      [("make".toList, "users/{id}".toList), ("show".toList, "/users/{id:[0-9]+}/".toList)] ∧
    "any".toList ∉ c.routes.keys ∧ ofConfig c = .ok table ∧
    ofConfig (c.withRoute "any".toList d) = .ok table' ∧
    (∃ resolved, table.resolve? "http://h/a/users/7?x".toList = some resolved ∧
      table'.resolve? "http://h/a/users/7?x".toList = some resolved ∧
      table.Earliest "http://h/a/users/7?x".toList resolved) ∧
    (table.resolve? "/users/me".toList = none ∧ ∃ resolved,
      table'.resolve? "/users/me".toList = some resolved ∧ resolved.name = "any".toList) ∧
    ("show".toList ∈ c.routes.keys ∧
      table'.url "show".toList params = table.url "show".toList params) ∧
    table.url "any".toList params = .error (.unknownRoute "any".toList) ∧
    broken.routes.toList.map (fun e => (e.1, e.2.uri)) =
      [("show".toList, "users".toList), ("open".toList, "users/\x7bid".toList)] ∧
    "any".toList ∉ broken.routes.keys ∧
    ∃ e, ofConfig broken = .error e ∧ ofConfig (broken.withRoute "any".toList d) = .error e ∧
      ∃ name cause, e = .invalidRoute name cause ∧ broken.FirstInvalid name cause := by
  let c : Config :=
    { url := "http://h/a/".toList
      routes := .ofList [("make".toList, ⟨"users/{id}".toList, ["POST".toList]⟩),
        ("show".toList, ⟨"/users/{id:[0-9]+}/".toList, RouteDefinition.defaultMethods⟩)]
      placement := .anywhere }
  let broken : Config :=
    { url := []
      routes := .ofList [("show".toList, ⟨"users".toList, RouteDefinition.defaultMethods⟩),
        ("open".toList, ⟨"users/\x7bid".toList, RouteDefinition.defaultMethods⟩)]
      placement := .anywhere }
  let d : RouteDefinition := ⟨"{path:.*}".toList, RouteDefinition.defaultMethods⟩
  let params : Params := .ofList [("id".toList, "7".toList)]
  have fresh : "any".toList ∉ c.routes.keys := by decide +kernel
  have fresh' : "any".toList ∉ broken.routes.keys := by decide +kernel
  obtain ⟨table, made, holds⟩ := exists_ok_of_any (ofConfig c)
    (fun table => (table.resolve? "http://h/a/users/7?x".toList).isSome &&
      (table.resolve? "/users/me".toList).isNone) (by decide +kernel)
  obtain ⟨table', made', holds'⟩ := exists_ok_of_any (ofConfig (c.withRoute "any".toList d))
    (fun table => (table.resolve? "/users/me".toList).isSome) (by decide +kernel)
  obtain ⟨holds, missed⟩ := Bool.and_eq_true_iff.mp holds
  obtain ⟨resolved, found⟩ := Option.isSome_iff_exists.mp holds
  obtain ⟨resolved', found'⟩ := Option.isSome_iff_exists.mp holds'
  have missed := Option.isNone_iff_eq_none.mp missed
  obtain ⟨-, both, each⟩ := ofConfig_withRoute fresh d
  obtain ⟨kept, behind, urls⟩ := both table table' made made'
  obtain ⟨earliest, answers⟩ := each c table made
  obtain ⟨e, failed⟩ := exists_error_of_isNone (ofConfig broken) (by decide +kernel)
  have known : "show".toList ∈ c.routes.keys := by decide +kernel
  obtain ⟨failed', cause⟩ := (ofConfig_withRoute fresh' d).1 e failed
  exact ⟨c, broken, table, table', params, d, rfl, by decide +kernel, fresh, made, made',
    ⟨resolved, found, kept _ _ found, (earliest _ _).mp found⟩,
    ⟨missed, resolved', found', behind _ _ missed found'⟩, ⟨known, urls _ known params⟩,
    ((answers "any".toList).2.2.2 fresh).2 params, by decide +kernel, fresh', e, failed, failed',
    cause⟩

end RouteTable

end UrlRouting
