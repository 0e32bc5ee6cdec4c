import UrlRouting.Proofs.Keyed
import UrlRouting.Proofs.Result
import UrlRouting.RouteTable.Basic

/-!
# Making tables

A table is made of its configuration definition by definition. Its routes have the names of the
definitions, in order, and are what these make (`RouteTable.route?_eq_some`). The first definition
that makes no route decides the error (`RouteTable.firstInvalid_of_ofConfig`).
-/

namespace UrlRouting.RouteTable

/-! ## Routes of definitions -/

section Definitions

variable {placement : OptionalPlacement} {ds : Entries RouteDefinition} {rs : Entries Route}

/-- The routes that are made have the names of the definitions, in order. -/
theorem keys_makeRoutes (made : makeRoutes placement ds = .ok rs) : rs.keys = ds.keys := by
  induction ds generalizing rs with
  | nil =>
    cases made
    rfl
  | cons e ds ih =>
    obtain ⟨name, d⟩ := e
    rw [makeRoutes] at made
    split at made
    next => cases made
    next r _ =>
      obtain ⟨rs', rest, made⟩ := bind_eq_ok.mp made
      cases made
      exact congrArg (name :: ·) (ih rest)

/-- The routes of two lists of definitions are made one after the other. -/
theorem makeRoutes_append (ds es : Entries RouteDefinition) :
    makeRoutes placement (ds ++ es) =
      makeRoutes placement ds >>= fun rs => (rs ++ ·) <$> makeRoutes placement es := by
  induction ds with
  | nil => exact (id_map _).symm
  | cons e ds ih =>
    obtain ⟨name, d⟩ := e
    rw [List.cons_append, makeRoutes, makeRoutes]
    cases Route.ofDefinition placement name d with
    | error cause => rfl
    | ok r =>
      dsimp only
      rw [ih]
      cases makeRoutes placement ds with
      | error e => rfl
      | ok rs => cases makeRoutes placement es <;> rfl

/-- Where routes cannot be made, the first definition that makes no route decides the error. -/
theorem exists_first_of_makeRoutes {e : RouteTableError}
    (h : makeRoutes placement ds = .error e) :
    ∃ before name d after cause, ds = before ++ (name, d) :: after ∧
      e = .invalidRoute name cause ∧ Route.ofDefinition placement name d = .error cause ∧
      ∀ e ∈ before, ∃ r, Route.ofDefinition placement e.1 e.2 = .ok r := by
  induction ds with
  | nil => cases h
  | cons entry ds ih =>
    obtain ⟨name, d⟩ := entry
    rw [makeRoutes] at h
    split at h
    next cause failed =>
      cases h
      exact ⟨[], name, d, ds, cause, rfl, rfl, failed, nofun⟩
    next r made =>
      cases rest : makeRoutes placement ds with
      | ok rs =>
        rw [rest] at h
        cases h
      | error e' =>
        rw [rest] at h
        cases h
        obtain ⟨before, name', d', after, cause, rfl, rfl, failed, earlier⟩ := ih rest
        exact ⟨(name, d) :: before, name', d', after, cause, rfl, rfl, failed,
          List.forall_mem_cons.mpr ⟨⟨r, made⟩, earlier⟩⟩

/-- The route with a name is the one that the definition with this name makes. -/
theorem get?_makeRoutes_eq_some (made : makeRoutes placement ds = .ok rs) {name : Text}
    {r : Route} : rs.get? name = some r ↔
      ∃ d, ds.get? name = some d ∧ Route.ofDefinition placement name d = .ok r := by
  induction ds generalizing rs with
  | nil =>
    cases made
    exact ⟨nofun, nofun⟩
  | cons e ds ih =>
    obtain ⟨k, d⟩ := e
    rw [makeRoutes] at made
    split at made
    next => cases made
    next r' here =>
      obtain ⟨rs', rest, made⟩ := bind_eq_ok.mp made
      cases made
      rw [Entries.get?, Entries.get?]
      split
      next same =>
        subst same
        simp [here]
      next => exact ih rest

end Definitions

/-! ## Tables of configurations -/

/-- The first definition of a configuration that makes no route, and the cause. -/
def Config.FirstInvalid (c : Config) (name : Text) (cause : RouteError) : Prop :=
  ∃ before d after, c.routes.toList = before ++ (name, d) :: after ∧
    Route.ofDefinition c.placement name d = .error cause ∧
    ∀ e ∈ before, ∃ r, Route.ofDefinition c.placement e.1 e.2 = .ok r

section Configurations

variable {c : Config} {table : RouteTable} {name : Text}

/-- A table holds the routes of its configuration behind the base without slashes at its end. -/
theorem eq_of_ofConfig (h : ofConfig c = .ok table) :
    table.base = Text.trimEnd (· = '/') c.url ∧
      makeRoutes c.placement c.routes.toList = .ok table.routes.toList := by
  obtain ⟨rs, made, h⟩ := bind_eq_ok.mp h
  cases h
  have nodup : rs.keys.Nodup := keys_makeRoutes made ▸ c.routes.nodup
  refine ⟨rfl, ?_⟩
  dsimp only
  rw [Keyed.toList_ofList nodup]
  exact made

theorem keys_of_ofConfig (h : ofConfig c = .ok table) : table.routes.keys = c.routes.keys :=
  keys_makeRoutes (eq_of_ofConfig h).2

/-- Making a table fails as making its routes does. -/
theorem ofConfig_eq_error {e : RouteTableError} :
    ofConfig c = .error e ↔ makeRoutes c.placement c.routes.toList = .error e := by
  rw [ofConfig]
  cases makeRoutes c.placement c.routes.toList with
  | error e' => rw [error_bind, Except.error.injEq, Except.error.injEq]
  | ok rs => exact ⟨nofun, nofun⟩

theorem firstInvalid_of_ofConfig {e : RouteTableError} (h : ofConfig c = .error e) :
    ∃ name cause, e = .invalidRoute name cause ∧ c.FirstInvalid name cause := by
  obtain ⟨before, name, d, after, cause, whole, same, failed, earlier⟩ :=
    exists_first_of_makeRoutes (ofConfig_eq_error.mp h)
  exact ⟨name, cause, same, before, d, after, whole, failed, earlier⟩

/-- The routes of a table are made of the definitions with their names. -/
theorem route?_eq_some (h : ofConfig c = .ok table) {r : Route} : table.route? name = some r ↔
    ∃ d, c.routes.get? name = some d ∧ Route.ofDefinition c.placement name d = .ok r :=
  get?_makeRoutes_eq_some (eq_of_ofConfig h).2

/-- The routes of a table are made of definitions. -/
theorem exists_definition (h : ofConfig c = .ok table) {r : Route}
    (known : table.route? name = some r) :
    ∃ d, Route.ofDefinition c.placement name d = .ok r :=
  ((route?_eq_some h).mp known).imp fun _ => And.right

end Configurations

end UrlRouting.RouteTable
