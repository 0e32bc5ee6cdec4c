import UrlRouting.Params.Json
import UrlRouting.Proofs.Json.Tokens
import UrlRouting.Proofs.Keyed
import UrlRouting.RouteTable.Config

/-!
# The round trip of JSON texts

What is written for a value is read as this value (`Json.parse?_render`): it is taken apart into the
tokens of the value, and the reader puts these together again (`Json.Textual.assembles`).

The records of the library are written as values of this kind and are found in them again, so
parameter sets, matches, route definitions and configurations are kept by their JSON form
(`ofJson?_parse?_render`).
-/

namespace UrlRouting

namespace Json

/-! ## Reading tokens -/

/-- Where a value is expected, its tokens are read as the value, whatever is open around it and
follows it. -/
def Assembles (v : Json) : Prop :=
  ∀ stack ts, readTokens stack .value (v.tokens ++ ts) = readTokens stack (.after v) ts

theorem readTokens_cons {stack stack' : List Frame} {next next' : Expecting} {token : Token}
    (h : readToken stack next token = some (stack', next')) (ts : List Token) :
    readTokens stack next (token :: ts) = readTokens stack' next' ts := by
  rw [readTokens, h]

theorem readToken_value (stack : List Frame) (token : Token) :
    readToken stack .value token = beginValue stack token := by
  rw [readToken]

/-- The first item of a list is read like any other one. -/
theorem readTokens_first (v : Json) (items : List Json) (stack : List Frame) (ts : List Token) :
    readTokens (.array [] :: stack) .first (itemTokens (v :: items) ++ ts) =
      readTokens (.array [] :: stack) .value (itemTokens (v :: items) ++ ts) := by
  cases items <;> cases v <;> rfl

theorem readTokens_items {v : Json} {items : List Json}
    (each : ∀ w ∈ v :: items, w.Assembles) (before : List Json) (stack : List Frame)
    (ts : List Token) :
    readTokens (.array before :: stack) .value (itemTokens (v :: items) ++ .closeBracket :: ts) =
      readTokens stack (.after (.array (before.reverse ++ v :: items))) ts := by
  induction items generalizing v before with
  | nil =>
    rw [itemTokens, each v List.mem_cons_self, readTokens_cons rfl, List.reverse_cons]
  | cons w items ih =>
    obtain ⟨first, rest⟩ := List.forall_mem_cons.mp each
    rw [itemTokens, List.append_assoc, first, List.cons_append, readTokens_cons rfl, ih rest,
      List.reverse_cons, List.append_assoc]
    rfl

theorem readTokens_member {v : Json} (value : v.Assembles) (key : Option Text)
    {before : List (Option Text × Json)} {next : Expecting} (opening : next = .first ∨ next = .key)
    (stack : List Frame) (ts : List Token) :
    readTokens (.object before none :: stack) next (.string key :: .colon :: v.tokens ++ ts) =
      readTokens (.object before key :: stack) (.after v) ts := by
  rcases opening with rfl | rfl
  · exact value _ _
  · exact value _ _

theorem readTokens_members {m : Option Text × Json} {members : List (Option Text × Json)}
    (each : ∀ n ∈ m :: members, n.2.Assembles) (before : List (Option Text × Json))
    {next : Expecting} (opening : next = .first ∨ next = .key) (stack : List Frame)
    (ts : List Token) :
    readTokens (.object before none :: stack) next
        (memberTokens (m :: members) ++ .closeBrace :: ts) =
      readTokens stack (.after (.object (before.reverse ++ m :: members))) ts := by
  induction members generalizing m before next with
  | nil =>
    obtain ⟨key, v⟩ := m
    rw [memberTokens, readTokens_member (each _ List.mem_cons_self) key opening,
      readTokens_cons rfl, List.reverse_cons]
  | cons n members ih =>
    obtain ⟨key, v⟩ := m
    obtain ⟨first, rest⟩ := List.forall_mem_cons.mp each
    rw [memberTokens, List.append_assoc, readTokens_member first key opening, List.cons_append,
      readTokens_cons rfl, ih rest _ (.inr rfl), List.reverse_cons, List.append_assoc]
    rfl

/-- The tokens of a value are read as the value. -/
theorem Textual.assembles {v : Json} (textual : v.Textual) : v.Assembles := by
  induction textual with
  | null => exact fun stack => readTokens_cons (readToken_value stack _)
  | bool b => exact fun stack => readTokens_cons (readToken_value stack _)
  | text t => exact fun stack => readTokens_cons (readToken_value stack _)
  | @array items _ each =>
    intro stack ts
    rw [tokens, List.cons_append, List.cons_append, List.append_assoc, List.singleton_append,
      readTokens_cons (readToken_value stack _)]
    cases items with
    | nil => exact readTokens_cons rfl ts
    | cons v items =>
      rw [readTokens_first]
      exact readTokens_items each [] stack ts
  | @object members _ _ each =>
    intro stack ts
    rw [tokens, List.cons_append, List.cons_append, List.append_assoc, List.singleton_append,
      readTokens_cons (readToken_value stack _)]
    cases members with
    | nil => exact readTokens_cons rfl ts
    | cons m members => exact readTokens_members each [] (.inl rfl) stack ts

/-- What is written for a value is read as the value. -/
theorem parse?_render {v : Json} (textual : v.Textual) : parse? v.render = some v := by
  have split := textual.splits []
  have none : tokens? [] = some [] := by
    rw [tokens?]
    rfl
  rw [List.append_nil, none, Option.map_some] at split
  rw [parse?, split]
  exact textual.assembles [] []

/-! ## Members and items -/

section Items

variable {α β γ : Type} {f : α → β} {g : β → Option γ} {l : List α}

theorem mapM_map_eq_some {k : α → γ} (h : ∀ a ∈ l, g (f a) = some (k a)) :
    (l.map f).mapM g = some (l.map k) := by
  induction l with
  | nil => rfl
  | cons a l ih =>
    obtain ⟨first, rest⟩ := List.forall_mem_cons.mp h
    rw [List.map_cons, List.mapM_cons, first, ih rest]
    rfl

/-- Items that are each read back are read back in order. -/
theorem mapM_map_self {g : β → Option α} (h : ∀ a ∈ l, g (f a) = some a) :
    (l.map f).mapM g = some l := by
  rw [mapM_map_eq_some h]
  exact congrArg some (List.map_id' l)

end Items

section Entries

variable {α : Type} {f : α → Json} {es : Entries α}

theorem textual_object (each : ∀ e ∈ es, (f e.2).Textual) :
    (object (es.map fun (key, a) => (some key, f a))).Textual := by
  refine .object (fun m mem => ?_) (fun m mem => ?_)
  · obtain ⟨e, -, rfl⟩ := List.mem_map.mp mem
    rfl
  · obtain ⟨e, given, rfl⟩ := List.mem_map.mp mem
    exact each e given

theorem members?_object : (object (es.map fun (key, a) => (some key, f a))).members? =
    some (es.map fun (key, a) => (key, f a)) :=
  mapM_map_eq_some fun _ _ => rfl

/-- Entries are read back if their values are. -/
theorem mapM_entries {g : Json → Option α} (h : ∀ a, g (f a) = some a) :
    (es.map fun (key, a) => (key, f a)).mapM (fun (key, v) => (g v).map fun a => (key, a)) =
      some es := by
  refine mapM_map_self fun e _ => ?_
  dsimp only
  rw [h]
  rfl

end Entries

theorem field?_of_mem {members : Entries Json} (nodup : members.keys.Nodup) {m : Text × Json}
    (mem : m ∈ members) : field? members m.1 = some (some m.2) := by
  have alone : members.filter (fun n => decide (n.1 = m.1)) = [m] := by
    induction members with
    | nil => cases mem
    | cons n members ih =>
      obtain ⟨fresh, nodup⟩ := List.nodup_cons.mp nodup
      rcases List.mem_cons.mp mem with rfl | mem
      · have others : ∀ n ∈ members, ¬ decide (n.1 = m.1) = true := fun n mem same =>
          fresh (List.mem_map.mpr ⟨n, mem, of_decide_eq_true same⟩)
        rw [List.filter_cons_of_pos (by simp), List.filter_eq_nil_iff.mpr others]
      · have other : n.1 ≠ m.1 := fun same => fresh (List.mem_map.mpr ⟨m, mem, same.symm⟩)
        rw [List.filter_cons_of_neg (by simpa using other), ih nodup mem]
  rw [field?, alone]

theorem textual_record {names : List Text} {vs : List Json} (each : ∀ v ∈ vs, v.Textual) :
    (object ((names.map some).zip vs)).Textual := by
  refine .object (fun m mem => ?_) (fun m mem => ?_)
  · obtain ⟨name, -, eq⟩ := List.mem_map.mp (List.of_mem_zip mem).1
    rw [← eq]
    rfl
  · exact each m.2 (List.of_mem_zip mem).2

/-- The members of an object are found in it by their names. -/
theorem record?_record {names : List Text} {vs : List Json} (nodup : names.Nodup)
    (complete : names.length = vs.length) :
    record? names (object ((names.map some).zip vs)) = some (vs.map some) := by
  have keys : (names.zip vs).map Prod.fst = names := List.map_fst_zip (Nat.le_of_eq complete)
  have values : (names.zip vs).map (fun m => some m.2) = vs.map some := by
    calc (names.zip vs).map (fun m => some m.2)
        = ((names.zip vs).map Prod.snd).map some := List.map_map.symm
      _ = vs.map some := by rw [List.map_snd_zip (Nat.le_of_eq complete.symm)]
  have members : (object ((names.map some).zip vs)).members? = some (names.zip vs) := by
    rw [members?, List.zip_map_left]
    exact mapM_map_self fun _ _ => rfl
  have fields : ((names.zip vs).map Prod.fst).mapM (field? (names.zip vs)) =
      some ((names.zip vs).map fun m => some m.2) :=
    mapM_map_eq_some fun m mem => field?_of_mem (by rwa [Entries.keys, keys]) mem
  have found : record? names (object ((names.map some).zip vs)) =
      (object ((names.map some).zip vs)).members? >>= fun ms => names.mapM (field? ms) := rfl
  rw [keys, values] at fields
  rw [found, members]
  exact fields

theorem textual_texts (ts : List Text) : (array (ts.map ofText)).Textual := by
  refine .array fun v mem => ?_
  obtain ⟨t, -, rfl⟩ := List.mem_map.mp mem
  exact .text t

theorem texts?_texts (ts : List Text) : (array (ts.map ofText)).texts? = some ts :=
  mapM_map_self fun _ _ => rfl

end Json

/-! ## Records -/

namespace Params

theorem textual_toJson (p : Params) : p.toJson.Textual :=
  Json.textual_object fun e _ => .text e.2

theorem ofJson?_toJson (p : Params) : ofJson? p.toJson = some p := by
  rw [toJson, ofJson?, Json.members?_object, Option.bind_eq_bind, Option.bind_some,
    Json.mapM_entries (f := Json.ofText) (g := Json.text?) fun _ => rfl]
  exact congrArg some (Keyed.ofList_toList p)

end Params

namespace RouteMatch

theorem textual_toJson (m : RouteMatch) : m.toJson.Textual := by
  refine Json.textual_record ?_
  simp [Params.textual_toJson]

theorem ofJson?_toJson (m : RouteMatch) : ofJson? m.toJson = some m := by
  have found : m.toJson.record? memberNames = some [some m.params.toJson, some m.query.toJson] :=
    Json.record?_record (by decide) rfl
  rw [ofJson?, found, Option.bind_eq_bind, Option.bind_some]
  dsimp only
  rw [Params.ofJson?_toJson, Params.ofJson?_toJson]
  rfl

end RouteMatch

namespace RouteDefinition

theorem textual_toJson (d : RouteDefinition) : d.toJson.Textual := by
  refine Json.textual_record ?_
  simp [Json.textual_texts, Json.Textual.text]

theorem ofJson?_toJson (d : RouteDefinition) : ofJson? d.toJson = some d := by
  have found : d.toJson.record? memberNames =
      some [some (.ofText d.uri), some (.array (d.methods.map .ofText))] :=
    Json.record?_record (by decide) rfl
  rw [ofJson?, found, Option.bind_eq_bind, Option.bind_some]
  dsimp only
  rw [Json.texts?_texts]
  rfl

end RouteDefinition

theorem OptionalPlacement.ofJson?_ofText (placement : OptionalPlacement) :
    ofJson? (.ofText placement.name) = some placement := by
  cases placement <;> decide

namespace RouteTable.Config

theorem textual_toJson (c : Config) : c.toJson.Textual := by
  refine Json.textual_record ?_
  simp only [List.mem_cons, List.not_mem_nil, or_false, forall_eq_or_imp, forall_eq]
  exact ⟨.text _, Json.textual_object fun e _ => RouteDefinition.textual_toJson e.2, .text _⟩

theorem routesOfJson?_object (routes : Keyed RouteDefinition) :
    routesOfJson? (.object (routes.toList.map fun (name, d) => (some name, d.toJson))) =
      some routes := by
  rw [routesOfJson?, Json.members?_object, Option.bind_eq_bind, Option.bind_some,
    Json.mapM_entries RouteDefinition.ofJson?_toJson]
  exact congrArg some (Keyed.ofList_toList routes)

theorem ofJson?_toJson (c : Config) : ofJson? c.toJson = some c := by
  have found : c.toJson.record? memberNames = some [some (.ofText c.url),
      some (.object (c.routes.toList.map fun (name, d) => (some name, d.toJson))),
      some (.ofText c.placement.name)] :=
    Json.record?_record (by decide) rfl
  rw [ofJson?, found, Option.bind_eq_bind, Option.bind_some]
  dsimp only [orDefault]
  rw [routesOfJson?_object, OptionalPlacement.ofJson?_ofText]
  rfl

end RouteTable.Config

/-- Configurations, definitions, matches and parameter sets are read back from the texts that they
are written as, with everything in its order. -/
theorem ofJson?_parse?_render :
    (∀ c : RouteTable.Config, RouteTable.Config.parse? c.render = some c) ∧
      (∀ d : RouteDefinition,
        (Json.parse? d.toJson.render).bind RouteDefinition.ofJson? = some d) ∧
      (∀ m : RouteMatch, (Json.parse? m.toJson.render).bind RouteMatch.ofJson? = some m) ∧
      ∀ p : Params, (Json.parse? p.toJson.render).bind Params.ofJson? = some p := by
  refine ⟨fun c => ?_, fun d => ?_, fun m => ?_, fun p => ?_⟩
  · rw [RouteTable.Config.parse?, RouteTable.Config.render, Json.parse?_render c.textual_toJson]
    exact c.ofJson?_toJson
  · rw [Json.parse?_render d.textual_toJson]
    exact d.ofJson?_toJson
  · rw [Json.parse?_render m.textual_toJson]
    exact m.ofJson?_toJson
  · rw [Json.parse?_render (Params.textual_toJson p)]
    exact Params.ofJson?_toJson p

end UrlRouting
