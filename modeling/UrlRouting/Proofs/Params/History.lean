import UrlRouting.Params.Basic
import UrlRouting.Proofs.Keyed

/-!
# What a run of mutations leaves

A run of mutations is a history of changes, each of which puts a value under a key or drops a key.
What the map says after the run is read off the history (`Keyed.Records`): which keys it has, which
values they have, and in which order they stand. `Keyed.Records.put` and `Keyed.Records.drop` follow
one change, `Keyed.records_run` a whole run.

What is said of a key is of one kind: some change did something to it, and no later change has
undone that (`Since`).
-/

namespace UrlRouting

variable {α : Type}

/-! ## Mutations -/

/-- A change of one key. -/
inductive Change (α : Type)
  | put (key : Text) (value : α)
  | drop (key : Text)

namespace Change

/-- The key that is changed. -/
def key : Change α → Text
  | put key _ => key
  | drop key => key

/-- The map after a change. -/
def apply (m : Keyed α) : Change α → Keyed α
  | put key value => m.set key value
  | drop key => (m.remove key).2

end Change

/-- What can be done to a map. -/
inductive Mutation (α : Type)
  | insert (key : Text) (value : α)
  | set (key : Text) (value : α)
  | remove (key : Text)
  | extend (pairs : Entries α)

namespace Mutation

/-- The map after a mutation. -/
def apply (m : Keyed α) : Mutation α → Keyed α
  | insert key value => (m.insert key value).2
  | set key value => m.set key value
  | remove key => (m.remove key).2
  | extend pairs => m.extend pairs

/-- The changes that a mutation makes, in order. -/
def changes : Mutation α → List (Change α)
  | insert key value => [.put key value]
  | set key value => [.put key value]
  | remove key => [.drop key]
  | extend pairs => pairs.map fun e => .put e.1 e.2

/-- The changes of a run of mutations, in order. -/
def history (mutations : List (Mutation α)) : List (Change α) := mutations.flatMap changes

end Mutation

/-- The map after a run of mutations, which begins with the empty map. -/
def Keyed.run (mutations : List (Mutation α)) : Keyed α := mutations.foldl Mutation.apply empty

theorem Mutation.apply_eq (m : Keyed α) (mutation : Mutation α) :
    mutation.apply m = mutation.changes.foldl Change.apply m := by
  cases mutation with
  | insert key value => rfl
  | set key value => rfl
  | remove key => rfl
  | extend pairs =>
    rw [changes, List.foldl_map]
    rfl

theorem Keyed.run_eq (mutations : List (Mutation α)) :
    run mutations = (Mutation.history mutations).foldl Change.apply empty := by
  rw [Mutation.history, List.foldl_flatMap, run]
  congr
  funext m mutation
  exact mutation.apply_eq m

/-! ## Histories -/

section Since

variable {β : Type} {p : List β → β → Prop} {q : β → Prop} {past : List β} {b : β}

/-- Some event was one that satisfies `p` together with what was before it, and all events after it
satisfy `q`. -/
def Since (p : List β → β → Prop) (q : β → Prop) (events : List β) : Prop :=
  ∃ before b after, events = before ++ b :: after ∧ p before b ∧ ∀ c ∈ after, q c

theorem not_since_nil : ¬ Since p q [] := by
  rintro ⟨before, b, after, nil, -⟩
  exact List.append_ne_nil_of_right_ne_nil before (List.cons_ne_nil b after) nil.symm

/-- One event more: it is the one, or it leaves things as they were. -/
theorem since_concat : Since p q (past ++ [b]) ↔ p past b ∨ Since p q past ∧ q b := by
  constructor
  · rintro ⟨before, c, after, whole, here, later⟩
    rcases List.eq_nil_or_concat after with rfl | ⟨after, d, rfl⟩
    · obtain ⟨rfl, same⟩ := List.append_inj' whole rfl
      cases same
      exact .inl here
    · rw [List.concat_eq_append, ← List.cons_append, ← List.append_assoc] at whole
      obtain ⟨rfl, same⟩ := List.append_inj' whole rfl
      cases same
      rw [List.concat_eq_append] at later
      exact .inr ⟨⟨before, c, after, rfl, here, fun e mem => later e (List.mem_append_left _ mem)⟩,
        later b List.mem_concat_self⟩
  · rintro (here | ⟨⟨before, c, after, rfl, here, later⟩, kept⟩)
    · exact ⟨past, b, [], rfl, here, List.forall_mem_nil q⟩
    · refine ⟨before, c, after ++ [b], by simp, here, fun e mem => ?_⟩
      rcases List.mem_append.mp mem with mem | mem
      · exact later e mem
      · rw [List.mem_singleton.mp mem]
        exact kept

end Since

namespace Change

/-- A value has been put under the key since it was last dropped. -/
def Present (changes : List (Change α)) (key : Text) : Prop :=
  Since (fun _ c => ∃ value, c = put key value) (· ≠ drop key) changes

/-- The latest change of the key has put this value. -/
def Latest (changes : List (Change α)) (key : Text) (value : α) : Prop :=
  Since (fun _ c => c = put key value) (·.key ≠ key) changes

/-- The key last went from absent to present with the change that has `place` others before it. -/
def EnteredAt (changes : List (Change α)) (key : Text) (place : Nat) : Prop :=
  Since (fun before c => before.length = place ∧ ¬ Present before key ∧ ∃ value, c = put key value)
    (· ≠ drop key) changes

variable {changes : List (Change α)} {k key : Text} {v value : α} {place : Nat}

/-! ### One change more -/

theorem present_put : Present (changes ++ [put k v]) key ↔ k = key ∨ Present changes key := by
  rw [Present, since_concat, ← Present]
  simp

theorem present_drop : Present (changes ++ [drop k]) key ↔ Present changes key ∧ k ≠ key := by
  rw [Present, since_concat, ← Present]
  simp

theorem latest_put : Latest (changes ++ [put k v]) key value ↔
    k = key ∧ v = value ∨ Latest changes key value ∧ k ≠ key := by
  rw [Latest, since_concat, ← Latest, put.injEq]
  rfl

theorem latest_drop : Latest (changes ++ [drop k]) key value ↔
    Latest changes key value ∧ k ≠ key := by
  rw [Latest, since_concat, ← Latest]
  simp [Change.key]

theorem enteredAt_put : EnteredAt (changes ++ [put k v]) key place ↔
    (k = key ∧ place = changes.length ∧ ¬ Present changes key) ∨ EnteredAt changes key place := by
  rw [EnteredAt, since_concat, ← EnteredAt]
  simp only [put.injEq, exists_and_left, exists_eq', and_true, ne_eq, reduceCtorEq,
    not_false_eq_true]
  refine or_congr_left ⟨?_, ?_⟩
  · rintro ⟨rfl, absent, same⟩
    exact ⟨same, rfl, absent⟩
  · rintro ⟨same, rfl, absent⟩
    exact ⟨rfl, absent, same⟩

theorem enteredAt_drop : EnteredAt (changes ++ [drop k]) key place ↔
    EnteredAt changes key place ∧ k ≠ key := by
  rw [EnteredAt, since_concat, ← EnteredAt]
  simp

theorem EnteredAt.lt (entered : EnteredAt changes key place) : place < changes.length := by
  obtain ⟨before, c, after, rfl, ⟨rfl, -⟩, -⟩ := entered
  simp

theorem EnteredAt.present (entered : EnteredAt changes key place) : Present changes key := by
  obtain ⟨before, c, after, whole, ⟨-, -, given⟩, kept⟩ := entered
  exact ⟨before, c, after, whole, given, kept⟩

end Change

/-! ## Maps that record a history -/

namespace Keyed

open Change (Present Latest EnteredAt)

variable {m : Keyed α} {changes : List (Change α)}

/-- A map says what a history has left: its keys are those that are present, each with its latest
value, in the order in which they last went from absent to present. -/
structure Records (m : Keyed α) (changes : List (Change α)) : Prop where
  present : ∀ key, key ∈ m.keys ↔ Present changes key
  latest : ∀ key value, m.get? key = some value ↔ Latest changes key value
  entered : ∀ key ∈ m.keys, ∃ place, EnteredAt changes key place
  ordered : m.keys.Pairwise fun key later =>
    ∀ i j, EnteredAt changes key i → EnteredAt changes later j → i < j

theorem records_empty : Records (empty : Keyed α) [] where
  present _ := iff_of_false List.not_mem_nil not_since_nil
  latest _ _ := iff_of_false (Option.some_ne_none _).symm not_since_nil
  entered _ mem := absurd mem List.not_mem_nil
  ordered := .nil

/-- A value that is put replaces another one in its place, or the key comes last. -/
theorem Records.put (records : Records m changes) (key : Text) (value : α) :
    Records (m.set key value) (changes ++ [.put key value]) where
  present other := by
    rw [mem_keys_set, Change.present_put, records.present, eq_comm]
  latest other v := by
    rw [get?_set, Change.latest_put]
    split
    next same => simp [same]
    next different => simp [different, records.latest]
  entered other mem := by
    by_cases known : other ∈ m.keys
    · obtain ⟨place, entered⟩ := records.entered other known
      exact ⟨place, Change.enteredAt_put.mpr (.inr entered)⟩
    · have same : other = key := (mem_keys_set.mp mem).resolve_right known
      have absent : ¬ Present changes other := fun present =>
        known ((records.present other).mpr present)
      exact ⟨changes.length, Change.enteredAt_put.mpr (.inl ⟨same.symm, rfl, absent⟩)⟩
  ordered := by
    -- a key that has been there entered when it entered before
    have before {other : Text} (known : other ∈ m.keys) {i : Nat}
        (entered : EnteredAt (changes ++ [.put key value]) other i) :
        EnteredAt changes other i := by
      refine (Change.enteredAt_put.mp entered).resolve_left ?_
      rintro ⟨-, -, absent⟩
      exact absent ((records.present other).mp known)
    have old : m.keys.Pairwise fun other later =>
        ∀ i j, EnteredAt (changes ++ [.put key value]) other i →
          EnteredAt (changes ++ [.put key value]) later j → i < j :=
      records.ordered.imp_of_mem fun known known' less i j entered entered' =>
        less i j (before known entered) (before known' entered')
    rw [keys_set]
    split
    next => exact old
    next fresh =>
      refine List.pairwise_append.mpr ⟨old, List.pairwise_singleton _ _, ?_⟩
      intro other known later mem i j entered entered'
      obtain rfl := List.mem_singleton.mp mem
      rcases Change.enteredAt_put.mp entered' with ⟨-, rfl, -⟩ | there
      · exact (before known entered).lt
      · exact absurd ((records.present later).mpr there.present) fresh

/-- A key that is dropped leaves the others in their order. -/
theorem Records.drop (records : Records m changes) (key : Text) :
    Records (m.remove key).2 (changes ++ [.drop key]) where
  present other := by
    rw [keys_remove, List.mem_filter, Change.present_drop, records.present, decide_eq_true_eq,
      ne_comm]
  latest other v := by
    rw [get?_remove, Change.latest_drop]
    split
    next same => simp [same]
    next different => simp [different, records.latest]
  entered other mem := by
    rw [keys_remove, List.mem_filter, decide_eq_true_eq] at mem
    obtain ⟨place, entered⟩ := records.entered other mem.1
    exact ⟨place, Change.enteredAt_drop.mpr ⟨entered, Ne.symm mem.2⟩⟩
  ordered := by
    rw [keys_remove]
    refine (records.ordered.filter _).imp fun less i j entered entered' => ?_
    exact less i j (Change.enteredAt_drop.mp entered).1 (Change.enteredAt_drop.mp entered').1

/-- One change after the other. -/
theorem Records.foldl (records : Records m changes) (more : List (Change α)) :
    Records (more.foldl Change.apply m) (changes ++ more) := by
  induction more generalizing m changes with
  | nil =>
    rw [List.append_nil]
    exact records
  | cons c more ih =>
    have step : Records (c.apply m) (changes ++ [c]) := by
      cases c with
      | put key value => exact records.put key value
      | drop key => exact records.drop key
    have whole := ih step
    rw [List.append_assoc, List.singleton_append] at whole
    exact whole

/-- After a run the map records the history of the run. -/
theorem records_run (mutations : List (Mutation α)) :
    Records (run mutations) (Mutation.history mutations) := by
  rw [run_eq]
  exact records_empty.foldl (Mutation.history mutations)

end Keyed

/-! ## Parameter sets -/

/-- After any run of mutations a parameter set has distinct keys and records the history of the run.
What inserting and removing report is the value that was there; a value that is replaced keeps its
place, a new key comes last, and a removed one leaves the others in their order. Two sets are equal
if and only if they give the same values, and a set that is collected from pairs is the empty one
extended by them. -/
theorem Params.insertionOrdered (mutations : List (Mutation Text)) :
    let params : Params := Keyed.run mutations
    params.keys.Nodup ∧ params.Records (Mutation.history mutations) ∧
      (∀ key value, (params.insert key value).1 = params.get? key) ∧
      (∀ key, (params.remove key).1 = params.get? key) ∧
      (∀ key value, (params.insert key value).2.keys =
        if key ∈ params.keys then params.keys else params.keys ++ [key]) ∧
      (∀ key, (params.remove key).2.toList = params.toList.filter fun e => e.1 ≠ key) ∧
      (∀ other : Params, params.sameMap other = true ↔
        ∀ key, params.get? key = other.get? key) ∧
      ∀ pairs : Entries Text, Keyed.ofList pairs = Keyed.run [.extend pairs] := by
  intro params
  refine ⟨params.nodup, Keyed.records_run mutations, fun key value => ?_, fun key => ?_,
    params.keys_set, params.toList_remove, fun _ => Keyed.sameMap_iff, fun _ => rfl⟩
  · exact Entries.fst_insert key value params.entries
  · exact Entries.fst_remove key params.entries

/-- A key that comes back stands behind the others; one that is replaced does not move. -/
example : (Keyed.run [.extend [("a".toList, 1), ("b".toList, 2), ("a".toList, 3)],
    .remove "a".toList, .insert "b".toList 4, .set "a".toList 5]).toList =
    [("b".toList, 4), ("a".toList, 5)] := by decide

end UrlRouting
