import Mathlib.Data.List.Basic
import Mathlib.Data.List.Induction
import Mathlib.Data.List.Perm.Subperm
import UrlRouting.Keyed

/-!
# Keyed lists as maps

A key that is not there yet is added at the end, so a list of distinct keys is kept as it is. No
entry is there that has not been given. Looking up a key in two lists one after the other prefers
the first.

A map is determined by its keys, in order, and their values (`Keyed.ext`). Extending a map by a list
leaves each key at its first place (`Keyed.keys_extend`) with its last value (`Keyed.get?_extend`).
-/

namespace UrlRouting

namespace Entries

variable {α : Type} {key : Text} {es fs : Entries α}

theorem insert_of_notMem (fresh : key ∉ keys es) (value : α) :
    (insert key value es).2 = es ++ [(key, value)] := by
  induction es with
  | nil => rfl
  | cons e es ih =>
    obtain ⟨k, v⟩ := e
    simp only [keys, List.map_cons, List.mem_cons, not_or] at fresh
    rw [insert, if_neg (Ne.symm fresh.1), ih fresh.2]
    rfl

theorem mem_insert {e : Text × α} {value : α} (h : e ∈ (insert key value es).2) :
    e = (key, value) ∨ e ∈ es := by
  induction es with
  | nil => exact .inl (List.mem_singleton.mp h)
  | cons f es ih =>
    obtain ⟨k, v⟩ := f
    rw [insert] at h
    split at h
    next same =>
      refine (List.mem_cons.mp h).imp (fun eq => ?_) (List.mem_cons_of_mem _)
      rw [eq, same]
    next =>
      rcases List.mem_cons.mp h with rfl | h
      · exact .inr List.mem_cons_self
      · exact (ih h).imp id (List.mem_cons_of_mem _)

theorem get?_append (key : Text) (es fs : Entries α) :
    get? key (es ++ fs) = (get? key es).or (get? key fs) := by
  induction es with
  | nil => rfl
  | cons e es ih =>
    rw [List.cons_append, get?, get?]
    split
    · rfl
    · exact ih

theorem get?_eq_none : get? key es = none ↔ key ∉ keys es := by
  induction es with
  | nil => simp [get?, keys]
  | cons e es ih =>
    obtain ⟨k, v⟩ := e
    rw [get?, keys, List.map_cons, List.mem_cons, not_or, ← keys, ← ih]
    split
    next same => simp [same]
    next other => simp [Ne.symm other]

theorem mem_of_get? {value : α} (h : get? key es = some value) : (key, value) ∈ es := by
  induction es with
  | nil => cases h
  | cons e es ih =>
    obtain ⟨k, v⟩ := e
    rw [get?] at h
    split at h
    next same =>
      cases h
      rw [same]
      exact List.mem_cons_self
    next => exact List.mem_cons_of_mem _ (ih h)

theorem get?_of_mem (nodup : (keys es).Nodup) {value : α} (mem : (key, value) ∈ es) :
    get? key es = some value := by
  induction es with
  | nil => cases mem
  | cons e es ih =>
    obtain ⟨fresh, nodup⟩ := List.nodup_cons.mp nodup
    rcases List.mem_cons.mp mem with rfl | mem
    · exact if_pos rfl
    · have ne : e.1 ≠ key := by
        rintro rfl
        exact fresh (List.mem_map.mpr ⟨_, mem, rfl⟩)
      rw [get?, if_neg ne, ih nodup mem]

/-- Entries that a filter leaves out by their keys do not concern the other keys. -/
theorem get?_filter (keep : Text → Bool) (kept : keep key = true) (es : Entries α) :
    get? key (es.filter fun e => keep e.1) = get? key es := by
  induction es with
  | nil => rfl
  | cons e es ih =>
    rw [List.filter_cons]
    split
    next => rw [get?, get?, ih]
    next dropped =>
      have ne : e.1 ≠ key := by
        rintro rfl
        exact dropped kept
      rw [get?, if_neg ne, ih]

/-! ## One entry -/

/-- What inserting reports is the value that was there. -/
theorem fst_insert (key : Text) (value : α) (es : Entries α) :
    (insert key value es).1 = get? key es := by
  induction es with
  | nil => rfl
  | cons e es ih =>
    rw [insert, get?]
    split
    next => rfl
    next => exact ih

/-- What removing reports is the value that was there. -/
theorem fst_remove (key : Text) (es : Entries α) : (remove key es).1 = get? key es := by
  induction es with
  | nil => rfl
  | cons e es ih =>
    rw [remove, get?]
    split
    next => rfl
    next => exact ih

theorem get?_insert (key other : Text) (value : α) (es : Entries α) :
    get? other (insert key value es).2 = if key = other then some value else get? other es := by
  induction es with
  | nil => rfl
  | cons e es ih =>
    obtain ⟨k, v⟩ := e
    rw [insert]
    split
    next same =>
      subst same
      rw [get?, get?]
      split <;> rfl
    next different =>
      rw [get?, get?, ih]
      split
      next here => rw [if_neg fun same => different (here.trans same.symm)]
      next => rfl

/-- A key that is removed takes its entry with it and leaves the others in their order. -/
theorem remove_eq_filter (nodup : (keys es).Nodup) (key : Text) :
    (remove key es).2 = es.filter fun e => e.1 ≠ key := by
  induction es with
  | nil => rfl
  | cons e es ih =>
    obtain ⟨fresh, nodup⟩ := List.nodup_cons.mp nodup
    rw [remove, List.filter_cons]
    split
    next same =>
      have kept : ∀ f ∈ es, f.1 ≠ key := fun f mem other =>
        fresh (List.mem_map.mpr ⟨f, mem, other.trans same.symm⟩)
      rw [if_neg (by simp [same])]
      exact (List.filter_eq_self.mpr fun f mem => decide_eq_true (kept f mem)).symm
    next other =>
      rw [if_pos (by simp [other]), ← ih nodup]

/-- The value in the last entry with a key. -/
def last? (key : Text) (es : Entries α) : Option α := get? key es.reverse

theorem last?_cons (key : Text) (e : Text × α) (es : Entries α) :
    last? key (e :: es) = (last? key es).or (if e.1 = key then some e.2 else none) := by
  rw [last?, List.reverse_cons, get?_append]
  rfl

theorem last?_append (key : Text) (es fs : Entries α) :
    last? key (es ++ fs) = (last? key fs).or (last? key es) := by
  rw [last?, List.reverse_append, get?_append]
  rfl

/-- Where no key occurs twice its only entry is the last one, too. -/
theorem last?_of_nodup (nodup : (keys es).Nodup) (key : Text) : last? key es = get? key es := by
  induction es with
  | nil => rfl
  | cons e es ih =>
    obtain ⟨fresh, nodup⟩ := List.nodup_cons.mp nodup
    rw [last?_cons, ih nodup, get?]
    split
    next same =>
      rw [get?_eq_none.mpr (same ▸ fresh)]
      rfl
    next => exact Option.or_none

end Entries

/-! ## First places -/

section EraseDups

variable {β : Type} [BEq β] [LawfulBEq β] {l : List β}

theorem eraseDups_of_nodup (nodup : l.Nodup) : l.eraseDups = l := by
  induction l with
  | nil => rfl
  | cons a l ih =>
    obtain ⟨fresh, nodup⟩ := List.nodup_cons.mp nodup
    have kept : l.filter (fun b => !b == a) = l := by
      refine List.filter_eq_self.mpr fun b mem => ?_
      have ne : b ≠ a := fun same => fresh (same ▸ mem)
      simpa using ne
    rw [List.eraseDups_cons, kept, ih nodup]

/-- An item that is there already does not come again. -/
theorem eraseDups_append_cons {a : β} (mem : a ∈ l) (r : List β) :
    (l ++ a :: r).eraseDups = (l ++ r).eraseDups := by
  have again : (a :: r).removeAll l = r.removeAll l := by
    rw [List.removeAll, List.removeAll, List.filter_cons_of_neg (by simpa using mem)]
  rw [List.eraseDups_append, List.eraseDups_append, again]

/-- A new item is left where it is. -/
theorem eraseDups_append_singleton {a : β} (fresh : a ∉ l) :
    (l ++ [a]).eraseDups = l.eraseDups ++ [a] := by
  have kept : [a].removeAll l = [a] := by
    rw [List.removeAll, List.filter_cons_of_pos (by simpa using fresh), List.filter_nil]
  rw [List.eraseDups_append, kept, List.eraseDups_cons, List.filter_nil, List.eraseDups_nil]

end EraseDups

namespace Keyed

variable {α : Type} {m n : Keyed α} {pairs : Entries α}

theorem ext_toList (same : m.toList = n.toList) : m = n := by
  obtain ⟨es, nodup⟩ := m
  obtain ⟨fs, nodup'⟩ := n
  cases same
  rfl

theorem keys_eq_map (m : Keyed α) : m.keys = m.toList.map Prod.fst := rfl

/-- A map is determined by its keys, in order, and their values. -/
theorem ext (keys : m.keys = n.keys) (values : ∀ key, m.get? key = n.get? key) : m = n := by
  have entries (m : Keyed α) :
      m.toList = m.keys.filterMap fun key => (m.get? key).map (Prod.mk key) := by
    rw [keys_eq_map, List.filterMap_map]
    refine (List.filterMap_some.symm.trans (List.filterMap_congr fun e mem => ?_))
    have value : m.get? e.1 = some e.2 := Entries.get?_of_mem m.nodup mem
    rw [Function.comp_apply, value]
    rfl
  refine ext_toList ?_
  rw [entries, entries, keys]
  exact List.filterMap_congr fun key _ => by rw [values]

/-! ## Setting a key -/

theorem keys_set (m : Keyed α) (key : Text) (value : α) :
    (m.set key value).keys = if key ∈ m.keys then m.keys else m.keys ++ [key] :=
  Entries.keys_insert key value m.entries

theorem get?_set (m : Keyed α) (key other : Text) (value : α) :
    (m.set key value).get? other = if key = other then some value else m.get? other :=
  Entries.get?_insert key other value m.entries

theorem mem_keys {key : Text} : key ∈ m.keys ↔ ∃ value, m.get? key = some value := by
  rw [← Option.ne_none_iff_exists', get?, ne_eq, Entries.get?_eq_none, not_not]
  rfl

theorem mem_keys_set {key other : Text} {value : α} :
    other ∈ (m.set key value).keys ↔ other = key ∨ other ∈ m.keys := by
  rw [keys_set]
  split
  next known => exact ⟨.inr, fun h => h.elim (fun same => same ▸ known) id⟩
  next => rw [List.mem_append, List.mem_singleton, or_comm]

/-! ## Removing a key -/

theorem toList_remove (m : Keyed α) (key : Text) :
    (m.remove key).2.toList = m.toList.filter fun e => e.1 ≠ key :=
  Entries.remove_eq_filter m.nodup key

theorem keys_remove (m : Keyed α) (key : Text) :
    (m.remove key).2.keys = m.keys.filter fun other => other ≠ key := by
  rw [keys_eq_map, toList_remove, keys_eq_map, List.filter_map]
  rfl

theorem get?_remove (m : Keyed α) (key other : Text) :
    (m.remove key).2.get? other = if key = other then none else m.get? other := by
  split
  next same =>
    subst same
    refine Entries.get?_eq_none.mpr fun mem => ?_
    have left : key ∈ m.keys.filter fun other => other ≠ key := keys_remove m key ▸ mem
    simpa using List.of_mem_filter left
  next different =>
    have kept : decide (other ≠ key) = true := decide_eq_true (Ne.symm different)
    exact (congrArg (Entries.get? other) (toList_remove m key)).trans
      (Entries.get?_filter (fun k => decide (k ≠ key)) kept m.toList)

/-! ## Maps without their order -/

section SameMap

variable [BEq α] [LawfulBEq α]

/-- Two maps are the same, in any order, if and only if they give the same values. -/
theorem sameMap_iff : m.sameMap n = true ↔ ∀ key, m.get? key = n.get? key := by
  have size (m : Keyed α) : m.size = m.keys.length := (List.length_map _).symm
  rw [sameMap, Bool.and_eq_true, beq_iff_eq, List.all_eq_true, size, size]
  constructor
  · rintro ⟨sizes, all⟩
    have found {key : Text} {value : α} (given : m.get? key = some value) :
        n.get? key = some value := eq_of_beq (all _ (Entries.mem_of_get? given))
    have sub : m.keys ⊆ n.keys := fun key mem =>
      have ⟨value, given⟩ := mem_keys.mp mem
      mem_keys.mpr ⟨value, found given⟩
    have perm : m.keys.Perm n.keys :=
      (List.subperm_of_subset m.nodup sub).perm_of_length_le (Nat.le_of_eq sizes.symm)
    intro key
    cases given : m.get? key with
    | some value => exact (found given).symm
    | none =>
      have absent : key ∉ m.keys := Entries.get?_eq_none.mp given
      exact (Entries.get?_eq_none.mpr fun mem => absent (perm.mem_iff.mpr mem)).symm
  · intro same
    have keys (key : Text) : key ∈ m.keys ↔ key ∈ n.keys := by rw [mem_keys, mem_keys, same]
    refine ⟨((List.perm_ext_iff_of_nodup m.nodup n.nodup).mpr keys).length_eq, fun e mem => ?_⟩
    exact beq_iff_eq.mpr ((same e.1).symm.trans (Entries.get?_of_mem m.nodup mem))

end SameMap

/-! ## Extending -/

/-- New keys are added at the end, in order. -/
theorem toList_extend (nodup : (m.toList ++ pairs).keys.Nodup) :
    (m.extend pairs).toList = m.toList ++ pairs := by
  induction pairs generalizing m with
  | nil => exact (List.append_nil _).symm
  | cons e pairs ih =>
    obtain ⟨key, value⟩ := e
    have step : (m.set key value).toList = m.toList ++ [(key, value)] := by
      refine Entries.insert_of_notMem (fun mem => ?_) value
      rw [Entries.keys, List.map_append, List.nodup_append] at nodup
      exact nodup.2.2 key mem key List.mem_cons_self rfl
    have shift : m.toList ++ (key, value) :: pairs = (m.set key value).toList ++ pairs := by
      rw [step, List.append_assoc]
      rfl
    rw [shift] at nodup ⊢
    exact ih nodup

theorem mem_extend {e : Text × α} (h : e ∈ (m.extend pairs).toList) :
    e ∈ m.toList ∨ e ∈ pairs := by
  induction pairs generalizing m with
  | nil => exact .inl h
  | cons f pairs ih =>
    rcases ih h with h | h
    · rcases Entries.mem_insert h with rfl | h
      · exact .inr List.mem_cons_self
      · exact .inl h
    · exact .inr (List.mem_cons_of_mem _ h)

theorem mem_ofList {e : Text × α} (h : e ∈ (ofList pairs).toList) : e ∈ pairs :=
  (mem_extend h).resolve_left List.not_mem_nil

theorem toList_ofList (nodup : pairs.keys.Nodup) : (ofList pairs).toList = pairs :=
  toList_extend (m := empty) nodup

theorem ofList_toList (m : Keyed α) : ofList m.toList = m :=
  ext_toList (toList_ofList m.nodup)

/-- Each key stands at its first place. -/
theorem keys_extend (m : Keyed α) (pairs : Entries α) :
    (m.extend pairs).keys = (m.keys ++ pairs.keys).eraseDups := by
  induction pairs generalizing m with
  | nil =>
    rw [Entries.keys, List.map_nil, List.append_nil]
    exact (eraseDups_of_nodup m.nodup).symm
  | cons e pairs ih =>
    have step : (m.extend (e :: pairs)).keys =
        ((m.set e.1 e.2).keys ++ Entries.keys pairs).eraseDups := ih (m.set e.1 e.2)
    have list : Entries.keys (e :: pairs) = e.1 :: Entries.keys pairs := rfl
    rw [step, list, keys_set]
    split
    next known => exact (eraseDups_append_cons known _).symm
    next => rw [List.append_assoc, List.singleton_append]

/-- Each key has its last value. -/
theorem get?_extend (m : Keyed α) (pairs : Entries α) (key : Text) :
    (m.extend pairs).get? key = (pairs.last? key).or (m.get? key) := by
  induction pairs generalizing m with
  | nil => rfl
  | cons e pairs ih =>
    have step : (m.extend (e :: pairs)).get? key =
        (Entries.last? key pairs).or ((m.set e.1 e.2).get? key) := ih (m.set e.1 e.2)
    rw [step, get?_set, Entries.last?_cons, Option.or_assoc]
    split <;> rfl

theorem keys_ofList (pairs : Entries α) : (ofList pairs).keys = pairs.keys.eraseDups :=
  keys_extend empty pairs

theorem get?_ofList (pairs : Entries α) (key : Text) :
    (ofList pairs).get? key = pairs.last? key :=
  (get?_extend empty pairs key).trans Option.or_none

theorem extend_append (m : Keyed α) (first second : Entries α) :
    m.extend (first ++ second) = (m.extend first).extend second := List.foldl_append

/-- A key that is set in what a map is extended by can be set afterwards. -/
theorem extend_set (m n : Keyed α) (key : Text) (value : α) :
    m.extend (n.set key value).toList = (m.extend n.toList).set key value := by
  have known {k : Text} : k ∈ (m.keys ++ n.keys).eraseDups ↔ k ∈ m.keys ∨ k ∈ n.keys := by
    rw [List.mem_eraseDups, List.mem_append]
  refine ext ?_ fun k => ?_
  · have keys (n : Keyed α) : (m.extend n.toList).keys = (m.keys ++ n.keys).eraseDups :=
      keys_extend m n.toList
    rw [keys, keys_set, keys_set, keys]
    by_cases later : key ∈ n.keys
    · rw [if_pos later, if_pos (known.mpr (.inr later))]
    rw [if_neg later, ← List.append_assoc]
    by_cases before : key ∈ m.keys
    · rw [if_pos (known.mpr (.inl before)),
        eraseDups_append_cons (List.mem_append_left n.keys before), List.append_nil]
    · have fresh : key ∉ m.keys ++ n.keys := by simp [before, later]
      rw [if_neg (by rw [List.mem_eraseDups]; exact fresh), eraseDups_append_singleton fresh]
  · have values (n : Keyed α) : (m.extend n.toList).get? k = (n.get? k).or (m.get? k) := by
      rw [get?_extend, toList, Entries.last?_of_nodup n.nodup, ← get?]
    rw [values, get?_set, get?_set, values]
    split <;> rfl

/-- A list can be made a map of its own before a map is extended by it. -/
theorem extend_ofList (m : Keyed α) (pairs : Entries α) :
    m.extend (ofList pairs).toList = m.extend pairs := by
  induction pairs using List.reverseRecOn with
  | nil => rfl
  | append_singleton pairs e ih =>
    have last (n : Keyed α) : n.extend (pairs ++ [e]) = (n.extend pairs).set e.1 e.2 :=
      extend_append n pairs [e]
    rw [ofList, last, extend_set, last, ← ofList, ih]

end Keyed

end UrlRouting
