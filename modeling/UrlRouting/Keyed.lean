import UrlRouting.Text

/-!
# Maps in insertion order

A keyed list maps texts to values and remembers the order in which keys were added. A value that is
replaced keeps its place; a key that is removed and added again comes last.

`Keyed.insert` and `Keyed.remove` work in one pass and report the value that was there before.
-/

namespace UrlRouting

/-- Keys with their values, in order. -/
abbrev Entries (α : Type) := List (Text × α)

namespace Entries

variable {α : Type}

/-- The keys, in order. -/
def keys (es : Entries α) : List Text := es.map Prod.fst

/-- The value of a key. -/
def get? (key : Text) : Entries α → Option α
  | [] => none
  | (k, v) :: es => if k = key then some v else get? key es

/-- Gives a key a value, in its place or at the end, and reports its former value. -/
def insert (key : Text) (value : α) : Entries α → Option α × Entries α
  | [] => (none, [(key, value)])
  | (k, v) :: es =>
    if k = key then (some v, (k, value) :: es)
    else ((insert key value es).1, (k, v) :: (insert key value es).2)

/-- Takes a key out and reports its value. -/
def remove (key : Text) : Entries α → Option α × Entries α
  | [] => (none, [])
  | (k, v) :: es =>
    if k = key then (some v, es) else ((remove key es).1, (k, v) :: (remove key es).2)

theorem keys_insert (key : Text) (value : α) (es : Entries α) :
    keys (insert key value es).2 = if key ∈ keys es then keys es else keys es ++ [key] := by
  induction es with
  | nil => simp [insert, keys]
  | cons e es ih =>
    obtain ⟨k, v⟩ := e
    by_cases h : k = key
    · simp [insert, keys, h]
    · simp only [keys] at ih
      by_cases mem : key ∈ es.map Prod.fst <;>
        simp_all [insert, keys, Ne.symm h]

theorem nodup_keys_insert {key : Text} {value : α} {es : Entries α} (h : (keys es).Nodup) :
    (keys (insert key value es).2).Nodup := by
  rw [keys_insert]
  split
  · exact h
  next fresh =>
    simp only [List.nodup_append, h, List.nodup_cons, List.mem_singleton, true_and]
    exact ⟨by simp, fun a mem b eq same => fresh (eq ▸ same ▸ mem)⟩

theorem keys_remove_sublist (key : Text) (es : Entries α) :
    (keys (remove key es).2).Sublist (keys es) := by
  induction es with
  | nil => simp [remove, keys]
  | cons e es ih =>
    obtain ⟨k, v⟩ := e
    by_cases h : k = key
    · simp [remove, keys, h]
    · simpa [remove, keys, h] using ih

theorem nodup_keys_remove {key : Text} {es : Entries α} (h : (keys es).Nodup) :
    (keys (remove key es).2).Nodup := (keys_remove_sublist key es).nodup h

end Entries

/-- Entries in which no key occurs twice. -/
structure Keyed (α : Type) where
  entries : Entries α
  nodup : entries.keys.Nodup

namespace Keyed

variable {α : Type}

/-- The empty map. -/
def empty : Keyed α := ⟨[], List.nodup_nil⟩

/-- The entries in order. -/
def toList (m : Keyed α) : Entries α := m.entries

/-- The keys in order. -/
def keys (m : Keyed α) : List Text := m.entries.keys

/-- The value of a key. -/
def get? (m : Keyed α) (key : Text) : Option α := m.entries.get? key

/-- Whether a key is present. -/
def contains (m : Keyed α) (key : Text) : Bool := (m.get? key).isSome

/-- The number of entries. -/
def size (m : Keyed α) : Nat := m.entries.length

/-- Whether there is no entry. -/
def isEmpty (m : Keyed α) : Bool := m.entries.isEmpty

/-- Gives a key a value and reports the one that it replaces. -/
def insert (m : Keyed α) (key : Text) (value : α) : Option α × Keyed α :=
  ((m.entries.insert key value).1,
    ⟨(m.entries.insert key value).2, Entries.nodup_keys_insert m.nodup⟩)

/-- The map in which a key has a given value. -/
def set (m : Keyed α) (key : Text) (value : α) : Keyed α := (m.insert key value).2

/-- Takes a key out and reports its value. -/
def remove (m : Keyed α) (key : Text) : Option α × Keyed α :=
  ((m.entries.remove key).1, ⟨(m.entries.remove key).2, Entries.nodup_keys_remove m.nodup⟩)

/-- Sets the keys of a list to their values, one after the other. -/
def extend (m : Keyed α) (pairs : Entries α) : Keyed α :=
  pairs.foldl (fun m (key, value) => m.set key value) m

/-- The map of a list of keys and values. -/
def ofList (pairs : Entries α) : Keyed α := empty.extend pairs

/-- Whether two maps have the same keys with the same values, in any order. -/
def sameMap [BEq α] (m n : Keyed α) : Bool :=
  m.size == n.size && m.entries.all fun (key, value) => n.get? key == some value

end Keyed

end UrlRouting
