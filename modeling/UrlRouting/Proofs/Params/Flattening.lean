import Mathlib.Data.List.TakeWhile
import UrlRouting.Params.Flatten
import UrlRouting.Params.Json
import UrlRouting.Proofs.Keyed
import UrlRouting.Proofs.Result
import UrlRouting.Proofs.Text.Form

/-!
# Flattened values as parameters

A value that is flattened goes through the text of a form. Nothing is lost on the way: the
parameters are those that are found by inserting the entries one by one
(`Params.flatten_eq_insertAll`). Only floating-point numbers have two texts, one as a parameter and
one in a form; `Flatten.Exact` leaves them aside.
-/

namespace UrlRouting

/-! ## Whole numbers -/

namespace Scalar

/-- The digits of a number are read as the number. -/
theorem number_repr (n : Nat) : number n.repr.toList = n := by
  rw [number, Nat.toList_repr]
  exact Nat.ofDigitChars_toDigits (by decide) (by decide)

theorem isDigit_of_mem_repr {n : Nat} {c : Char} (mem : c ∈ n.repr.toList) : c.isDigit = true := by
  rw [Nat.toList_repr] at mem
  exact Nat.isDigit_of_mem_toDigits (by decide) (by decide) mem

theorem takeWhile_repr (n : Nat) : n.repr.toList.takeWhile Char.isDigit = n.repr.toList :=
  List.takeWhile_eq_self_iff.mpr fun _ mem => isDigit_of_mem_repr mem

theorem dropWhile_repr (n : Nat) : n.repr.toList.dropWhile Char.isDigit = [] :=
  List.dropWhile_eq_nil_iff.mpr fun _ mem => isDigit_of_mem_repr mem

/-- A whole number in bounds is read from its numeral. -/
theorem ofNumeral_toString {n : Int} (low : leastInt ≤ n) (high : n ≤ greatestInt) :
    ofNumeral (toString n).toList = .int n := by
  cases n with
  | ofNat n =>
    have numeral : (toString (Int.ofNat n)).toList = n.repr.toList := rfl
    have plain : ∀ t, n.repr.toList ≠ '-' :: t := by
      intro t same
      have digit : '-' ∈ n.repr.toList := by
        rw [same]
        exact List.mem_cons_self
      exact absurd (isDigit_of_mem_repr digit) (by decide)
    rw [numeral, ofNumeral]
    · dsimp only
      rw [dropWhile_repr, takeWhile_repr, number_repr]
      dsimp only
      rw [if_neg Bool.false_ne_true, if_pos ⟨low, high, by simp⟩]
      rfl
    · exact plain
  | negSucc n =>
    have numeral : (toString (Int.negSucc n)).toList = '-' :: (n + 1).repr.toList := by
      change ("-" ++ (n + 1).repr).toList = _
      rw [String.toList_append]
      rfl
    rw [numeral, ofNumeral]
    dsimp only
    rw [dropWhile_repr, takeWhile_repr, number_repr]
    dsimp only
    have value : -((n + 1 : Nat) : Int) = Int.negSucc n := rfl
    rw [if_pos rfl, value, if_pos ⟨low, high, by simp⟩]

end Scalar

/-! ## Entries -/

namespace Flatten

/-- A value that is absent, or that has the same text as a parameter and in a form: a text, a truth
value or a whole number. -/
inductive Exact : Json → Prop
  | absent : Exact .null
  | text (t : Text) : Exact (.ofText t)
  | bool (b : Bool) : Exact (.bool b)
  | whole {numeral : Text} {n : Int} : Scalar.ofNumeral numeral = .int n → Exact (.number numeral)

theorem Exact.int {n : Int} (low : Scalar.leastInt ≤ n) (high : n ≤ Scalar.greatestInt) :
    Exact (.number (toString n).toList) :=
  .whole (Scalar.ofNumeral_toString low high)

/-- An entry as a member of an object. -/
def member (entry : Text × Json) : Option Text × Json := (some entry.1, entry.2)

/-- An entry as an item of a list. -/
def item (entry : Text × Json) : Json := .array [.ofText entry.1, entry.2]

/-- The text of a value as a parameter, if it is not absent. -/
def given? (v : Json) : Option Text := (scalar? v).map Scalar.toText

/-- The key of an entry with the text of its value, if it is not absent. -/
def pairOf? (entry : Text × Json) : Option (Text × Text) :=
  (given? entry.2).map fun value => (entry.1, value)

end Flatten

/-- The parameters after all entries that are not absent have been inserted, one after the other. -/
def Params.insertAll (params : Params) : List (Text × Json) → Params
  | [] => params
  | (key, v) :: entries =>
    match Flatten.given? v with
    | some value => insertAll (params.insert key value).2 entries
    | none => insertAll params entries

theorem Params.insertAll_eq_extend (params : Params) (entries : List (Text × Json)) :
    params.insertAll entries = params.extend (entries.filterMap Flatten.pairOf?) := by
  induction entries generalizing params with
  | nil => rfl
  | cons entry entries ih =>
    obtain ⟨key, v⟩ := entry
    rw [insertAll, List.filterMap_cons, Flatten.pairOf?]
    cases Flatten.given? v with
    | none => exact ih params
    | some value => exact ih _

/-! ## Pairs of a form -/

namespace Flatten

/-- The pair for an entry has the text of its value as a parameter. -/
theorem Exact.pair? {v : Json} (exact : Exact v) (key : Text) :
    Flatten.pair? key v = .ok (pairOf? (key, v)) := by
  cases exact with
  | absent => rfl
  | text t => rfl
  | bool b => rfl
  | whole read =>
    rw [Flatten.pair?, pairOf?, given?, scalar?, read]
    · rfl
    · intro absent
      cases absent

section

variable {entries : List (Text × Json)} {α : Type}
  {write : Text × Json → α} {f : α → Except FlattenError (Option (Text × Text))}

theorem mapM_entries (each : ∀ entry ∈ entries, f (write entry) = .ok (pairOf? entry)) :
    (entries.map write).mapM f = .ok (entries.map pairOf?) := by
  induction entries with
  | nil => rfl
  | cons entry entries ih =>
    obtain ⟨first, rest⟩ := List.forall_mem_cons.mp each
    rw [List.map_cons, List.mapM_cons, first, ih rest]
    rfl

/-- The pairs of an object are its entries that are not absent. -/
theorem pairs_object (exact : ∀ entry ∈ entries, Exact entry.2) :
    pairs (.object (entries.map member)) = .ok (entries.filterMap pairOf?) := by
  have each : (entries.map member).mapM ofMember = .ok (entries.map pairOf?) :=
    mapM_entries fun entry mem => (exact entry mem).pair? entry.1
  rw [pairs, each, ok_bind, List.filterMap_map]
  rfl

/-- So are the pairs of a list. -/
theorem pairs_array (exact : ∀ entry ∈ entries, Exact entry.2) :
    pairs (.array (entries.map item)) = .ok (entries.filterMap pairOf?) := by
  have each : (entries.map item).mapM ofItem = .ok (entries.map pairOf?) :=
    mapM_entries fun entry mem => (exact entry mem).pair? entry.1
  rw [pairs, each, ok_bind, List.filterMap_map]
  rfl

end

end Flatten

/-! ## Parameters -/

namespace Params

open Flatten

theorem flatten_of_pairs {v : Json} {ps : List (Text × Text)} (h : pairs v = .ok ps) :
    flatten v = .ok (.ofList ps) := by
  rw [flatten, h, ok_bind, ofQuery, Form.read_write]
  rfl

/-- Flattening an object, or a list of pairs, gives the parameters that are found by inserting its
entries one by one. So a parameter set is kept when it is flattened. -/
theorem flatten_eq_insertAll {entries : List (Text × Json)}
    (exact : ∀ entry ∈ entries, Exact entry.2) :
    flatten (.object (entries.map member)) = .ok (insertAll .empty entries) ∧
      flatten (.array (entries.map item)) = .ok (insertAll .empty entries) ∧
      ∀ params : Params, flatten params.toJson = .ok params := by
  rw [insertAll_eq_extend]
  refine ⟨flatten_of_pairs (pairs_object exact), flatten_of_pairs (pairs_array exact), ?_⟩
  intro params
  have texts : ∀ entry ∈ params.toList.map fun e => (e.1, Json.ofText e.2), Exact entry.2 := by
    intro entry mem
    obtain ⟨e, -, same⟩ := List.mem_map.mp mem
    rw [← same]
    exact .text e.2
  have object : params.toJson =
      .object ((params.toList.map fun e => (e.1, Json.ofText e.2)).map member) := by
    rw [toJson, List.map_map]
    rfl
  have kept : (params.toList.map fun e => (e.1, Json.ofText e.2)).filterMap pairOf? =
      params.toList := by
    rw [List.filterMap_map]
    exact List.filterMap_some
  rw [object, flatten_of_pairs (pairs_object texts), kept]
  exact congrArg Except.ok (Keyed.ofList_toList params)

/-- A key that comes again keeps its place and takes the later value; characters with a meaning in a
form, empty keys, absent values and the whole numbers at the bounds do no harm. -/
theorem flatten_eq_insertAll_repeated :
    flatten (.object ([([], .ofText "a+b &=%é".toList), ("k".toList, .bool true),
        ("n".toList, .null), ("k".toList, .number "-5".toList),
        ("least".toList, .number (toString Scalar.leastInt).toList),
        ("greatest".toList, .number (toString Scalar.greatestInt).toList)].map member)) =
      .ok (.ofList [([], "a+b &=%é".toList), ("k".toList, "-5".toList),
        ("least".toList, "-9223372036854775808".toList),
        ("greatest".toList, "18446744073709551615".toList)]) := by
  have exact : ∀ entry ∈ [([], Json.ofText "a+b &=%é".toList), ("k".toList, .bool true),
      ("n".toList, .null), ("k".toList, .number "-5".toList),
      ("least".toList, .number (toString Scalar.leastInt).toList),
      ("greatest".toList, .number (toString Scalar.greatestInt).toList)], Exact entry.2 := by
    simp only [List.forall_mem_cons]
    exact ⟨.text _, .bool _, .absent, .whole (n := -5) rfl,
      .int (Int.le_refl _) (by decide), .int (by decide) (Int.le_refl _), by simp⟩
  rw [(flatten_eq_insertAll exact).1]
  rfl

end Params

end UrlRouting
