import UrlRouting.Params.Basic
import UrlRouting.Proofs.Keyed
import UrlRouting.Proofs.Text.Form

/-!
# Queries put together

Reading a query takes `&` between texts to extending parameter sets (`Params.ofQuery_append`),
whatever the texts are. Each part makes a set of its own, in which a repeated key has only one
entry; nothing of what the other part needs is lost by that, since setting a key in the second set
is setting it afterwards (`Keyed.extend_set`).
-/

namespace UrlRouting.Params

/-- The parameters of two queries with an ampersand between them are those of the first, extended by
those of the second. The keys are those of all pairs, each at its first place and with its last
value. -/
theorem ofQuery_append (a b : Text) :
    ofQuery (a ++ '&' :: b) = (ofQuery a).extend (ofQuery b).toList ∧
      (ofQuery (a ++ '&' :: b)).keys =
        (Entries.keys (Form.read a) ++ Entries.keys (Form.read b)).eraseDups ∧
      ∀ key, (ofQuery (a ++ '&' :: b)).get? key =
        (Entries.last? key (Form.read b)).or (Entries.last? key (Form.read a)) := by
  have pairs : ofQuery (a ++ '&' :: b) = Keyed.ofList (Form.read a ++ Form.read b) := by
    rw [ofQuery, Form.read_append]
  refine ⟨?_, ?_, fun key => ?_⟩
  · calc ofQuery (a ++ '&' :: b)
        = Keyed.ofList (Form.read a ++ Form.read b) := pairs
      _ = (ofQuery a).extend (Form.read b) := Keyed.extend_append Keyed.empty _ _
      _ = (ofQuery a).extend (ofQuery b).toList := (Keyed.extend_ofList _ _).symm
  · rw [pairs, Keyed.keys_ofList, Entries.keys, List.map_append]
    rfl
  · rw [pairs, Keyed.get?_ofList, Entries.last?_append]

/-- A key of the first part keeps its place and takes the value from the second one. Escapes that
are none, empty pieces and keys without a value do no harm. -/
example : ((ofQuery "a=1&&b=%zz&a=%4".toList).extend (ofQuery "c&a=+&=é&b".toList).toList).toList =
    [("a".toList, " ".toList), ("b".toList, []), ("c".toList, []), ([], "é".toList)] := by
  decide +kernel

end UrlRouting.Params
