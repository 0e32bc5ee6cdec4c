import Mathlib.Data.List.Infix
import UrlRouting.Proofs.Keyed
import UrlRouting.Proofs.Pattern.Matching
import UrlRouting.Proofs.Text.Cuts
import UrlRouting.Url.Build

/-!
# How often values are decoded

The values of a match are read from contiguous pieces of the location. Where the location has been
matched as it is written, their escapes are read once. Where it has been matched with its escapes
read, those of a piece are read twice (`Matcher.decoded_of_match?`), which makes a difference if the
piece has a percent sign left after the first time (`Matcher.decoded_twice`).
-/

namespace UrlRouting

namespace Matcher

variable {m : Matcher}

theorem textBetween_infix (input : Array Char) (p q : Nat) :
    textBetween input p q <:+: input.toList := by
  rw [textBetween_eq]
  exact (List.take_prefix _ _).isInfix.trans (List.drop_suffix _ _).isInfix

theorem piece?_infix {input : Array Char} {caps : Captures} {index : Nat} {piece : Text}
    (h : m.piece? input caps index = some piece) : piece <:+: input.toList := by
  obtain ⟨number, -, taken⟩ := Option.bind_eq_some_iff.mp h
  obtain ⟨span, -, rfl⟩ := Option.map_eq_some_iff.mp taken
  exact textBetween_infix input span.1 span.2

/-- The values that are extracted are decoded from contiguous pieces of the location. -/
theorem decoded_of_extract? {location : Text} {params : Params}
    (h : m.extract? location = some params) :
    ∀ e ∈ params.toList, ∃ piece, piece <:+: location ∧ e.2 = Percent.decode piece := by
  intro e mem
  rw [extract?_eq] at h
  obtain ⟨caps, -, rfl⟩ := Option.map_eq_some_iff.mp h
  obtain ⟨⟨name, v⟩, zipped, bound⟩ := List.mem_filterMap.mp (Keyed.mem_ofList mem)
  obtain ⟨piece, rfl, rfl⟩ := Option.map_eq_some_iff.mp bound
  obtain ⟨index, -, taken⟩ := List.mem_map.mp (List.of_mem_zip zipped).2
  exact ⟨piece, piece?_infix taken, rfl⟩

/-- Each value of a match is decoded from a contiguous piece of the location as it is written: once
if the location has been matched as it is written, and otherwise twice. Decoding it twice is the
same as decoding it once if no percent sign is left in it. -/
theorem decoded_of_match? {url : Text} {found : RouteMatch} (matched : m.match? url = some found) :
    ∀ e ∈ found.params.toList, ∃ piece, piece <:+: Url.location url ∧
      (m.extract? (Url.location url) = some found.params ∧ e.2 = Percent.decode piece ∨
        m.extract? (Url.location url) = none ∧ e.2 = Percent.decode (Percent.decode piece)) ∧
      ('%' ∉ Percent.decode piece → e.2 = Percent.decode piece) := by
  intro e mem
  obtain ⟨params, extracted, rfl⟩ := Option.map_eq_some_iff.mp matched
  rcases Option.or_eq_some_iff.mp extracted with written | ⟨refused, decoded⟩
  · obtain ⟨piece, within, value⟩ := decoded_of_extract? written e mem
    exact ⟨piece, within, .inl ⟨written, value⟩, fun _ => value⟩
  · obtain ⟨read, inside, value⟩ := decoded_of_extract? decoded e mem
    obtain ⟨piece, within, rfl⟩ := Percent.exists_infix inside
    refine ⟨piece, within, .inr ⟨refused, value⟩, fun plain => ?_⟩
    rw [value, Percent.decode_of_notMem plain]

/-- A location that is matched with its escapes read. No percent sign is left, so that the escapes
of the value have been read once. -/
theorem decoded_once : ∃ p m found,
    Pattern.compile .anywhere "/files/{name:[a-z ]+}".toList = .ok (p, m) ∧
      m.match? "/files/read%20me?v=1".toList = some found ∧
      found.params.toList = [("name".toList, "read me".toList)] ∧
      ∃ piece, piece <:+: Url.location "/files/read%20me?v=1".toList ∧
        "read me".toList = Percent.decode (Percent.decode piece) := by
  obtain ⟨⟨p, m⟩, compiled, holds⟩ := exists_ok_of_any
    (Pattern.compile .anywhere "/files/{name:[a-z ]+}".toList)
    (fun x => decide ((x.2.extract? (Url.location "/files/read%20me?v=1".toList)).isNone ∧
      ∃ found ∈ x.2.match? "/files/read%20me?v=1".toList,
        found.params.toList = [("name".toList, "read me".toList)]))
    (by decide +kernel)
  obtain ⟨refused, found, matched, params⟩ := of_decide_eq_true holds
  refine ⟨p, m, found, compiled, matched, params, ?_⟩
  obtain ⟨piece, within, ⟨written, -⟩ | ⟨-, value⟩, -⟩ :=
    decoded_of_match? matched ("name".toList, "read me".toList) (by rw [params]; decide)
  · rw [written] at refused
    cases refused
  · exact ⟨piece, within, value⟩

/-- The escapes of a value that has been built are read twice, so that the match does not give it
back. What it gives instead is read from no piece of the location. -/
theorem decoded_twice : ∃ p m found,
    Pattern.compile .anywhere "/{a:[a-z]+%20}".toList = .ok (p, m) ∧
      Url.build p (.ofList [("a".toList, "abc%20".toList)]) = "/abc%2520".toList ∧
      m.match? "/abc%2520".toList = some found ∧
      found.params.toList = [("a".toList, "abc ".toList)] ∧
      ¬ ∃ piece, piece <:+: Url.location "/abc%2520".toList ∧
        "abc ".toList = Percent.decode piece := by
  obtain ⟨⟨p, m⟩, compiled, holds⟩ := exists_ok_of_any
    (Pattern.compile .anywhere "/{a:[a-z]+%20}".toList)
    (fun x => decide (
      Url.build x.1 (.ofList [("a".toList, "abc%20".toList)]) = "/abc%2520".toList ∧
      ∃ found ∈ x.2.match? "/abc%2520".toList,
        found.params.toList = [("a".toList, "abc ".toList)]))
    (by decide +kernel)
  obtain ⟨built, found, matched, params⟩ := of_decide_eq_true holds
  refine ⟨p, m, found, compiled, built, matched, params, ?_⟩
  have none : ∀ u ∈ (Url.location "/abc%2520".toList).tails, ∀ piece ∈ u.inits,
      "abc ".toList ≠ Percent.decode piece := by decide +kernel
  rintro ⟨piece, within, value⟩
  obtain ⟨u, front, behind⟩ := List.infix_iff_prefix_suffix.mp within
  exact none u ((List.mem_tails _ _).mpr behind) piece ((List.mem_inits _ _).mpr front) value

end Matcher

end UrlRouting
