import UrlRouting.Proofs.Pattern.Scanning

/-!
# Optional parts at the end

Where optional parts may stand only at the end of their list, the scanner leaves trees in which they
do (`trailing_of_scan`). An optional part that has been closed is the latest part of its list, and
nothing but the end of that list can follow.
-/

namespace UrlRouting

namespace Node

theorem trailingList_append {ns ms : List Node} (left : ∀ n ∈ ns, n.Trailing ∧ n.isOptional = false)
    (right : TrailingList ms) : TrailingList (ns ++ ms) := by
  induction ns with
  | nil => exact right
  | cons n ns ih =>
    obtain ⟨⟨trailing, fixed⟩, rest⟩ := List.forall_mem_cons.mp left
    refine ⟨trailing, fun optional => ?_, ih rest⟩
    rw [fixed] at optional
    cases optional

end Node

namespace Scan

/-- The latest part of a list may be optional, but only if it has just been closed. The parts before
it are not, and neither are those before an optional part that is open. -/
structure Trails (s : Scan) : Prop where
  latest : ∀ n ∈ s.nodes.head?, n.Trailing ∧ (n.isOptional = true → s.closed = true)
  former : ∀ n ∈ s.nodes.tail, n.Trailing ∧ n.isOptional = false
  outer : ∀ o ∈ s.outer, ∀ n ∈ o.before, n.Trailing ∧ n.isOptional = false
  closed : s.closed = true → s.body = none ∧ s.literal = []

namespace Trails

variable {s s' : Scan} {c : Char}

theorem start : Trails {} := ⟨nofun, nofun, nofun, nofun⟩

/-- Where nothing has just been closed, no part of the list is optional. -/
theorem fixed (trails : Trails s) (still : s.closed = false) :
    ∀ n ∈ s.nodes, n.Trailing ∧ n.isOptional = false := by
  intro n mem
  cases given : s.nodes with
  | nil =>
    rw [given] at mem
    cases mem
  | cons m ms =>
    rw [given] at mem
    have latest := trails.latest m (by rw [given]; rfl)
    have former := trails.former n
    rw [given, List.tail_cons] at former
    rcases List.mem_cons.mp mem with rfl | mem
    · refine ⟨latest.1, ?_⟩
      cases optional : n.isOptional with
      | false => rfl
      | true =>
        have now := latest.2 optional
        rw [still] at now
        cases now
    · exact former mem

theorem flushed_fixed (trails : Trails s) (still : s.closed = false) :
    ∀ n ∈ s.flushed, n.Trailing ∧ n.isOptional = false := by
  intro n mem
  unfold Scan.flushed at mem
  split at mem
  next => exact trails.fixed still n mem
  next =>
    rcases List.mem_cons.mp mem with rfl | mem
    · exact ⟨trivial, rfl⟩
    · exact trails.fixed still n mem

/-- The parts of the present list, in order, have optional parts only at the end. -/
theorem flushed (trails : Trails s) : Node.TrailingList s.flushed.reverse := by
  cases still : s.closed with
  | false =>
    have fixed := trails.flushed_fixed still
    rw [← List.append_nil s.flushed.reverse]
    exact Node.trailingList_append (fun n mem => fixed n (List.mem_reverse.mp mem)) trivial
  | true =>
    have latest := trails.latest
    have former := trails.former
    rw [Scan.flushed, if_pos (trails.closed still).2]
    cases given : s.nodes with
    | nil => trivial
    | cons n ns =>
      rw [given] at latest former
      rw [List.reverse_cons]
      refine Node.trailingList_append (fun m mem => former m (List.mem_reverse.mp mem)) ?_
      exact ⟨(latest n rfl).1, fun _ => rfl, trivial⟩

theorem stepBody {b : Body} (trails : Trails s) (inside : s.body = some b)
    (h : s.stepBody b c = .ok s') : Trails s' := by
  have still : s.closed = false := by
    cases closed : s.closed with
    | false => rfl
    | true =>
      have outside := (trails.closed closed).1
      rw [inside] at outside
      cases outside
  -- a character that stays in the placeholder
  have keep (b' : Body) : Trails { s with position := s.position + c.utf8Size, body := some b' } :=
    ⟨trails.latest, trails.former, trails.outer,
      fun closed => by rw [still] at closed; cases closed⟩
  unfold Scan.stepBody at h
  dsimp only at h
  split at h
  next => cases h; exact keep _
  next =>
  split at h
  next => cases h; exact keep _
  next =>
  split at h
  next => cases h; exact keep _
  next =>
  split at h
  next =>
    split at h
    next => cases h; exact keep _
    next =>
      obtain ⟨p, -, h⟩ := bind_eq_ok.mp h
      cases h
      refine ⟨fun n mem => ?_, trails.fixed still, trails.outer, fun closed => ?_⟩
      · cases mem
        exact ⟨trivial, nofun⟩
      · rw [still] at closed
        cases closed
  next => cases h; exact keep _

theorem close (trails : Trails s) (outside : s.body = none) (h : s.close = .ok s') : Trails s' := by
  unfold Scan.close at h
  split at h
  next => cases h
  next o outer opened =>
    have around := trails.outer
    rw [opened] at around
    split at h
    next => cases h
    next =>
      cases h
      refine ⟨fun n mem => ?_, around o List.mem_cons_self,
        fun o' mem => around o' (List.mem_cons_of_mem o mem), fun _ => ⟨outside, rfl⟩⟩
      cases mem
      exact ⟨trails.flushed, fun _ => rfl⟩

theorem stepPlain (trails : Trails s) (outside : s.body = none)
    (still : c ≠ ']' → s.closed = false) (h : s.stepPlain c = .ok s') : Trails s' := by
  unfold Scan.stepPlain at h
  split at h
  next brace =>
    cases h
    have fixed := trails.flushed_fixed (still (by rw [brace]; decide))
    refine ⟨fun n mem => ?_, fun n mem => fixed n (List.mem_of_mem_tail mem), trails.outer, nofun⟩
    have known := fixed n (List.mem_of_mem_head? mem)
    exact ⟨known.1, fun optional => by rw [known.2] at optional; cases optional⟩
  next =>
  split at h
  next bracket =>
    cases h
    have fixed := trails.flushed_fixed (still (by rw [bracket]; decide))
    exact ⟨nofun, nofun, List.forall_mem_cons.mpr ⟨fixed, trails.outer⟩, nofun⟩
  next =>
  split at h
  next => exact trails.close outside h
  next plain =>
    cases h
    have fixed := trails.fixed (still plain)
    refine ⟨fun n mem => ?_, trails.former, trails.outer, nofun⟩
    have known := fixed n (List.mem_of_mem_head? mem)
    exact ⟨known.1, fun optional => by rw [known.2] at optional; cases optional⟩

/-- Each character keeps optional parts at the end. -/
theorem step (trails : Trails s) (h : s.step .trailingOnly c = .ok s') : Trails s' := by
  unfold Scan.step at h
  split at h
  next b inside => exact trails.stepBody inside h
  next outside =>
    split at h
    next => cases h
    next allowed =>
      refine trails.stepPlain outside (fun ne => ?_) h
      cases closed : s.closed with
      | false => rfl
      | true => exact absurd ⟨rfl, closed, ne⟩ allowed

theorem run {t : Text} (trails : Trails s) (h : t.foldlM (Scan.step .trailingOnly) s = .ok s') :
    Trails s' := by
  induction t generalizing s with
  | nil =>
    cases h
    exact trails
  | cons c t ih =>
    obtain ⟨s₁, first, rest⟩ := bind_eq_ok.mp h
    exact ih (trails.step first) rest

end Trails

end Scan

/-- Optional parts stand at the end of their lists where they may stand only there. -/
theorem trailing_of_scan {t : Text} {p : Pattern} (h : Pattern.scan .trailingOnly t = .ok p) :
    Node.TrailingList p.nodes := by
  obtain ⟨s, run, h⟩ := bind_eq_ok.mp h
  obtain ⟨ns, finish, h⟩ := bind_eq_ok.mp h
  cases h
  have trails := Scan.Trails.start.run run
  unfold Scan.finish at finish
  split at finish
  next => cases finish
  next => cases finish
  next =>
    cases finish
    exact trails.flushed

end UrlRouting
