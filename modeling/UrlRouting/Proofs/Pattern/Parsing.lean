import UrlRouting.Proofs.Matcher.Constraint
import UrlRouting.Proofs.Pattern.Scanning

/-!
# Which texts are patterns

A text is a pattern if it writes a well-formed tree, and it is that pattern only
(`Pattern.parse_iff_written`).

The scanner leaves one thing open. Trimming can take a blank away from a constraint that a backslash
before it has escaped. Such a constraint is refused, because the backslash then stands in front of
the parenthesis that closes the constraint's group (`Matcher.not_dangles_of_checkConstraint`).
-/

namespace UrlRouting

/-! ## Checks -/

theorem dropBeginning_isSome {b t : Text} : (Text.dropBeginning b t).isSome ↔ b <+: t := by
  induction b generalizing t with
  | nil => simp [Text.dropBeginning]
  | cons c b ih =>
    cases t with
    | nil => simp [Text.dropBeginning]
    | cons d t =>
      rw [Text.dropBeginning, List.cons_prefix_cons]
      split
      next same => simp [same, ih]
      next differ => simp [differ]

namespace Pattern

theorem checkGroupNames_eq_ok {seen new groups : List Text} :
    checkGroupNames seen groups = .ok new ↔
      (∀ g ∈ groups, ¬ Matcher.reservedBeginning <+: g) ∧ groups.Nodup ∧ (∀ g ∈ groups, g ∉ seen) ∧
        new = groups.reverse ++ seen := by
  induction groups generalizing seen with
  | nil => simp [checkGroupNames, eq_comm]
  | cons g groups ih =>
    rw [checkGroupNames]
    split
    next reserved =>
      have reserved := dropBeginning_isSome.mp reserved
      simp [reserved]
    next unreserved =>
      have unreserved : ¬ Matcher.reservedBeginning <+: g :=
        fun reserved => unreserved (dropBeginning_isSome.mpr reserved)
      split
      next repeated => simp [repeated]
      next fresh =>
        rw [ih]
        simp only [List.mem_cons, forall_eq_or_imp, List.nodup_cons, not_or, List.reverse_cons,
          List.append_assoc, List.singleton_append]
        constructor
        · rintro ⟨h₁, h₂, h₃, h₄⟩
          exact ⟨⟨unreserved, h₁⟩, ⟨fun mem => (h₃ g mem).1 rfl, h₂⟩,
            ⟨fresh, fun d mem => (h₃ d mem).2⟩, h₄⟩
        · rintro ⟨⟨-, h₁⟩, ⟨h₂, h₃⟩, ⟨-, h₄⟩, h₅⟩
          refine ⟨h₁, h₃, fun d mem => ⟨?_, h₄ d mem⟩, h₅⟩
          rintro rfl
          exact h₂ mem

/-- What the check of placeholders asks for, given the names and named groups before them. -/
structure Checked (names groups : List Text) (ps : List Placeholder) : Prop where
  distinct : (ps.map (·.name)).Nodup
  fresh : ∀ p ∈ ps, p.name ∉ names
  uncaptured : ∀ p ∈ ps, ∀ c ∈ p.constraint, Constraint.firstCapturing? c = none
  unreserved : ∀ g ∈ ps.flatMap (·.groupNames), ¬ Matcher.reservedBeginning <+: g
  unrepeated : (ps.flatMap (·.groupNames)).Nodup
  unseen : ∀ g ∈ ps.flatMap (·.groupNames), g ∉ groups

theorem checked_cons {names groups : List Text} {p : Placeholder} {ps : List Placeholder} :
    Checked names groups (p :: ps) ↔ p.name ∉ names ∧
      (∀ c ∈ p.constraint, Constraint.firstCapturing? c = none) ∧
      (∀ g ∈ p.groupNames, ¬ Matcher.reservedBeginning <+: g) ∧ p.groupNames.Nodup ∧
      (∀ g ∈ p.groupNames, g ∉ groups) ∧
      Checked (p.name :: names) (p.groupNames.reverse ++ groups) ps := by
  constructor
  · rintro ⟨distinct, fresh, uncaptured, unreserved, unrepeated, unseen⟩
    simp only [List.map_cons, List.nodup_cons, List.mem_map, not_exists, not_and] at distinct
    simp only [List.flatMap_cons, List.mem_append, List.nodup_append]
      at unreserved unrepeated unseen
    simp only [List.mem_cons, forall_eq_or_imp] at fresh uncaptured
    refine ⟨fresh.1, uncaptured.1, fun g mem => unreserved g (.inl mem), unrepeated.1,
      fun g mem => unseen g (.inl mem), distinct.2, fun q mem => ?_, uncaptured.2,
      fun g mem => unreserved g (.inr mem), unrepeated.2.1, fun g mem => ?_⟩
    · simp only [List.mem_cons, not_or]
      exact ⟨fun same => distinct.1 q mem same, fresh.2 q mem⟩
    · simp only [List.mem_append, List.mem_reverse, not_or]
      exact ⟨fun before => unrepeated.2.2 g before g mem rfl, unseen g (.inr mem)⟩
  · rintro ⟨fresh, uncaptured, unreserved, unrepeated, unseen, rest⟩
    refine ⟨?_, ?_, ?_, ?_, ?_, ?_⟩
    · rw [List.map_cons, List.nodup_cons]
      refine ⟨fun mem => ?_, rest.distinct⟩
      obtain ⟨q, mem, same⟩ := List.mem_map.mp mem
      exact rest.fresh q mem (by rw [same]; exact List.mem_cons_self)
    · refine List.forall_mem_cons.mpr ⟨fresh, fun q mem old => ?_⟩
      exact rest.fresh q mem (List.mem_cons_of_mem _ old)
    · exact List.forall_mem_cons.mpr ⟨uncaptured, rest.uncaptured⟩
    · intro g mem
      rw [List.flatMap_cons] at mem
      exact (List.mem_append.mp mem).elim (unreserved g) (rest.unreserved g)
    · rw [List.flatMap_cons, List.nodup_append]
      refine ⟨unrepeated, rest.unrepeated, fun g mem h mem' same => ?_⟩
      refine rest.unseen h mem' (List.mem_append_left _ (List.mem_reverse.mpr ?_))
      rwa [← same]
    · intro g mem
      rw [List.flatMap_cons] at mem
      rcases List.mem_append.mp mem with mem | mem
      · exact unseen g mem
      · exact fun old => rest.unseen g mem (List.mem_append_right _ old)

theorem checkGroups_eq_ok {name constraint : Text} {groups new : List Text} :
    checkGroups name groups constraint = .ok new ↔ Constraint.firstCapturing? constraint = none ∧
      checkGroupNames groups (Constraint.groupNames constraint) = .ok new := by
  unfold checkGroups
  split
  next captures =>
    have some := Option.isSome_iff_ne_none.mp captures
    simp [some]
  next uncaptured =>
    have none : Constraint.firstCapturing? constraint = none := by simpa using uncaptured
    cases checkGroupNames groups (Constraint.groupNames constraint) <;> simp [none]

theorem checkPlaceholders_eq_ok {names groups : List Text} {ps : List Placeholder} {u : Unit} :
    checkPlaceholders names groups ps = .ok u ↔ Checked names groups ps := by
  induction ps generalizing names groups with
  | nil => exact ⟨fun _ => ⟨.nil, nofun, nofun, nofun, .nil, nofun⟩, fun _ => rfl⟩
  | cons p ps ih =>
    rw [checkPlaceholders, checked_cons]
    split
    next repeated => simp [repeated]
    next fresh =>
      split
      next none =>
        rw [ih]
        simp [fresh, none, Placeholder.groupNames]
      next constraint some =>
        rw [bind_eq_ok]
        simp only [checkGroups_eq_ok, checkGroupNames_eq_ok, ih, some, Placeholder.groupNames,
          fresh, not_false_eq_true, true_and, Option.mem_some_iff, forall_eq', Option.elim_some]
        constructor
        · rintro ⟨new, ⟨h₁, h₂, h₃, h₄, rfl⟩, h₅⟩
          exact ⟨h₁, h₂, h₃, h₄, h₅⟩
        · rintro ⟨h₁, h₂, h₃, h₄, h₅⟩
          exact ⟨_, ⟨h₁, h₂, h₃, h₄, rfl⟩, h₅⟩

end Pattern

theorem Matcher.checkConstraint_of_mem {index : Nat} {ps : List Placeholder} {u : Unit}
    (h : checkConstraints index ps = .ok u) {p : Placeholder} (mem : p ∈ ps) :
    ∃ i, checkConstraint i p = .ok () := by
  induction ps generalizing index with
  | nil => cases mem
  | cons q ps ih =>
    obtain ⟨v, first, rest⟩ := bind_eq_ok.mp h
    rcases List.mem_cons.mp mem with rfl | mem
    · exact ⟨index, first⟩
    · exact ih rest mem

namespace Pattern

theorem parse_eq_ok {placement : OptionalPlacement} {t : Text} {p : Pattern} :
    parse placement t = .ok p ↔ scan placement t = .ok p ∧ Checked [] [] p.placeholders ∧
      ∃ m, Matcher.ofPattern p = .ok m := by
  constructor
  · intro h
    obtain ⟨⟨q, m⟩, compiled, h⟩ := bind_eq_ok.mp h
    cases h
    obtain ⟨q', scanned, compiled⟩ := bind_eq_ok.mp compiled
    obtain ⟨m', checked, compiled⟩ := bind_eq_ok.mp compiled
    cases compiled
    obtain ⟨u, placeholders, matcher⟩ := bind_eq_ok.mp checked
    exact ⟨scanned, checkPlaceholders_eq_ok.mp placeholders, m, matcher⟩
  · rintro ⟨scanned, checked, m, matcher⟩
    have passed : checkPlaceholders [] [] p.placeholders = .ok () :=
      checkPlaceholders_eq_ok.mpr checked
    rw [parse, compile, scanned, ok_bind, check, passed, ok_bind, matcher]
    rfl

/-- A pattern that has been read is well-formed, and written by the text. -/
theorem wellFormed_of_parse {placement : OptionalPlacement} {t : Text} {p : Pattern}
    (h : parse placement t = .ok p) : p.WellFormed ∧ Node.Written p.nodes t := by
  obtain ⟨scanned, checked, m, matcher⟩ := parse_eq_ok.mp h
  obtain ⟨written, -, shaped, placeholders⟩ := scan_written scanned
  obtain ⟨u, constraints, -⟩ := bind_eq_ok.mp matcher
  refine ⟨⟨shaped, fun q mem => (placeholders q mem).named, checked.distinct, ?_, ?_, ?_, m,
      matcher⟩,
    written⟩
  · intro q mem c some
    obtain ⟨nonempty, trimmed, balanced⟩ := (placeholders q mem).constrained c some
    obtain ⟨i, passed⟩ := Matcher.checkConstraint_of_mem constraints mem
    have whole := Matcher.not_dangles_of_checkConstraint some passed
    exact ⟨nonempty, trimmed, balanced whole, whole, checked.uncaptured q mem c some⟩
  · exact checked.unreserved
  · exact checked.unrepeated

/-- The scanner reads what a well-formed tree is written as, if optional parts stand where they
may. -/
theorem WellFormed.scan {placement : OptionalPlacement} {t : Text} {p : Pattern}
    (wellFormed : p.WellFormed) (written : Node.Written p.nodes t)
    (placed : placement = .trailingOnly → Node.TrailingList p.nodes) :
    Pattern.scan placement t = .ok p :=
  scan_of_written written wellFormed.shaped
    (fun q mem => ⟨wellFormed.named q mem, wellFormed.constrained q mem⟩) placed

/-- What a well-formed tree is written as is read as that tree. -/
theorem WellFormed.parse {t : Text} {p : Pattern} (wellFormed : p.WellFormed)
    (written : Node.Written p.nodes t) : Pattern.parse .anywhere t = .ok p := by
  refine parse_eq_ok.mpr ⟨wellFormed.scan written nofun, ?_, wellFormed.compiles⟩
  refine ⟨wellFormed.distinct, nofun, fun q mem c some => ?_, wellFormed.unreserved,
    wellFormed.unrepeated, nofun⟩
  exact (wellFormed.constrained q mem c some).uncaptured

/-- A text is read as a tree if and only if the tree is well-formed and the text writes it. In
particular the written form of a tree is read as the tree if and only if that is well-formed. -/
theorem parse_iff_written (t : Text) (p : Pattern) :
    (parse .anywhere t = .ok p ↔ p.WellFormed ∧ Node.Written p.nodes t) ∧
      (parse .anywhere p.render = .ok p ↔ p.WellFormed) := by
  constructor
  · exact ⟨wellFormed_of_parse, fun h => h.1.parse h.2⟩
  · refine ⟨fun h => (wellFormed_of_parse h).1, fun wellFormed => ?_⟩
    exact wellFormed.parse (Node.written_renderList p.nodes)

end Pattern

end UrlRouting
