import UrlRouting.Proofs.Pattern.Parsing
import UrlRouting.Proofs.Pattern.Trailing

/-!
# Optional parts for the end only

Where optional parts may stand only at the end of their list, a text is read as a tree if it is read
as this tree without that rule and the tree keeps it (`Pattern.parse_trailingOnly`). A text that
breaks the rule is refused right behind the first bracket that closes an optional part with
something behind it in its list.

The scanner does not look at the tree. It refuses what follows a bracket that has just closed an
optional part, unless it is another closing bracket (`Scan.StopsAt`). The tree says where these
places are by `Node.Misplaced`.

* At one of them the scanner stops (`Scan.exists_stopsAt`).
* Without the rule it has just closed an optional part at each of them
  (`Scan.stopsAt_of_misplaced`).
-/

namespace UrlRouting

/-- In a text that writes a list of parts, a beginning of the text ends with the bracket that closes
an optional part which is not the last part of its list. -/
inductive Node.Misplaced : List Node → Text → Text → Prop
  | here {children ns : List Node} {n : Node} {t u : Text} :
    Written children t → Written (n :: ns) u →
    Misplaced (.optional children :: n :: ns) ('[' :: (t ++ ']' :: u)) ('[' :: (t ++ [']']))
  | inside {children ns : List Node} {t u v : Text} :
    Misplaced children t v → Written ns u →
    Misplaced (.optional children :: ns) ('[' :: (t ++ ']' :: u)) ('[' :: v)
  | literal {ns : List Node} {t u v : Text} :
    Misplaced ns u v → Misplaced (.literal t :: ns) (t ++ u) (t ++ v)
  | placeholder {p : Placeholder} {ns : List Node} {t u v : Text} :
    p.Written t → Misplaced ns u v →
    Misplaced (.placeholder p :: ns) ('\x7b' :: (t ++ '\x7d' :: u)) ('\x7b' :: (t ++ '\x7d' :: v))
  | optional {children ns : List Node} {t u v : Text} :
    Written children t → Misplaced ns u v →
    Misplaced (.optional children :: ns) ('[' :: (t ++ ']' :: u)) ('[' :: (t ++ ']' :: v))

/-- What a part is written as does not begin with a closing bracket. -/
theorem Node.Written.exists_first {n : Node} {ns : List Node} {t : Text}
    (written : Written (n :: ns) t) (shaped : n.Shaped) : ∃ c u, t = c :: u ∧ c ≠ ']' := by
  cases written with
  | literal =>
    obtain ⟨c, s, rfl⟩ := List.exists_cons_of_ne_nil shaped.1
    refine ⟨c, _, rfl, fun close => shaped.2 c List.mem_cons_self ?_⟩
    rw [close]
    decide
  | placeholder => exact ⟨_, _, rfl, by decide⟩
  | optional => exact ⟨_, _, rfl, by decide⟩

namespace Scan

variable {placement : OptionalPlacement} {s s' : Scan} {c : Char} {t u v : Text}
  {ns : List Node}

/-! ## Positions -/

theorem position_stepBody {b : Body} (h : s.stepBody b c = .ok s') :
    s'.position = s.position + c.utf8Size := by
  unfold stepBody at h
  dsimp only at h
  split at h
  next => cases h; rfl
  next =>
  split at h
  next => cases h; rfl
  next =>
  split at h
  next => cases h; rfl
  next =>
  split at h
  next =>
    split at h
    next => cases h; rfl
    next =>
      obtain ⟨p, -, h⟩ := bind_eq_ok.mp h
      cases h
      rfl
  next => cases h; rfl

theorem position_stepPlain (h : s.stepPlain c = .ok s') :
    s'.position = s.position + c.utf8Size := by
  unfold stepPlain at h
  split at h
  next brace =>
    cases h
    rw [brace]
    rfl
  next =>
  split at h
  next bracket =>
    cases h
    rw [bracket]
    rfl
  next =>
  split at h
  next bracket =>
    unfold close at h
    split at h
    next => cases h
    next =>
      split at h
      next => cases h
      next =>
        cases h
        rw [bracket]
        rfl
  next => cases h; rfl

theorem position_step (h : s.step placement c = .ok s') :
    s'.position = s.position + c.utf8Size := by
  unfold step at h
  split at h
  next => exact position_stepBody h
  next =>
    split at h
    next => cases h
    next => exact position_stepPlain h

/-- The scanner counts the bytes that it has read. -/
theorem position_run (h : t.foldlM (step placement) s = .ok s') :
    s'.position = s.position + Text.byteLength t := by
  induction t generalizing s with
  | nil =>
    cases h
    rfl
  | cons c t ih =>
    obtain ⟨s₁, first, rest⟩ := bind_eq_ok.mp h
    rw [ih rest, position_step first, Text.byteLength_cons, Nat.add_assoc]

/-! ## The two rules -/

/-- A character that is read where optional parts are for the end only is read the same way where
they may stand anywhere. -/
theorem step_anywhere (h : s.step placement c = .ok s') : s.step .anywhere c = .ok s' := by
  unfold step at h ⊢
  split at h
  next => exact h
  next =>
    split at h
    next => cases h
    next => exact (if_neg fun blocked => nomatch blocked.1).trans h

theorem run_anywhere (h : t.foldlM (step placement) s = .ok s') :
    t.foldlM (step .anywhere) s = .ok s' := by
  induction t generalizing s with
  | nil => exact h
  | cons c t ih =>
    obtain ⟨s₁, first, rest⟩ := bind_eq_ok.mp h
    rw [List.foldlM_cons, step_anywhere first]
    exact ih rest

theorem step_misplaced (outside : s.body = none) (closed : s.closed = true) (ne : c ≠ ']') :
    s.step .trailingOnly c = .error (.optionalMisplaced s.position) := by
  rw [step, outside]
  exact if_pos ⟨rfl, closed, ne⟩

/-- At a cut of a text the scanner has just closed an optional part, and the text does not go on
with a closing bracket. -/
def StopsAt (placement : OptionalPlacement) (s : Scan) (t u : Text) : Prop :=
  ∃ s' c w, t = u ++ c :: w ∧ c ≠ ']' ∧ u.foldlM (step placement) s = .ok s' ∧ s'.body = none ∧
    s'.closed = true

theorem StopsAt.behind {w : Text} (run : w.foldlM (step placement) s = .ok s')
    (stops : StopsAt placement s' t u) : StopsAt placement s (w ++ t) (w ++ u) := by
  obtain ⟨s₁, c, x, rfl, ne, rest, outside, closed⟩ := stops
  refine ⟨s₁, c, x, (List.append_assoc _ _ _).symm, ne, ?_, outside, closed⟩
  rw [List.foldlM_append, run]
  exact rest

theorem StopsAt.within (ready : s.Ready placement) (w : Text)
    (stops : StopsAt placement s.entered t u) :
    StopsAt placement s ('[' :: (t ++ w)) ('[' :: u) := by
  obtain ⟨s₁, c, x, rfl, ne, rest, outside, closed⟩ := stops
  refine ⟨s₁, c, x ++ w, by simp, ne, ?_, outside, closed⟩
  rw [List.foldlM_cons, step_bracket ready]
  exact rest

/-- The scanner stops behind an optional part that is not the last part of its list. -/
theorem StopsAt.here {children : List Node} {n : Node} (written : Node.Written (n :: ns) u)
    (shaped : n.Shaped) (nonempty : children ≠ []) (ready : s.Ready placement)
    (inner : ∃ s₁, t.foldlM (step placement) s.entered = .ok s₁ ∧ s₁.outer = s.entered.outer ∧
      s₁.body = none ∧ s₁.flushed = children.reverse ++ s.entered.flushed) :
    StopsAt placement s ('[' :: (t ++ ']' :: u)) ('[' :: (t ++ [']'])) := by
  obtain ⟨c, w, rfl, ne⟩ := written.exists_first shaped
  obtain ⟨s₁, run, -, -, -, outside, closed⟩ := run_optional nonempty ready inner
  exact ⟨s₁, c, w, by simp, ne, run, outside, closed⟩

/-- Where optional parts are for the end only, the scanner stops in a text that writes them
elsewhere. It stops behind one of these. -/
theorem exists_stopsAt (written : Node.Written ns t) (shaped : Node.ShapedList ns)
    (proper : ∀ p ∈ Node.placeholders.ofNodes ns, isName p.name ∧
      ∀ c ∈ p.constraint, Constraint.Proper c)
    (misplaced : ¬ Node.TrailingList ns) (ready : s.Ready .trailingOnly) :
    ∃ u, Node.Misplaced ns t u ∧ StopsAt .trailingOnly s t u := by
  induction written generalizing s with
  | nil => exact absurd trivial misplaced
  | @literal l u ns _ ih =>
    obtain ⟨⟨-, plain⟩, -, shaped⟩ := shaped
    obtain ⟨s₁, run, -, -, -, ready₁⟩ := run_literal plain ready
    obtain ⟨v, found, stops⟩ :=
      ih shaped proper (fun trailing => misplaced ⟨trivial, nofun, trailing⟩) ready₁
    exact ⟨l ++ v, .literal found, stops.behind run⟩
  | @placeholder p w u ns body _ ih =>
    obtain ⟨-, -, shaped⟩ := shaped
    obtain ⟨named, constrained⟩ := proper p List.mem_cons_self
    obtain ⟨s₁, run, -, -, -, ready₁⟩ := run_placeholder body named constrained ready
    obtain ⟨v, found, stops⟩ := ih shaped (fun q mem => proper q (List.mem_cons_of_mem p mem))
      (fun trailing => misplaced ⟨trivial, nofun, trailing⟩) ready₁
    refine ⟨_, .placeholder body found, ?_⟩
    simpa using stops.behind run
  | @optional children ns w u inner behind ihc ih =>
    obtain ⟨⟨nonempty, shapedChildren⟩, -, shaped⟩ := shaped
    have proper₁ := fun q mem => proper q (List.mem_append_left _ mem)
    by_cases trailing : Node.TrailingList children
    · cases ns with
      | nil => exact absurd ⟨trailing, fun _ => rfl, trivial⟩ misplaced
      | cons n ns =>
        refine ⟨_, .here inner behind, .here behind shaped.1 nonempty ready ?_⟩
        exact run_written inner shapedChildren proper₁ (fun _ => trailing) ready.outside
          (fun _ => ready.entered) (.inl rfl)
    · obtain ⟨v, found, stops⟩ := ihc shapedChildren proper₁ trailing ready.entered
      exact ⟨_, .inside found behind, stops.within ready _⟩

/-- Where optional parts may stand anywhere, the scanner has just closed one behind each that is not
the last part of its list. -/
theorem stopsAt_of_misplaced (misplaced : Node.Misplaced ns t u) (shaped : Node.ShapedList ns)
    (proper : ∀ p ∈ Node.placeholders.ofNodes ns, isName p.name ∧
      ∀ c ∈ p.constraint, Constraint.Proper c)
    (ready : s.Ready .anywhere) : StopsAt .anywhere s t u := by
  induction misplaced generalizing s with
  | here inner behind =>
    obtain ⟨⟨nonempty, shapedChildren⟩, -, shaped⟩ := shaped
    refine .here behind shaped.1 nonempty ready ?_
    exact run_written inner shapedChildren (fun q mem => proper q (List.mem_append_left _ mem))
      nofun ready.outside (fun _ => ready.entered) (.inl rfl)
  | inside _ _ ih =>
    obtain ⟨⟨-, shaped⟩, -⟩ := shaped
    exact (ih shaped (fun q mem => proper q (List.mem_append_left _ mem)) ready.entered).within
      ready _
  | literal _ ih =>
    obtain ⟨⟨-, plain⟩, -, shaped⟩ := shaped
    obtain ⟨s₁, run, -, -, -, ready₁⟩ := run_literal plain ready
    exact (ih shaped proper ready₁).behind run
  | @placeholder p _ _ _ _ body _ ih =>
    obtain ⟨-, -, shaped⟩ := shaped
    obtain ⟨named, constrained⟩ := proper p List.mem_cons_self
    obtain ⟨s₁, run, -, -, -, ready₁⟩ := run_placeholder body named constrained ready
    have stops := ih shaped (fun q mem => proper q (List.mem_cons_of_mem p mem)) ready₁
    simpa using stops.behind run
  | optional inner _ ih =>
    obtain ⟨⟨nonempty, shapedChildren⟩, -, shaped⟩ := shaped
    obtain ⟨s₁, run, -, -, -, outside, -⟩ := run_optional nonempty ready
      (run_written inner shapedChildren (fun q mem => proper q (List.mem_append_left _ mem))
        nofun ready.outside (fun _ => ready.entered) (.inl rfl))
    have stops := ih shaped (fun q mem => proper q (List.mem_append_right _ mem)) ⟨outside, nofun⟩
    simpa using stops.behind run

/-- Where the scanner stops under one rule it has not stopped before under the other. -/
theorem StopsAt.isPrefix (here : StopsAt .trailingOnly s t u) (there : StopsAt .anywhere s t v) :
    u <+: v := by
  obtain ⟨s₁, c, w, rfl, -, run, -⟩ := here
  obtain ⟨s₂, d, x, same, ne, run₂, outside, closed⟩ := there
  have left : u <+: u ++ c :: w := List.prefix_append _ _
  have right : v <+: u ++ c :: w := same ▸ List.prefix_append _ _
  rcases List.prefix_or_prefix_of_prefix left right with before | ⟨y, rfl⟩
  · exact before
  cases y with
  | nil => simp
  | cons e y =>
    obtain ⟨rfl, -⟩ : e = d ∧ _ := by simpa using same
    rw [List.foldlM_append] at run
    obtain ⟨s₃, first, rest⟩ := bind_eq_ok.mp run
    obtain rfl : s₃ = s₂ := Except.ok.inj ((run_anywhere first).symm.trans run₂)
    rw [List.foldlM_cons, step_misplaced outside closed ne] at rest
    cases rest

end Scan

namespace Pattern

theorem scan_anywhere {placement : OptionalPlacement} {t : Text} {p : Pattern}
    (h : scan placement t = .ok p) : scan .anywhere t = .ok p := by
  obtain ⟨s, run, h⟩ := bind_eq_ok.mp h
  rw [scan, Scan.run_anywhere run]
  exact h

/-- A text is read as a tree where optional parts are for the end only if and only if it is read as
this tree where they may stand anywhere, and they stand at the end of their lists in it. If it is
read as a tree in which they do not, then it is refused at the byte behind the first bracket that
closes an optional part with something behind it in its list. -/
theorem parse_trailingOnly (t : Text) (p : Pattern) :
    (parse .trailingOnly t = .ok p ↔ parse .anywhere t = .ok p ∧ Node.TrailingList p.nodes) ∧
      (parse .anywhere t = .ok p → ¬ Node.TrailingList p.nodes →
        ∃ u, Node.Misplaced p.nodes t u ∧ (∀ v, Node.Misplaced p.nodes t v → u <+: v) ∧
          parse .trailingOnly t = .error (.optionalMisplaced (Text.byteLength u))) := by
  refine ⟨⟨fun h => ?_, fun ⟨h, trailing⟩ => ?_⟩, fun h misplaced => ?_⟩
  · obtain ⟨scanned, checked, compiled⟩ := parse_eq_ok.mp h
    exact ⟨parse_eq_ok.mpr ⟨scan_anywhere scanned, checked, compiled⟩, trailing_of_scan scanned⟩
  · obtain ⟨-, checked, compiled⟩ := parse_eq_ok.mp h
    obtain ⟨wellFormed, written⟩ := wellFormed_of_parse h
    exact parse_eq_ok.mpr ⟨wellFormed.scan written fun _ => trailing, checked, compiled⟩
  · obtain ⟨wellFormed, written⟩ := wellFormed_of_parse h
    have proper := fun q mem => And.intro (wellFormed.named q mem) (wellFormed.constrained q mem)
    obtain ⟨u, found, stops⟩ :=
      Scan.exists_stopsAt written wellFormed.shaped proper misplaced .start
    refine ⟨u, found, fun v other => ?_, ?_⟩
    · exact stops.isPrefix (Scan.stopsAt_of_misplaced other wellFormed.shaped proper .start)
    · obtain ⟨s, c, w, rfl, ne, run, outside, closed⟩ := stops
      have position : s.position = Text.byteLength u := by
        rw [Scan.position_run run]
        exact Nat.zero_add _
      have refused : scan .trailingOnly (u ++ c :: w) =
          .error (.optionalMisplaced (Text.byteLength u)) := by
        rw [scan, List.foldlM_append, run, ok_bind, List.foldlM_cons,
          Scan.step_misplaced outside closed ne, position]
        rfl
      rw [parse, compile, refused]
      rfl

/-- An optional part with something behind it holds another one, which stands behind a constraint
with brackets and is closed first. -/
theorem parse_trailingOnly_nested : ∃ p u,
    parse .anywhere "/é[/\x7bb:[a-z]+\x7d[/c]/d]/e".toList = .ok p ∧ ¬ Node.TrailingList p.nodes ∧
      Node.Misplaced p.nodes "/é[/\x7bb:[a-z]+\x7d[/c]/d]/e".toList u ∧ Text.byteLength u = 19 ∧
      parse .trailingOnly "/é[/\x7bb:[a-z]+\x7d[/c]/d]/e".toList =
        .error (.optionalMisplaced 19) := by
  let t := "/é[/\x7bb:[a-z]+\x7d[/c]/d]/e".toList
  obtain ⟨p, parsed, -⟩ := exists_ok_of_any (parse .anywhere t) (fun _ => true) (by decide +kernel)
  have evaluated : (match parse .trailingOnly t with
      | .error (.optionalMisplaced position) => some position
      | _ => none) = some 19 := by decide +kernel
  have misplaced : ¬ Node.TrailingList p.nodes := by
    intro trailing
    rw [(parse_trailingOnly t p).1.mpr ⟨parsed, trailing⟩] at evaluated
    cases evaluated
  obtain ⟨u, found, -, refused⟩ := (parse_trailingOnly t p).2 parsed misplaced
  rw [refused] at evaluated
  have length : Text.byteLength u = 19 := Option.some.inj evaluated
  rw [length] at refused
  exact ⟨p, u, parsed, misplaced, found, length, refused⟩

end Pattern

end UrlRouting
