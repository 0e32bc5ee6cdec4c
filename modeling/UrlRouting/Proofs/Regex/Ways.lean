import UrlRouting.Regex.Reach

/-!
# Ways through an expression

`Way input r p c q d` says that a match of `r` can lead from the position `p`, with captures `c`, to
the position `q` with captures `d`. It prefers nothing: it is what a matcher may find. Expressions
that are not regular have no ways.
-/

namespace UrlRouting.Regex

/-- How a match leads from a position and captures to others. -/
abbrev Leads := Nat → Captures → Nat → Captures → Prop

/-- One step after the other. -/
def Leads.andThen (first second : Leads) : Leads := fun p c q d =>
  ∃ k e, first p c k e ∧ second k e q d

/-- So many steps of one kind. -/
def Leads.times (step : Leads) : Nat → Leads
  | 0 => fun p c q d => q = p ∧ d = c
  | n + 1 => step.andThen (step.times n)

/-- The ways through a regular expression. -/
def Way (input : Array Char) : Regex → Leads
  | empty => fun p c q d => q = p ∧ d = c
  | set cs => fun p c q d => (∃ x, input[p]? = some x ∧ cs.contains x) ∧ q = p + 1 ∧ d = c
  | assert a => fun p c q d => a.holds input p ∧ q = p ∧ d = c
  | seq r s => (Way input r).andThen (Way input s)
  | alt r s => fun p c q d => Way input r p c q d ∨ Way input s p c q d
  | group number r => fun p c q d => ∃ e, Way input r p c q e ∧ d = (number, p, q) :: e
  | loop least most _ r => fun p c q d =>
    ∃ n, least ≤ n ∧ (∀ m ∈ most, n ≤ max least m) ∧ (Way input r).times n p c q d
  | look .. => fun _ _ _ _ => False
  | atomic _ => fun _ _ _ _ => False
  | backref .. => fun _ _ _ _ => False

namespace Leads

/-- No step at all. -/
def stay : Leads := fun p c q d => q = p ∧ d = c

variable {step first second third : Leads} {p q : Nat} {c d : Captures}

theorem stay_andThen : stay.andThen second p c q d ↔ second p c q d := by
  constructor
  · rintro ⟨k, e, ⟨rfl, rfl⟩, way⟩
    exact way
  · intro way
    exact ⟨p, c, ⟨rfl, rfl⟩, way⟩

theorem andThen_stay : first.andThen stay p c q d ↔ first p c q d := by
  constructor
  · rintro ⟨k, e, way, rfl, rfl⟩
    exact way
  · intro way
    exact ⟨q, d, way, rfl, rfl⟩

theorem andThen_assoc :
    (first.andThen second).andThen third p c q d ↔
      first.andThen (second.andThen third) p c q d := by
  constructor
  · rintro ⟨l, f, ⟨k, e, here, before⟩, after⟩
    exact ⟨k, e, here, l, f, before, after⟩
  · rintro ⟨k, e, here, l, f, before, after⟩
    exact ⟨l, f, ⟨k, e, here, before⟩, after⟩

theorem andThen_congr (h : ∀ k e, second k e q d ↔ third k e q d) :
    first.andThen second p c q d ↔ first.andThen third p c q d := by
  constructor
  · rintro ⟨k, e, here, more⟩
    exact ⟨k, e, here, (h k e).mp more⟩
  · rintro ⟨k, e, here, more⟩
    exact ⟨k, e, here, (h k e).mpr more⟩

theorem times_add (m n : Nat) :
    step.times (m + n) p c q d ↔ (step.times m).andThen (step.times n) p c q d := by
  induction m generalizing p c with
  | zero =>
    rw [Nat.zero_add]
    exact stay_andThen.symm
  | succ m ih =>
    rw [Nat.succ_add]
    exact (andThen_congr fun _ _ => ih).trans andThen_assoc.symm

/-- Steps that never lead back. -/
def Forward (leads : Leads) : Prop := ∀ p c q d, leads p c q d → p ≤ q

theorem Forward.andThen (h₁ : first.Forward) (h₂ : second.Forward) :
    (first.andThen second).Forward := by
  rintro p c q d ⟨k, e, before, after⟩
  have := h₁ p c k e before
  have := h₂ k e q d after
  omega

theorem Forward.times (h : step.Forward) (n : Nat) : (step.times n).Forward := by
  induction n with
  | zero =>
    rintro p c q d ⟨rfl, rfl⟩
    exact Nat.le_refl _
  | succ n ih => exact h.andThen ih

end Leads

theorem Way.forward (input : Array Char) (r : Regex) : (Way input r).Forward := by
  induction r with
  | empty =>
    rintro p c q d ⟨rfl, rfl⟩
    exact Nat.le_refl _
  | set cs =>
    rintro p c q d ⟨-, rfl, -⟩
    omega
  | assert a =>
    rintro p c q d ⟨-, rfl, -⟩
    exact Nat.le_refl _
  | seq r s ihr ihs => exact ihr.andThen ihs
  | alt r s ihr ihs =>
    rintro p c q d (way | way)
    · exact ihr p c q d way
    · exact ihs p c q d way
  | group number r ih =>
    rintro p c q d ⟨e, way, -⟩
    exact ih p c q e way
  | loop least most greedy r ih =>
    rintro p c q d ⟨n, -, -, way⟩
    exact ih.times n p c q d way
  | look direction negated r => nofun
  | atomic r => nofun
  | backref number caseless => nofun

/-! ## One expression after the other -/

/-- The ways through several expressions, one after the other. -/
def Ways (input : Array Char) : List Regex → Leads
  | [] => fun p c q d => q = p ∧ d = c
  | r :: rs => (Way input r).andThen (Ways input rs)

variable {input : Array Char} {p q : Nat} {c d : Captures}

theorem Ways.forward (input : Array Char) (rs : List Regex) : (Ways input rs).Forward := by
  induction rs with
  | nil =>
    rintro p c q d ⟨rfl, -⟩
    exact Nat.le_refl _
  | cons r rs ih => exact (Way.forward input r).andThen ih

theorem ways_append (rs rs' : List Regex) :
    Ways input (rs ++ rs') p c q d ↔ (Ways input rs).andThen (Ways input rs') p c q d := by
  induction rs generalizing p c with
  | nil => exact Leads.stay_andThen.symm
  | cons r rs ih => exact (Leads.andThen_congr fun _ _ => ih).trans Leads.andThen_assoc.symm

theorem way_join (r : Regex) (rs : List Regex) :
    Way input (sequence.join r rs) p c q d ↔ Ways input (r :: rs) p c q d := by
  induction rs generalizing r p c with
  | nil => exact Leads.andThen_stay.symm
  | cons s rs ih => exact Leads.andThen_congr fun _ _ => ih s

/-- Empty expressions can be left out. -/
theorem ways_filter (rs : List Regex) :
    Ways input (rs.filter (· ≠ empty)) p c q d ↔ Ways input rs p c q d := by
  induction rs generalizing p c with
  | nil => exact Iff.rfl
  | cons r rs ih =>
    by_cases none : r = empty
    · subst none
      rw [List.filter_cons_of_neg (by simp), ih]
      exact Leads.stay_andThen.symm
    · rw [List.filter_cons_of_pos (by simpa using none)]
      exact Leads.andThen_congr fun _ _ => ih

/-- A sequence is what its expressions are, one after the other. -/
theorem way_sequence (rs : List Regex) :
    Way input (sequence rs) p c q d ↔ Ways input rs p c q d := by
  rw [← ways_filter rs, sequence]
  split
  next none => rw [none]; rfl
  next r rest eq => rw [eq, way_join]

theorem isRegular_sequence {rs : List Regex} (regular : ∀ r ∈ rs, r.isRegular = true) :
    (sequence rs).isRegular = true := by
  have kept : ∀ r ∈ rs.filter (· ≠ empty), r.isRegular = true := fun r mem =>
    regular r (List.mem_filter.mp mem).1
  rw [sequence]
  generalize rs.filter (· ≠ empty) = rs at kept
  cases rs with
  | nil => rfl
  | cons r rs =>
    induction rs generalizing r with
    | nil => exact kept r List.mem_cons_self
    | cons s rs ih =>
      obtain ⟨first, rest⟩ := List.forall_mem_cons.mp kept
      exact Bool.and_eq_true_iff.mpr ⟨first, ih s rest⟩

end UrlRouting.Regex
