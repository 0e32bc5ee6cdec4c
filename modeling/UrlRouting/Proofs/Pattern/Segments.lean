import UrlRouting.Proofs.Pattern.Trailing

/-!
# Patterns made of segments

In a segment-shaped pattern every placeholder fills one segment of the path: it stands between
slashes, and an optional part begins with one. `Pattern.SegmentShaped` says this of each part and
its neighbours. With optional parts only at the end, lists of parts then have the five forms of
`Node.Segments`, by which paths are followed (`Pattern.SegmentShaped.segments`).
-/

namespace UrlRouting

/-! ## The shape -/

namespace Node

/-- Whether a part is literal text with a slash at its beginning. -/
def beginsWithSlash : Node → Bool
  | literal t => t.head? = some '/'
  | _ => false

/-- Whether a part is literal text with a slash at its end. -/
def endsWithSlash : Node → Bool
  | literal t => t.getLast? = some '/'
  | _ => false

mutual

/-- Whether a part fits between its neighbours in a list; `inside` says that the list belongs to an
optional part.

* Literal text has no question mark and no two slashes in a row. It does not end in a slash in front
  of an optional part or at the end of one.
* A placeholder has no constraint. It stands behind a slash, and in front of one, of an optional
  part or of the end of the list.
* An optional part begins with a slash. -/
def Segmented (inside : Bool) (before after : Option Node) : Node → Prop
  | literal t => '?' ∉ t ∧ ¬ ['/', '/'] <:+: t ∧
    ((∃ n ∈ after, n.isOptional = true) ∨ inside = true ∧ after = none → t.getLast? ≠ some '/')
  | placeholder q => q.constraint = none ∧ (∃ n ∈ before, n.endsWithSlash = true) ∧
    ∀ n ∈ after, n.beginsWithSlash = true ∨ n.isOptional = true
  | optional children =>
    (∃ n ∈ children.head?, n.beginsWithSlash = true) ∧ SegmentedList true none children

/-- Whether the parts of a list fit together, behind a part that stands before them. -/
def SegmentedList (inside : Bool) (before : Option Node) : List Node → Prop
  | [] => True
  | n :: ns => n.Segmented inside before ns.head? ∧ SegmentedList inside (some n) ns

end

mutual

/-- Whether a part fits can be decided. -/
def decSegmented (inside : Bool) (before after : Option Node) :
    (n : Node) → Decidable (n.Segmented inside before after)
  | literal t => inferInstanceAs (Decidable ('?' ∉ t ∧ ¬ ['/', '/'] <:+: t ∧
      ((∃ n ∈ after, n.isOptional = true) ∨ inside = true ∧ after = none → t.getLast? ≠ some '/')))
  | placeholder q => inferInstanceAs (Decidable (q.constraint = none ∧
      (∃ n ∈ before, n.endsWithSlash = true) ∧
      ∀ n ∈ after, n.beginsWithSlash = true ∨ n.isOptional = true))
  | optional children =>
    have := decSegmentedList true none children
    inferInstanceAs (Decidable ((∃ n ∈ children.head?, n.beginsWithSlash = true) ∧
      SegmentedList true none children))

/-- Whether the parts of a list fit together can be decided. -/
def decSegmentedList (inside : Bool) (before : Option Node) :
    (ns : List Node) → Decidable (SegmentedList inside before ns)
  | [] => .isTrue trivial
  | n :: ns =>
    have := decSegmented inside before ns.head? n
    have := decSegmentedList inside (some n) ns
    inferInstanceAs (Decidable (n.Segmented inside before ns.head? ∧
      SegmentedList inside (some n) ns))

end

instance (inside : Bool) (before : Option Node) (ns : List Node) :
    Decidable (SegmentedList inside before ns) :=
  decSegmentedList inside before ns

end Node

/-- A pattern of segments begins with a slash, if it is not empty, and its parts fit together. -/
structure Pattern.SegmentShaped (p : Pattern) : Prop where
  first : ∀ n ∈ p.nodes.head?, n.beginsWithSlash = true
  segmented : Node.SegmentedList false none p.nodes

instance (p : Pattern) : Decidable p.SegmentShaped :=
  decidable_of_iff ((∀ n ∈ p.nodes.head?, n.beginsWithSlash = true) ∧
    Node.SegmentedList false none p.nodes) ⟨fun ⟨h₁, h₂⟩ => ⟨h₁, h₂⟩, fun ⟨h₁, h₂⟩ => ⟨h₁, h₂⟩⟩

/-! ## Forms of lists -/

/-- Literal text of a path: it begins with a slash, has no two of them in a row and no question
mark. -/
structure Text.Slashed (t : Text) : Prop where
  first : t.head? = some '/'
  unmarked : '?' ∉ t
  single : ¬ ['/', '/'] <:+: t

/-- The forms that a list of parts may have. A slash at the end of the list may be allowed. -/
inductive Node.Segments : Bool → List Node → Prop
  | nil {slash : Bool} : Segments slash []
  | optional {slash : Bool} {t : Text} {ns : List Node} :
    Segments false (.literal t :: ns) → Segments slash [.optional (.literal t :: ns)]
  | last {slash : Bool} {t : Text} :
    t.Slashed → (slash = false → t.getLast? ≠ some '/') → Segments slash [.literal t]
  | front {slash : Bool} {t : Text} {children : List Node} :
    t.Slashed → t.getLast? ≠ some '/' → Segments slash [.optional children] →
    Segments slash [.literal t, .optional children]
  | value {slash : Bool} {t : Text} {q : Placeholder} {ns : List Node} :
    t.Slashed → t.getLast? = some '/' → q.constraint = none → Segments slash ns →
    Segments slash (.literal t :: .placeholder q :: ns)

namespace Node

theorem exists_literal_of_beginsWithSlash {n : Node} (h : n.beginsWithSlash = true) :
    ∃ t, n = .literal t ∧ t.head? = some '/' := by
  cases n with
  | literal t => exact ⟨t, rfl, of_decide_eq_true h⟩
  | placeholder q => cases h
  | optional children => cases h

/-- Lists of parts that fit together have the forms of segments. -/
theorem segments_of_segmentedList {inside slash : Bool} {before : Option Node} (ns : List Node)
    (shaped : ShapedList ns) (trailing : TrailingList ns)
    (segmented : SegmentedList inside before ns)
    (start : ∀ n ∈ ns.head?, n.beginsWithSlash = true ∨ n.isOptional = true)
    (ends : slash = false → inside = true ∨ ∀ n ∈ ns.getLast?, n.endsWithSlash = false) :
    Segments slash ns := by
  match ns with
  | [] => exact .nil
  | .placeholder q :: ns =>
    rcases start _ rfl with first | first <;> cases first
  | .optional children :: ns =>
    obtain rfl : ns = [] := trailing.2.1 rfl
    obtain ⟨⟨n, head, first⟩, inner⟩ := segmented.1
    obtain ⟨t, rfl, -⟩ := exists_literal_of_beginsWithSlash first
    obtain ⟨ns, rfl⟩ := List.head?_eq_some_iff.mp head
    refine .optional (segments_of_segmentedList (.literal t :: ns) shaped.1.2 trailing.1 inner ?_
      fun _ => .inl rfl)
    intro n mem
    cases mem
    exact .inl first
  | .literal t :: ns =>
    obtain ⟨unmarked, single, ending⟩ := segmented.1
    have slashed : t.Slashed := by
      rcases start _ rfl with first | first
      · exact ⟨of_decide_eq_true first, unmarked, single⟩
      · cases first
    match ns with
    | [] =>
      refine .last slashed fun none => ?_
      rcases ends none with inside | last
      · exact ending (.inr ⟨inside, rfl⟩)
      · exact of_decide_eq_false (last _ rfl)
    | .literal u :: ns => exact absurd ⟨rfl, rfl⟩ shaped.2.1
    | .optional children :: ns =>
      obtain rfl : ns = [] := trailing.2.2.2.1 rfl
      refine .front slashed (ending (.inl ⟨_, rfl, rfl⟩)) ?_
      refine segments_of_segmentedList [.optional children] shaped.2.2 trailing.2.2 segmented.2 ?_
        fun _ => .inr ?_
      · intro n mem
        cases mem
        exact .inr rfl
      · intro n mem
        cases mem
        rfl
    | .placeholder q :: ns =>
      obtain ⟨-, ⟨free, ⟨n, mem, behind⟩, before⟩, rest⟩ := segmented
      cases mem
      refine .value slashed (of_decide_eq_true behind) free ?_
      refine segments_of_segmentedList ns shaped.2.2.2.2 trailing.2.2.2.2 rest before fun none => ?_
      refine (ends none).imp id fun last n mem => ?_
      cases ns with
      | nil => cases mem
      | cons m ns => exact last n (by simpa using mem)
termination_by sizeOf ns

end Node

/-- A segment-shaped pattern with optional parts only at the end has the form of segments. -/
theorem Pattern.SegmentShaped.segments {p : Pattern} (segmentShaped : p.SegmentShaped)
    (shaped : Node.ShapedList p.nodes) (trailing : Node.TrailingList p.nodes) :
    Node.Segments p.endsWithSlash p.nodes := by
  refine Node.segments_of_segmentedList p.nodes shaped trailing segmentShaped.segmented
    (fun n mem => .inl (segmentShaped.first n mem)) fun none => .inr fun n mem => ?_
  have last : p.nodes.getLast? = some n := mem
  rw [Pattern.endsWithSlash, last] at none
  cases n with
  | literal t => exact none
  | placeholder q => rfl
  | optional children => rfl

end UrlRouting
