import UrlRouting.Proofs.Pattern.Matching
import UrlRouting.Proofs.Url.Leaves
import UrlRouting.Proofs.Url.Slashes

/-!
# The two forms of a built path

The location of a URL that is built is its path in normal form, if no literal text has a question
mark (`Url.location_build`). A matcher tests a location in two forms, as it is written and with its
escapes read. If no literal text has a percent sign, the second form of a path that is built is the
path with the values as they have been given (`Url.decode_path`).
-/

namespace UrlRouting

/-! ## Literal text -/

/-- The text of a leaf that is literal text. -/
def Leaf.literal? : Leaf → Option Text
  | literal _ t => some t
  | placeholder .. => none

/-- The literal texts of a pattern, in the order in which they are written. -/
def Pattern.literals (p : Pattern) : List Text := p.leaves.filterMap Leaf.literal?

namespace Url

variable {p : Pattern} {params : Params}

/-- The literal text that is rendered is literal text of the pattern. -/
theorem mem_literals {t : Text} (mem : .literal t ∈ piecesOfNodes params p.nodes) :
    t ∈ p.literals := by
  rw [← piecesOfLeaves_pattern] at mem
  obtain ⟨l, kept, piece⟩ := List.mem_filterMap.mp mem
  refine List.mem_filterMap.mpr ⟨l, List.mem_of_mem_filter kept, ?_⟩
  cases l with
  | literal around u =>
    cases piece
    rfl
  | placeholder around q =>
    obtain ⟨v, -, other⟩ := Option.map_eq_some_iff.mp piece
    cases other

theorem unmarked_path (unmarked : ∀ s ∈ p.literals, '?' ∉ s) (params : Params) :
    '?' ∉ path params p.nodes := by
  intro mem
  obtain ⟨piece, rendered, mem⟩ := List.mem_flatMap.mp mem
  cases piece with
  | literal t => exact unmarked t (mem_literals rendered) mem
  | value name v => exact Percent.notMem_encode (by decide) v mem

/-! ## The location -/

/-- What is matched of a URL that has been built is its path in normal form. -/
theorem location_build (unmarked : '?' ∉ path params p.nodes) :
    location (build p params) = normalPath p.endsWithSlash (path params p.nodes) := by
  have free : '?' ∉ normalPath p.endsWithSlash (path params p.nodes) := fun mem =>
    (mem_normalPath mem).elim unmarked (by decide)
  rw [location, build_eq, splitFirst_withQuery free]
  exact withoutOrigin_of_single (single_normalPath _ _)

/-! ## The form with escapes read -/

/-- The bytes of pieces are those of literal text and of the values. -/
theorem bytes_flatMap_render {pieces : List Piece} (plain : ∀ t, .literal t ∈ pieces → '%' ∉ t) :
    Percent.bytes (pieces.flatMap Piece.render) =
      Utf8.encode (pieces.flatMap (Piece.renderAs id)) := by
  induction pieces with
  | nil => rfl
  | cons piece pieces ih =>
    have rest := ih fun t mem => plain t (List.mem_cons_of_mem _ mem)
    rw [List.flatMap_cons, List.flatMap_cons, Utf8.encode_append, ← rest]
    cases piece with
    | literal t => exact Percent.bytes_append_of_notMem (plain t List.mem_cons_self) _
    | value name v => exact Percent.bytes_encode_append v _

/-- Where its escapes are read, a path that has been built has the values as they were given. -/
theorem decode_path (plain : ∀ s ∈ p.literals, '%' ∉ s) (params : Params) :
    Percent.decode (path params p.nodes) = pathAs id params p.nodes := by
  rw [Percent.decode, path, bytes_flatMap_render fun t mem => plain t (mem_literals mem),
    Utf8.decode_encode]
  rfl

end Url

end UrlRouting
