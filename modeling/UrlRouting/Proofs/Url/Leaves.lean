import Mathlib.Data.List.Basic
import UrlRouting.Proofs.Url.Building

/-!
# Which parts are rendered

The leaves of a pattern are its literal texts and placeholders, in order, each with the optional
parts around it. A leaf is kept if each of these is complete, that is, if all placeholders directly
inside it are filled. The pieces of a URL are the leaves that are kept (`piecesOfLeaves_pattern`),
and so its path is the text of these leaves (`path_eq_leaves`) and its placeholders are those among
them which are filled (`rendered_eq_leaves`).
-/

namespace UrlRouting

/-! ## Leaves -/

/-- The names of the placeholders in a list of parts, in order. -/
def Node.names (ns : List Node) : List Text := (placeholders.ofNodes ns).map (·.name)

theorem Node.names_cons (n : Node) (ns : List Node) :
    names (n :: ns) = n.placeholders.map (·.name) ++ names ns := by
  rw [names, placeholders.ofNodes, List.map_append, names]

/-- Literal text or a placeholder, with the children of the optional parts around it. -/
inductive Leaf
  | literal (around : List (List Node)) (t : Text)
  | placeholder (around : List (List Node)) (q : Placeholder)

namespace Node

mutual

/-- The leaves of a part, in the order in which they are written. -/
def leaves (around : List (List Node)) : Node → List Leaf
  | literal t => [.literal around t]
  | placeholder q => [.placeholder around q]
  | optional children => leavesOfNodes (children :: around) children

/-- The leaves of a list of parts. -/
def leavesOfNodes (around : List (List Node)) : List Node → List Leaf
  | [] => []
  | n :: ns => leaves around n ++ leavesOfNodes around ns

end

end Node

/-- The leaves of a pattern. -/
def Pattern.leaves (p : Pattern) : List Leaf := Node.leavesOfNodes [] p.nodes

/-- A placeholder is filled if it has a value that is not empty. -/
def Params.Fills (params : Params) (q : Placeholder) : Prop :=
  ∃ v, params.get? q.name = some v ∧ v ≠ []

/-- All placeholders directly in a list of parts are filled. -/
def Params.Completes (params : Params) (ns : List Node) : Prop :=
  ∀ q, .placeholder q ∈ ns → params.Fills q

namespace Leaf

/-- The children of the optional parts around a leaf. -/
def around : Leaf → List (List Node)
  | literal around _ => around
  | placeholder around _ => around

/-- A leaf is kept if the optional parts around it are complete. -/
def Kept (params : Params) (l : Leaf) : Prop := ∀ ns ∈ l.around, params.Completes ns

/-- What a leaf contributes to a path. -/
def text (params : Params) : Leaf → Text
  | literal _ t => t
  | placeholder _ q => (params.get? q.name).elim [] Percent.encode

/-- The name and the value of a placeholder that is filled. -/
def entry? (params : Params) : Leaf → Option (Text × Text)
  | literal _ _ => none
  | placeholder _ q => ((params.get? q.name).filter (· ≠ [])).map fun v => (q.name, v)

end Leaf

namespace Url

variable {params : Params}

theorem isComplete_iff {ns : List Node} : isComplete params ns = true ↔ params.Completes ns := by
  rw [isComplete, List.all_eq_true]
  constructor
  · intro all q mem
    obtain ⟨v, value⟩ := Option.isSome_iff_exists.mp (all _ mem)
    exact ⟨v, filled?_eq_some.mp value⟩
  · intro complete n mem
    cases n with
    | literal t => rfl
    | placeholder q =>
      obtain ⟨v, value⟩ := complete q mem
      exact Option.isSome_iff_exists.mpr ⟨v, filled?_eq_some.mpr value⟩
    | optional children => rfl

end Url

instance (params : Params) (ns : List Node) : Decidable (params.Completes ns) :=
  decidable_of_iff _ Url.isComplete_iff

instance (params : Params) (l : Leaf) : Decidable (l.Kept params) :=
  inferInstanceAs (Decidable (∀ ns ∈ l.around, params.Completes ns))

/-- The leaves of a pattern that are kept. -/
def Pattern.kept (p : Pattern) (params : Params) : List Leaf :=
  p.leaves.filter fun l => l.Kept params

/-- The placeholders that are rendered, with their values, in the order of the pattern: those that
are filled, in no optional part that is not complete. -/
def Pattern.rendered (p : Pattern) (params : Params) : Entries Text :=
  (p.kept params).filterMap (Leaf.entry? params)

/-- The parameters whose keys are no placeholders that are rendered, in the order in which they were
given. -/
def Pattern.unused (p : Pattern) (params : Params) : Entries Text :=
  params.toList.filter fun e => !(p.rendered params).keys.contains e.1

theorem Pattern.mem_unused {p : Pattern} {params : Params} {e : Text × Text} :
    e ∈ p.unused params ↔ e ∈ params.toList ∧ e.1 ∉ (p.rendered params).keys := by
  simp [unused]

/-! ## Pieces -/

namespace Url

variable {params : Params}

/-- The piece that a leaf makes: a placeholder makes one if it is filled. -/
def piece? (params : Params) : Leaf → Option Piece
  | .literal _ t => some (.literal t)
  | .placeholder _ q => (filled? params q).map (.value q.name)

/-- The pieces of the leaves that are kept. -/
def piecesOfLeaves (params : Params) (ls : List Leaf) : List Piece :=
  (ls.filter fun l => l.Kept params).filterMap (piece? params)

theorem piecesOfLeaves_singleton (l : Leaf) :
    piecesOfLeaves params [l] = if l.Kept params then (piece? params l).toList else [] := by
  rw [piecesOfLeaves, List.filter_cons]
  by_cases kept : l.Kept params
  · simp only [kept, decide_true, if_true, List.filter_nil]
    cases piece : piece? params l <;> simp [piece]
  · simp [kept]

theorem piecesOfLeaves_append (ls ls' : List Leaf) :
    piecesOfLeaves params (ls ++ ls') = piecesOfLeaves params ls ++ piecesOfLeaves params ls' := by
  rw [piecesOfLeaves, List.filter_append, List.filterMap_append, piecesOfLeaves, piecesOfLeaves]

mutual

theorem piecesOfLeaves_leaves (around : List (List Node)) (n : Node) :
    piecesOfLeaves params (n.leaves around) =
      if ∀ ns ∈ around, params.Completes ns then pieces params n else [] := by
  match n with
  | .literal t => exact piecesOfLeaves_singleton _
  | .placeholder q =>
    rw [Node.leaves, piecesOfLeaves_singleton, pieces]
    refine if_congr Iff.rfl ?_ rfl
    rw [piece?]
    cases filled? params q <;> rfl
  | .optional children =>
    rw [Node.leaves, piecesOfLeaves_leavesOfNodes, pieces, ← ite_and]
    refine if_congr ?_ rfl rfl
    rw [List.forall_mem_cons, isComplete_iff, and_comm]

/-- The pieces of leaves are those of their parts, if the optional parts around are complete. -/
theorem piecesOfLeaves_leavesOfNodes (around : List (List Node)) (ns : List Node) :
    piecesOfLeaves params (Node.leavesOfNodes around ns) =
      if ∀ ns ∈ around, params.Completes ns then piecesOfNodes params ns else [] := by
  match ns with
  | [] => exact (ite_self _).symm
  | n :: ns =>
    rw [Node.leavesOfNodes, piecesOfLeaves_append, piecesOfLeaves_leaves around n,
      piecesOfLeaves_leavesOfNodes around ns, piecesOfNodes]
    split <;> rfl

end

theorem piecesOfLeaves_pattern (p : Pattern) (params : Params) :
    piecesOfLeaves params p.leaves = piecesOfNodes params p.nodes := by
  rw [Pattern.leaves, piecesOfLeaves_leavesOfNodes, if_pos nofun]

/-- The path that is built is the text of the leaves that are kept. -/
theorem path_eq_leaves (p : Pattern) (params : Params) :
    path params p.nodes = (p.kept params).flatMap (Leaf.text params) := by
  rw [path, ← piecesOfLeaves_pattern, piecesOfLeaves, ← Pattern.kept,
    List.filterMap_eq_flatMap_toList, List.flatMap_assoc]
  congr 1
  funext l
  cases l with
  | literal around t => simp [piece?, Leaf.text, Piece.render]
  | placeholder around q =>
    rw [piece?, Leaf.text, filled?]
    rcases params.get? q.name with _ | _ | ⟨c, v⟩
    · rfl
    · rfl
    · exact List.append_nil _

/-- What is rendered are the placeholders that are kept and filled. -/
theorem rendered_eq_leaves (p : Pattern) (params : Params) :
    rendered params p.nodes = p.rendered params := by
  rw [rendered, ← piecesOfLeaves_pattern, piecesOfLeaves, ← Pattern.kept, List.filterMap_filterMap,
    Pattern.rendered]
  congr 1
  funext l
  cases l with
  | literal around t => rfl
  | placeholder around q =>
    rw [piece?, Leaf.entry?, filled?]
    cases (params.get? q.name).filter (· ≠ []) <;> rfl

theorem remaining_eq_unused (p : Pattern) (params : Params) :
    remaining params p.nodes = p.unused params := by
  rw [remaining, rendered_eq_leaves, Pattern.unused]

/-- A URL is the text of the leaves that are kept, as a normal path, with the other parameters as
its query. -/
theorem build_eq_leaves (p : Pattern) (params : Params) :
    build p params =
      withQuery (normalPath p.endsWithSlash ((p.kept params).flatMap (Leaf.text params)))
        (p.unused params) := by
  rw [build_eq, path_eq_leaves, remaining_eq_unused]

/-- The names of placeholders that are rendered are names of the pattern, in order. -/
theorem keys_rendered_sublist (p : Pattern) (params : Params) :
    (p.rendered params).keys.Sublist p.names := by
  rw [← rendered_eq_leaves, ← bindings_takenOfNodes]
  exact keys_bindings_sublist p.names _

theorem nodup_keys_unused (p : Pattern) (params : Params) : (p.unused params).keys.Nodup :=
  params.nodup.sublist (List.filter_sublist.map Prod.fst)

/-- The same URL is built from the parameters that are rendered and the others behind them. -/
theorem build_of_toList {p : Pattern} {params params' : Params}
    (same : params'.toList = p.rendered params ++ p.unused params) :
    build p params' = build p params := by
  rw [← rendered_eq_leaves, ← remaining_eq_unused] at same
  have values : params'.get? = params.get? := by
    funext key
    rw [Keyed.get?, show params'.entries = _ from same]
    exact get?_append_remaining params p.nodes key
  have pieces := piecesOfNodes_congr values p.nodes
  have others : remaining params' p.nodes = remaining params p.nodes := by
    rw [remaining, rendered, pieces, same, ← rendered]
    exact filter_append_remaining params p.nodes
  rw [build_eq, build_eq, path, path, pieces, others]

end Url

end UrlRouting
