import UrlRouting.Proofs.Keyed
import UrlRouting.Proofs.Matcher.Matching
import UrlRouting.Proofs.Text.Form
import UrlRouting.Url.Build

/-!
# What is built from a pattern

The path of a URL is the text of its pieces. A pattern whose placeholders accept the values in this
path, in the form in which they stand there, takes it apart again: literal text takes itself, and a
placeholder its value (`decomposes_pathAs`). Placeholders without constraints accept the components
that values are written as (`decomposes_path`). What is built depends on the values of parameters
only, not on their order (`piecesOfNodes_congr`).
-/

namespace UrlRouting

open Regex

/-! ## Free placeholders -/

/-- A placeholder without a constraint accepts whatever has no slash and is not empty. -/
theorem Placeholder.accepts_iff {q : Placeholder} (free : q.constraint = none) {t : Text} :
    q.Accepts t ↔ t ≠ [] ∧ '/' ∉ t := by
  obtain ⟨parsed, alone, regex⟩ := Matcher.parse_defaultConstraint
  have expression : q.expression = defaultConstraint := by rw [Placeholder.expression, free]; rfl
  have matched : parsed.regex.Matches t ↔ t ≠ [] ∧ '/' ∉ t := by
    rw [regex, Matcher.matches_others, ← List.length_pos_iff]
    rfl
  rw [← matched, Placeholder.Accepts, expression, alone]
  constructor
  · intro taken
    obtain ⟨parsed', same, taken⟩ := taken
    cases same
    exact taken
  · intro taken
    exact ⟨parsed, rfl, taken⟩

namespace Url

variable {params : Params}

/-! ## Values -/

theorem filled?_eq_some {q : Placeholder} {v : Text} :
    filled? params q = some v ↔ params.get? q.name = some v ∧ v ≠ [] := by
  rw [filled?, Option.filter_eq_some_iff, decide_eq_true_iff]

theorem isComplete_cons (params : Params) (n : Node) (ns : List Node) :
    isComplete params (n :: ns) = true ↔
      (∀ q, n = .placeholder q → ∃ v, filled? params q = some v) ∧ isComplete params ns = true := by
  rw [isComplete, List.all_cons, Bool.and_eq_true_iff, ← isComplete]
  refine and_congr_left fun _ => ?_
  cases n with
  | literal t => simp
  | placeholder q => simp [Option.isSome_iff_exists]
  | optional children => simp

mutual

/-- What is built from a part depends on the values of parameters only. -/
theorem pieces_congr {params' : Params} (same : params'.get? = params.get?) (n : Node) :
    pieces params' n = pieces params n := by
  have filled : filled? params' = filled? params := by
    funext q
    rw [filled?, filled?, same]
  match n with
  | .literal t => rfl
  | .placeholder q => rw [pieces, pieces, filled]
  | .optional children =>
    rw [pieces, pieces, isComplete, isComplete, filled, piecesOfNodes_congr same children]

theorem piecesOfNodes_congr {params' : Params} (same : params'.get? = params.get?)
    (ns : List Node) : piecesOfNodes params' ns = piecesOfNodes params ns := by
  match ns with
  | [] => rfl
  | n :: ns => rw [piecesOfNodes, piecesOfNodes, pieces_congr same n, piecesOfNodes_congr same ns]

end

/-! ## Paths -/

/-- The text of a piece, with its value in a given form. -/
def Piece.renderAs (form : Text → Text) : Piece → Text
  | literal t => t
  | value _ v => form v

/-- The path that is built from a list of parts, with values in a given form. -/
def pathAs (form : Text → Text) (params : Params) (ns : List Node) : Text :=
  (piecesOfNodes params ns).flatMap (Piece.renderAs form)

section

variable (form : Text → Text)

theorem pathAs_cons (params : Params) (n : Node) (ns : List Node) :
    pathAs form params (n :: ns) =
      (pieces params n).flatMap (Piece.renderAs form) ++ pathAs form params ns := by
  rw [pathAs, piecesOfNodes, List.flatMap_append, pathAs]

theorem pathAs_literal (params : Params) (t : Text) (ns : List Node) :
    pathAs form params (.literal t :: ns) = t ++ pathAs form params ns := by
  rw [pathAs_cons, pieces]
  simp [Piece.renderAs]

theorem pathAs_placeholder {q : Placeholder} {v : Text} (value : filled? params q = some v)
    (ns : List Node) :
    pathAs form params (.placeholder q :: ns) = form v ++ pathAs form params ns := by
  rw [pathAs_cons, pieces, value]
  simp [Piece.renderAs]

theorem pathAs_optional (params : Params) (children ns : List Node) :
    pathAs form params (.optional children :: ns) =
      (if isComplete params children then pathAs form params children else []) ++
        pathAs form params ns := by
  rw [pathAs_cons, pieces]
  split <;> rfl

end

/-- The path that is built from a list of parts. -/
def path (params : Params) (ns : List Node) : Text :=
  (piecesOfNodes params ns).flatMap Piece.render

theorem path_nil (params : Params) : path params [] = [] := rfl

theorem path_literal (params : Params) (t : Text) (ns : List Node) :
    path params (.literal t :: ns) = t ++ path params ns :=
  pathAs_literal Percent.encode params t ns

theorem path_placeholder {q : Placeholder} {v : Text} (value : filled? params q = some v)
    (ns : List Node) :
    path params (.placeholder q :: ns) = Percent.encode v ++ path params ns :=
  pathAs_placeholder Percent.encode value ns

theorem path_optional (params : Params) (children ns : List Node) :
    path params (.optional children :: ns) =
      (if isComplete params children then path params children else []) ++ path params ns :=
  pathAs_optional Percent.encode params children ns

/-! ## What has been rendered -/

/-- The name and the value that a piece renders. -/
def Piece.entry? : Piece → Option (Text × Text)
  | .literal _ => none
  | .value name v => some (name, v)

/-- The placeholders that are rendered, with their values, in order. -/
def rendered (params : Params) (ns : List Node) : Entries Text :=
  (piecesOfNodes params ns).filterMap Piece.entry?

theorem keys_rendered (params : Params) (ns : List Node) :
    (rendered params ns).keys = (piecesOfNodes params ns).filterMap Piece.name? := by
  rw [rendered, Entries.keys, List.map_filterMap]
  congr 1
  funext piece
  cases piece <;> rfl

theorem rendered_cons (params : Params) (n : Node) (ns : List Node) :
    rendered params (n :: ns) =
      (pieces params n).filterMap Piece.entry? ++ rendered params ns := by
  rw [rendered, piecesOfNodes, List.filterMap_append, rendered]

mutual

theorem get?_of_mem_pieces (params : Params) (n : Node) :
    ∀ e ∈ (pieces params n).filterMap Piece.entry?, params.get? e.1 = some e.2 ∧ e.2 ≠ [] := by
  intro e mem
  match n with
  | .literal t => cases mem
  | .placeholder q =>
    rw [pieces] at mem
    cases value : filled? params q with
    | none =>
      rw [value] at mem
      cases mem
    | some v =>
      rw [value] at mem
      obtain rfl := List.mem_singleton.mp mem
      exact filled?_eq_some.mp value
  | .optional children =>
    rw [pieces] at mem
    split at mem
    next => exact get?_of_mem_rendered params children e mem
    next => cases mem

/-- What is rendered are values of parameters, and none of them is empty. -/
theorem get?_of_mem_rendered (params : Params) (ns : List Node) :
    ∀ e ∈ rendered params ns, params.get? e.1 = some e.2 ∧ e.2 ≠ [] := by
  intro e mem
  match ns with
  | [] => cases mem
  | n :: ns =>
    rw [rendered_cons] at mem
    rcases List.mem_append.mp mem with mem | mem
    · exact get?_of_mem_pieces params n e mem
    · exact get?_of_mem_rendered params ns e mem

end

/-! ## What placeholders take -/

mutual

/-- What the placeholders of a part take of the path that is built, with values in a given form. -/
def taken (form : Text → Text) (params : Params) : Node → List (Option Text)
  | .literal _ => []
  | .placeholder q => [(filled? params q).map form]
  | .optional children =>
    if isComplete params children then takenOfNodes form params children
    else List.replicate (Node.placeholders.ofNodes children).length none

/-- What the placeholders of a list of parts take of the path that is built. -/
def takenOfNodes (form : Text → Text) (params : Params) : List Node → List (Option Text)
  | [] => []
  | n :: ns => taken form params n ++ takenOfNodes form params ns

end

/-- The path that is built is taken apart into the values in it, if the placeholders accept the form
of the values that they are rendered with. -/
theorem decomposes_pathAs (form : Text → Text) (ns : List Node)
    (accepts : ∀ q ∈ Node.placeholders.ofNodes ns, ∀ v, (q.name, v) ∈ rendered params ns →
      q.Accepts (form v))
    (complete : isComplete params ns = true) :
    Node.Decomposes ns (pathAs form params ns) (takenOfNodes form params ns) := by
  match ns with
  | [] => exact .nil
  | .literal t :: ns =>
    rw [pathAs_literal]
    exact .literal (decomposes_pathAs form ns accepts ((isComplete_cons _ _ _).mp complete).2)
  | .placeholder q :: ns =>
    obtain ⟨here, rest⟩ := (isComplete_cons _ _ _).mp complete
    obtain ⟨v, value⟩ := here q rfl
    have entries : rendered params (.placeholder q :: ns) = (q.name, v) :: rendered params ns := by
      rw [rendered_cons, pieces, value]
      rfl
    rw [entries] at accepts
    rw [pathAs_placeholder form value, takenOfNodes, taken, value]
    exact .placeholder (accepts q List.mem_cons_self v List.mem_cons_self)
      (decomposes_pathAs form ns (fun q mem v entry =>
        accepts q (List.mem_cons_of_mem _ mem) v (List.mem_cons_of_mem _ entry)) rest)
  | .optional children :: ns =>
    rw [rendered_cons] at accepts
    have rest := decomposes_pathAs form ns (fun q mem v entry =>
      accepts q (List.mem_append_right _ mem) v (List.mem_append_right _ entry))
      ((isComplete_cons _ _ _).mp complete).2
    rw [pathAs_optional, takenOfNodes, taken]
    split
    next inside =>
      refine .present (decomposes_pathAs form children (fun q mem v entry =>
        accepts q (List.mem_append_left _ mem) v (List.mem_append_left _ ?_)) inside) rest
      rw [pieces, if_pos inside]
      exact entry
    next => exact .absent rest

/-- Placeholders without constraints take components. -/
theorem decomposes_path (ns : List Node)
    (free : ∀ q ∈ Node.placeholders.ofNodes ns, q.constraint = none)
    (complete : isComplete params ns = true) :
    Node.Decomposes ns (path params ns) (takenOfNodes Percent.encode params ns) := by
  refine decomposes_pathAs Percent.encode ns (fun q mem v entry => ?_) complete
  have nonempty := (get?_of_mem_rendered params ns _ entry).2
  exact (Placeholder.accepts_iff (free q mem)).mpr
    ⟨Percent.encode_ne_nil nonempty, Percent.notMem_encode (by decide) v⟩

theorem length_takenOfNodes (form : Text → Text) (params : Params) (ns : List Node) :
    (takenOfNodes form params ns).length = (Node.placeholders.ofNodes ns).length := by
  match ns with
  | [] => rfl
  | .literal t :: ns => exact length_takenOfNodes form params ns
  | .placeholder q :: ns =>
    rw [takenOfNodes, List.length_append, length_takenOfNodes form params ns]
    exact Nat.add_comm _ _
  | .optional children :: ns =>
    have inside := length_takenOfNodes form params children
    rw [takenOfNodes, List.length_append, length_takenOfNodes form params ns, taken,
      Node.placeholders.ofNodes, List.length_append]
    congr 1
    split
    · exact inside
    · exact List.length_replicate

/-! ## The query -/

/-- The parameters that no placeholder has used, in the order in which they were given. -/
def remaining (params : Params) (ns : List Node) : Entries Text :=
  params.toList.filter fun e => !(rendered params ns).keys.contains e.1

/-- The parameters that are rendered, and then the others, are all that have been given. -/
theorem get?_append_remaining (params : Params) (ns : List Node) (key : Text) :
    Entries.get? key (rendered params ns ++ remaining params ns) = params.get? key := by
  rw [Entries.get?_append]
  cases value : Entries.get? key (rendered params ns) with
  | some v =>
    have known := (get?_of_mem_rendered params ns _ (Entries.mem_of_get? value)).1
    rw [Option.some_or]
    exact known.symm
  | none =>
    have unused := Entries.get?_eq_none.mp value
    rw [Option.none_or, remaining]
    refine Entries.get?_filter (fun k => !(rendered params ns).keys.contains k) ?_ params.toList
    simpa using unused

/-- The others are what remains again. -/
theorem filter_append_remaining (params : Params) (ns : List Node) :
    (rendered params ns ++ remaining params ns).filter
      (fun e => !(rendered params ns).keys.contains e.1) = remaining params ns := by
  have used :
      (rendered params ns).filter (fun e => !(rendered params ns).keys.contains e.1) = [] := by
    refine List.filter_eq_nil_iff.mpr fun e mem => ?_
    have known : e.1 ∈ (rendered params ns).keys := List.mem_map_of_mem mem
    simpa using known
  rw [List.filter_append, used, List.nil_append, remaining, List.filter_filter]
  simp

theorem build_eq (p : Pattern) (params : Params) :
    build p params = withQuery (normalPath p.endsWithSlash (path params p.nodes))
      (remaining params p.nodes) := by
  rw [remaining, keys_rendered]
  rfl

/-- The query that is written for some parameters. -/
def queryOf? (pairs : Entries Text) : Option Text :=
  if pairs = [] then none else some (Text.joinWith '&' (pairs.map queryPair))

theorem head?_withQuery {t : Text} {c : Char} (first : t.head? = some c) (pairs : Entries Text) :
    (withQuery t pairs).head? = some c := by
  unfold withQuery
  split
  next => exact first
  next => rw [List.head?_append, first, Option.some_or]

theorem splitFirst_withQuery {t : Text} (unmarked : '?' ∉ t) (pairs : Entries Text) :
    Text.splitFirst '?' (withQuery t pairs) = (t, queryOf? pairs) := by
  have plain : t.contains '?' = false := by simpa using unmarked
  unfold withQuery queryOf?
  split
  next => exact Text.splitFirst_of_notMem unmarked
  next => rw [plain]; exact Text.splitFirst_append unmarked _

theorem notMem_queryPair {c : Char} (mark : c ∈ ['/', '?', '&', '=', '+']) (other : c ≠ '=')
    (pair : Text × Text) : c ∉ queryPair pair := by
  intro mem
  rcases List.mem_append.mp mem with mem | mem
  · exact Percent.notMem_encode mark pair.1 mem
  · rcases List.mem_cons.mp mem with same | mem
    · exact other same
    · exact Percent.notMem_encode mark pair.2 mem

theorem readPair_queryPair (pair : Text × Text) : Form.readPair (queryPair pair) = pair := by
  have split := Text.splitFirst_append (Percent.notMem_encode (c := '=') (by decide) pair.1)
    (Percent.encode pair.2)
  rw [Form.readPair, queryPair, split]
  dsimp only
  rw [Option.getD_some, Form.decode_encode, Form.decode_encode]

/-- A query that has been written is read. -/
theorem read_queryOf? (pairs : Entries Text) : Form.read ((queryOf? pairs).getD []) = pairs := by
  unfold queryOf?
  split
  next none => rw [none]; rfl
  next =>
    apply Form.read_joinWith fun pair => notMem_queryPair (by decide) (by decide) pair
    intro pair
    exact ⟨by simp [queryPair], readPair_queryPair pair⟩

end Url

theorem bindings_append {names names' : List Text} {vs vs' : List (Option Text)}
    (length : names.length = vs.length) :
    bindings (names ++ names') (vs ++ vs') = bindings names vs ++ bindings names' vs' := by
  rw [bindings, List.zip_append length, List.filterMap_append]
  rfl

theorem bindings_replicate (names : List Text) (n : Nat) :
    bindings names (List.replicate n none) = [] := by
  refine List.filterMap_eq_nil_iff.mpr fun x mem => ?_
  have absent := (List.mem_replicate.mp (List.of_mem_zip mem).2).2
  rw [absent]
  rfl

theorem keys_bindings_sublist (names : List Text) (vs : List (Option Text)) :
    (bindings names vs).keys.Sublist names := by
  induction names generalizing vs with
  | nil => exact List.nil_sublist _
  | cons name names ih =>
    cases vs with
    | nil => exact List.nil_sublist _
    | cons v vs =>
      cases v with
      | none => exact (ih vs).cons name
      | some t => exact (ih vs).cons_cons name

/-- The names with what is taken, decoded, are what has been rendered. -/
theorem bindings_takenOfNodes (params : Params) (ns : List Node) :
    bindings ((Node.placeholders.ofNodes ns).map (·.name))
      (Url.takenOfNodes Percent.encode params ns) = Url.rendered params ns := by
  match ns with
  | [] => rfl
  | n :: ns =>
    have rest := bindings_takenOfNodes params ns
    rw [Url.rendered_cons, Node.placeholders.ofNodes, List.map_append, Url.takenOfNodes]
    match n with
    | .literal t => exact rest
    | .placeholder q =>
      rw [bindings_append (by rfl), rest, Url.pieces, Url.taken]
      congr 1
      cases Url.filled? params q with
      | none => rfl
      | some v => simp [bindings, Node.placeholders, Url.Piece.entry?, Percent.decode_encode]
    | .optional children =>
      have inside := bindings_takenOfNodes params children
      have count : ((Node.placeholders.ofNodes children).map (·.name)).length =
          (Url.takenOfNodes Percent.encode params children).length := by
        rw [List.length_map, Url.length_takenOfNodes]
      rw [Url.taken, Url.pieces, Node.placeholders]
      split
      next => rw [bindings_append count, rest, inside]; rfl
      next =>
        rw [bindings_append (by simp), rest, bindings_replicate]
        rfl

end UrlRouting
