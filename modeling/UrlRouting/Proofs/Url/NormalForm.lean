import UrlRouting.Proofs.Url.Leaves
import UrlRouting.Proofs.Url.Slashes

/-!
# The normal form of paths

What happens to a text on the way to its normal form is said by a relation on texts
(`Url.Collapses`): of each run of slashes one slash is left, at the very end of the text perhaps
none, and nothing else is touched. A normal path is its text collapsed (`collapses_normalPath`),
and has a slash at its end only if it is told to keep it (`getLast?_normalPath_iff`). A pattern
tells this only if its text ends in a slash (`getLast?_text_of_endsWithSlash`), and so its
URLs have the normal form (`build_normalForm`).
-/

namespace UrlRouting.Url

/-! ## Collapsing -/

/-- The second text is the first one with one slash for each maximal run of slashes. A run at the
very end may have been left out. -/
inductive Collapses : Text → Text → Prop
  | nil : Collapses [] []
  | char {c : Char} {t u : Text} (other : c ≠ '/') (rest : Collapses t u) :
      Collapses (c :: t) (c :: u)
  | run (n : Nat) {t u : Text} (maximal : t.head? ≠ some '/') (rest : Collapses t u) :
      Collapses (List.replicate (n + 1) '/' ++ t) ('/' :: u)
  | last (n : Nat) : Collapses (List.replicate (n + 1) '/') []

namespace Collapses

variable {t u : Text}

/-- Only slashes are left out. -/
theorem filter_eq (h : Collapses t u) : u.filter (· ≠ '/') = t.filter (· ≠ '/') := by
  have slashes (n : Nat) : (List.replicate n '/').filter (fun c => decide (c ≠ '/')) = [] :=
    List.filter_eq_nil_iff.mpr fun c mem => by
      obtain rfl := (List.mem_replicate.mp mem).2
      simp
  induction h with
  | nil => rfl
  | char other rest ih => simp only [List.filter_cons, ih]
  | run n maximal rest ih =>
    rw [List.filter_append, slashes, List.nil_append, ← ih]
    rfl
  | last n => exact (slashes (n + 1)).symm

/-- The last slash may be left out too. -/
theorem dropLast (h : Collapses t u) (slash : u.getLast? = some '/') :
    Collapses t u.dropLast := by
  induction h with
  | nil => cases slash
  | @char c t u other rest ih =>
    cases u with
    | nil => exact absurd (Option.some.inj slash) other
    | cons d u =>
      rw [List.getLast?_cons_cons] at slash
      exact .char other (ih slash)
  | @run n t u maximal rest ih =>
    cases u with
    | nil =>
      cases rest with
      | nil =>
        rw [List.append_nil]
        exact .last n
      | last m => exact absurd rfl maximal
    | cons d u =>
      rw [List.getLast?_cons_cons] at slash
      exact .run n maximal (ih slash)
  | last n => cases slash

/-- A text begins as it did, unless nothing is left. -/
theorem head?_eq (h : Collapses t u) (some : u ≠ []) : u.head? = t.head? := by
  cases h with
  | nil => exact absurd rfl some
  | char => rfl
  | run => rfl
  | last => exact absurd rfl some

end Collapses

/-- Squeezing leaves one slash of each run. Behind slashes it leaves out those that follow. -/
theorem collapses_squeezeFrom (t : Text) :
    Collapses t (squeeze t) ∧
      ∀ n, Collapses (List.replicate (n + 1) '/' ++ t) ('/' :: squeezeFrom true t) := by
  induction t with
  | nil => exact ⟨.nil, fun n => .run n (by simp) .nil⟩
  | cons c t ih =>
    obtain ⟨here, behind⟩ := ih
    by_cases slash : c = '/'
    · subst slash
      refine ⟨behind 0, fun n => ?_⟩
      have longer : List.replicate (n + 1) '/' ++ '/' :: t = List.replicate (n + 2) '/' ++ t := by
        have moved : List.replicate (n + 2) '/' = List.replicate (n + 1) '/' ++ ['/'] :=
          List.replicate_succ'
        rw [moved, List.append_assoc]
        rfl
      rw [longer]
      exact behind (n + 1)
    · have kept (b : Bool) : squeezeFrom b (c :: t) = c :: squeeze t := by
        rw [squeezeFrom, if_neg (by simp [slash]), decide_eq_false slash, squeeze]
      have first : Collapses (c :: t) (c :: squeeze t) := .char slash here
      refine ⟨?_, fun n => ?_⟩
      · rw [squeeze, kept]
        exact first
      · rw [kept]
        exact .run n (by simpa using slash) first

theorem collapses_squeeze (t : Text) : Collapses t (squeeze t) := (collapses_squeezeFrom t).1

theorem squeeze_ne_nil {t : Text} (nonempty : t ≠ []) : squeeze t ≠ [] := by
  obtain ⟨c, t, rfl⟩ := List.exists_cons_of_ne_nil nonempty
  rw [squeeze, squeezeFrom, if_neg (by simp)]
  exact List.cons_ne_nil _ _

/-! ## The last slash -/

theorem getLast?_cons_squeezeFrom (c : Char) (t : Text) :
    (c :: squeezeFrom (c = '/') t).getLast? = (c :: t).getLast? := by
  induction t generalizing c with
  | nil => rfl
  | cons d t ih =>
    rw [List.getLast?_cons_cons, ← ih d]
    by_cases both : d = '/' ∧ c = '/'
    · obtain ⟨rfl, rfl⟩ := both
      rfl
    · rw [squeezeFrom, if_neg (by simpa using both), List.getLast?_cons_cons]

/-- A text ends as it did when it is squeezed. -/
theorem getLast?_squeeze (t : Text) : (squeeze t).getLast? = t.getLast? := by
  cases t with
  | nil => rfl
  | cons c t =>
    rw [squeeze, squeezeFrom, if_neg (by simp)]
    exact getLast?_cons_squeezeFrom c t

/-- Without its last slash a path with single slashes has none at its end, unless that is all. -/
theorem eq_slash_of_getLast?_withoutLastSlash {t : Text} (single : Single t)
    (slash : (withoutLastSlash t).getLast? = some '/') : withoutLastSlash t = ['/'] := by
  unfold withoutLastSlash at slash ⊢
  split at slash
  next both =>
    rw [if_pos both]
    obtain ⟨s, rfl⟩ := List.getLast?_eq_some_iff.mp both.2
    rw [List.dropLast_concat] at slash
    exact absurd rfl ((List.isChain_append.mp single).2.2 '/' slash '/' rfl rfl)
  next one =>
    rw [if_neg one]
    obtain ⟨s, rfl⟩ := List.getLast?_eq_some_iff.mp slash
    have short : ¬ 1 < (s ++ ['/']).length := fun long => one ⟨long, slash⟩
    rw [List.length_append, List.length_singleton] at short
    rw [List.length_eq_zero_iff.mp (by omega : s.length = 0)]
    rfl

theorem withoutLastSlash_ne_nil {t : Text} (nonempty : t ≠ []) : withoutLastSlash t ≠ [] := by
  unfold withoutLastSlash
  split
  next both =>
    refine List.ne_nil_of_length_pos ?_
    rw [List.length_dropLast]
    omega
  next => exact nonempty

theorem collapses_withoutLastSlash {t u : Text} (h : Collapses t u) :
    Collapses t (withoutLastSlash u) := by
  unfold withoutLastSlash
  split
  next both => exact h.dropLast both.2
  next => exact h

/-! ## Normal paths -/

theorem normalPath_nil (slash : Bool) : normalPath slash [] = ['/'] := by
  cases slash <;> rfl

/-- A text that is not empty has something left without the slashes that it may lose. -/
theorem stripped_ne_nil (slash : Bool) {t : Text} (nonempty : t ≠ []) :
    (if slash then squeeze t else withoutLastSlash (squeeze t)) ≠ [] := by
  split
  next => exact squeeze_ne_nil nonempty
  next => exact withoutLastSlash_ne_nil (squeeze_ne_nil nonempty)

theorem normalPath_of_ne_nil (slash : Bool) {t : Text} (nonempty : t ≠ []) :
    normalPath slash t = if slash then squeeze t else withoutLastSlash (squeeze t) :=
  if_neg (stripped_ne_nil slash nonempty)

theorem normalPath_ne_nil (slash : Bool) (t : Text) : normalPath slash t ≠ [] := by
  by_cases empty : t = []
  · rw [empty, normalPath_nil]
    exact List.cons_ne_nil _ _
  · rw [normalPath_of_ne_nil slash empty]
    exact stripped_ne_nil slash empty

theorem collapses_normalPath (slash : Bool) {t : Text} (nonempty : t ≠ []) :
    Collapses t (normalPath slash t) := by
  rw [normalPath_of_ne_nil slash nonempty]
  split
  next => exact collapses_squeeze t
  next => exact collapses_withoutLastSlash (collapses_squeeze t)

theorem head?_normalPath {slash : Bool} {t : Text} (first : t.head? = some '/') :
    (normalPath slash t).head? = some '/' := by
  have nonempty : t ≠ [] := by
    intro none
    rw [none] at first
    cases first
  have collapsed := collapses_normalPath slash nonempty
  rw [collapsed.head?_eq (normalPath_ne_nil slash t), first]

/-- A normal path ends in a slash if that is all, or if it is told to keep one. -/
theorem getLast?_normalPath_iff {slash : Bool} {t : Text}
    (last : slash = true → t.getLast? = some '/') :
    (normalPath slash t).getLast? = some '/' ↔ normalPath slash t = ['/'] ∨ slash = true := by
  by_cases empty : t = []
  · rw [empty, normalPath_nil]
    simp
  rw [normalPath_of_ne_nil slash empty]
  cases slash with
  | true =>
    rw [if_pos rfl, getLast?_squeeze]
    exact iff_of_true (last rfl) (.inr rfl)
  | false =>
    rw [if_neg Bool.false_ne_true]
    constructor
    · exact fun slash => .inl (eq_slash_of_getLast?_withoutLastSlash (single_squeeze t) slash)
    · intro whole
      rw [whole.resolve_right Bool.false_ne_true]
      rfl

/-! ## Built paths -/

theorem Single.not_isInfix {t : Text} (single : Single t) : ¬ ['/', '/'] <:+: t := by
  intro twice
  have pair : Single ['/', '/'] := List.IsChain.infix single twice
  exact (List.isChain_cons.mp pair).1 '/' rfl rfl rfl

variable {params : Params}

theorem piecesOfNodes_append (params : Params) (ns ms : List Node) :
    piecesOfNodes params (ns ++ ms) = piecesOfNodes params ns ++ piecesOfNodes params ms := by
  induction ns with
  | nil => rfl
  | cons n ns ih => rw [List.cons_append, piecesOfNodes, piecesOfNodes, ih, List.append_assoc]

/-- A pattern with a slash at its end is rendered with one. -/
theorem getLast?_text_of_endsWithSlash {p : Pattern} (slash : p.endsWithSlash = true) :
    ((p.kept params).flatMap (Leaf.text params)).getLast? = some '/' := by
  rw [← path_eq_leaves]
  unfold Pattern.endsWithSlash at slash
  split at slash
  next t last =>
    obtain ⟨ns, whole⟩ := List.getLast?_eq_some_iff.mp last
    have final : (piecesOfNodes params [.literal t]).flatMap Piece.render = t :=
      List.append_nil t
    rw [path, whole, piecesOfNodes_append, List.flatMap_append, final, List.getLast?_append,
      of_decide_eq_true slash, Option.some_or]
  next => cases slash

/-- A query has no slashes. -/
theorem Single.withQuery {path : Text} (single : Single path) (pairs : Entries Text) :
    Single (withQuery path pairs) := by
  unfold Url.withQuery
  split
  next => exact single
  next =>
    have mark : (if path.contains '?' then '&' else '?') ≠ '/' := by split <;> decide
    refine single.append (single_of_notMem ?_) fun _ first => mark (Option.some.inj first)
    rw [List.mem_cons, not_or]
    refine ⟨mark.symm, fun mem => ?_⟩
    obtain same | ⟨t, among, inside⟩ := Text.mem_joinWith mem
    · cases same
    · obtain ⟨pair, -, rfl⟩ := List.mem_map.mp among
      exact notMem_queryPair (by decide) (by decide) pair inside

/-- The path of a URL is not empty and has single slashes. It ends in a slash only if it is a slash
or the pattern ends in one. It is the text of the leaves that are kept, collapsed, or a slash if
this text is empty. The query brings no two slashes in a row into the URL. -/
theorem build_normalForm (p : Pattern) (params : Params) :
    let text := (p.kept params).flatMap (Leaf.text params)
    let path := normalPath p.endsWithSlash text
    build p params = withQuery path (p.unused params) ∧
      path ≠ [] ∧ ¬ ['/', '/'] <:+: path ∧
      (path.getLast? = some '/' ↔ path = ['/'] ∨ p.endsWithSlash = true) ∧
      (text ≠ [] → path.filter (· ≠ '/') = text.filter (· ≠ '/') ∧ Collapses text path) ∧
      (text = [] → path = ['/']) ∧
      ¬ ['/', '/'] <:+: build p params := by
  intro text path
  have whole : build p params = withQuery path (p.unused params) := build_eq_leaves p params
  have single : Single path := single_normalPath _ _
  refine ⟨whole, normalPath_ne_nil _ _, single.not_isInfix, ?_, ?_, ?_, ?_⟩
  · apply getLast?_normalPath_iff
    exact getLast?_text_of_endsWithSlash
  · intro nonempty
    have collapsed := collapses_normalPath p.endsWithSlash nonempty
    exact ⟨collapsed.filter_eq, collapsed⟩
  · intro empty
    rw [show path = normalPath p.endsWithSlash text from rfl, empty, normalPath_nil]
  · rw [whole]
    exact (single.withQuery _).not_isInfix

end UrlRouting.Url
