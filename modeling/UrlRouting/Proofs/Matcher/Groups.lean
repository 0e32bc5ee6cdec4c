import UrlRouting.Proofs.Matcher.Constraint
import UrlRouting.Proofs.Pattern.Openers

/-!
# The groups of the matcher's expression

Literal text, the groups of placeholders and the groups of optional parts follow one another, and
each of them leads the lexical machine from the outside to the outside. So the groups of the whole
expression are the groups of the placeholders, each with the groups of its constraint
(`captured_fragmentOfNodes`), and the program has exactly these (`groups_of_ofPattern`).

This holds if no comment can begin in a constraint: `Admitted` says so in one of the two modes in
which that is known.
-/

namespace UrlRouting

open Regex Constraint

/-! ## Calm texts -/

/-- A text can be read in a mode, with no flags set. -/
def Quiet (mode : Mode) (t : Text) : Prop := Calm mode ⟨t, {}, []⟩

namespace Quiet

variable {mode : Mode} {t : Text}

theorem cons {c : Char} (escape : c ≠ '\\') (bracket : c ≠ '[') (group : c ≠ '(') (hash : c ≠ '#')
    (quiet : Quiet mode t) : Quiet mode (c :: t) := by
  cases mode with
  | any => trivial
  | hashFree =>
    have single : HashFree [c] := by
      intro w mem
      obtain rfl : w = [c] := by simpa using mem
      simpa using hash
    exact HashFree.append (s := [c]) (Lex.closed_singleton escape bracket) single quiet
  | tame =>
    refine ⟨rfl, fun w mem => quiet.2 w ?_⟩
    rwa [openings_cons escape bracket group] at mem

/-- In front of the end of a group. -/
theorem close (quiet : Quiet mode t) : Quiet mode (')' :: t) :=
  quiet.cons (by decide) (by decide) (by decide) (by decide)

/-- In front of the end of an optional part. -/
theorem closeOptional (quiet : Quiet mode t) : Quiet mode (')' :: '?' :: t) :=
  (quiet.cons (by decide) (by decide) (by decide) (by decide)).close

theorem inert {s : Text} (inert : Inert s) (quiet : Quiet mode t) : Quiet mode (s ++ t) := by
  induction s with
  | nil => exact quiet
  | cons c s ih =>
    obtain ⟨escape, bracket, -, group, -, hash⟩ := inert_ne (inert c List.mem_cons_self)
    exact cons escape bracket group hash (ih fun d mem => inert d (List.mem_cons_of_mem c mem))

theorem escape (c : Char) (quiet : Quiet mode t) : Quiet mode ('\\' :: c :: t) := by
  cases mode with
  | any => trivial
  | hashFree =>
    have pair : HashFree ['\\', c] := by
      intro w mem
      obtain rfl : w = ['\\', c] := by
        simpa [Lex.step, Lex.starts_cons_of_ne] using mem
      simp
    exact HashFree.append (s := ['\\', c]) rfl pair quiet
  | tame =>
    have skip := Taken.openings_escape (r := []) c Inert.nil t
    rw [List.nil_append] at skip
    refine ⟨rfl, fun w mem => quiet.2 w ?_⟩
    rwa [skip] at mem

/-- Behind the parenthesis of a tame group. -/
theorem group (tame : isTame ('(' :: t)) (quiet : Quiet mode t) : Quiet mode ('(' :: t) := by
  cases mode with
  | any => trivial
  | hashFree =>
    have single : HashFree ['('] := by
      intro w mem
      obtain rfl : w = ['('] := by simpa [Lex.step] using mem
      simp
    exact HashFree.append (s := ['(']) rfl single quiet
  | tame =>
    refine ⟨rfl, fun w mem => ?_⟩
    rw [openings_group] at mem
    rcases List.mem_cons.mp mem with rfl | mem
    · exact tame
    · exact quiet.2 w mem

/-- A group is as tame in front of a closing parenthesis as by itself. -/
theorem isTame_append {w : Text} (tame : isTame w) (k : Text) : isTame (w ++ ')' :: k) := by
  match w with
  | [] => rfl
  | [_] =>
    simp only [List.cons_append, List.nil_append]
    unfold isTame
    split
    next eq => cases eq
    next => rfl
  | [_, _] =>
    simp only [List.cons_append, List.nil_append]
    unfold isTame
    split
    next eq =>
      cases eq
      decide
    next => rfl
  | c :: d :: e :: w =>
    simp only [List.cons_append]
    unfold isTame at tame ⊢
    split at tame
    next eq =>
      cases eq
      exact tame
    next other =>
      split
      next eq =>
        cases eq
        exact absurd rfl (other _ _)
      next => rfl

theorem append {s k : Text} (closed : Lex.Closed s) (left : Quiet mode s)
    (right : Quiet mode (')' :: k)) : Quiet mode (s ++ ')' :: k) := by
  cases mode with
  | any => trivial
  | hashFree => exact HashFree.append closed left right
  | tame =>
    refine ⟨rfl, fun w mem => ?_⟩
    rw [openings_append closed] at mem
    rcases List.mem_append.mp mem with mem | mem
    · obtain ⟨v, opening, rfl⟩ := List.mem_map.mp mem
      exact isTame_append (left.2 v opening) k
    · exact right.2 w mem

end Quiet

/-! ## Constraints -/

/-- A constraint as the matcher takes it: an expression by itself, calm, and without groups that
capture but have no name. -/
structure Admitted (mode : Mode) (c : Text) : Prop where
  parses : ∃ parsed, Regex.parse c = .ok parsed
  quiet : Quiet mode c
  named : ∀ kind ∈ kinds c, kind ≠ .capturing

namespace Admitted

variable {mode : Mode} {c k : Text}

/-- The groups of a constraint are of the same kinds in front of a closing parenthesis. -/
theorem closed (admitted : Admitted mode c) (calm : mode ≠ .any) :
    Lex.Closed c ∧ ∀ k, kinds (c ++ ')' :: k) = kinds c ++ kinds k := by
  obtain ⟨parsed, alone⟩ := admitted.parses
  obtain ⟨last, read, rest, -⟩ := Matcher.parse_eq_ok.mp alone
  have quiet : Calm mode ⟨c, {}, []⟩ := admitted.quiet
  obtain ⟨new, -, taken, understood, -⟩ :=
    ((reads_readExpression mode maxNesting).advances quiet read).groups
  obtain ⟨s, split, closed, groups⟩ := taken.exists_closed (.inl (Mode.comments_eq_false calm))
  have split : c = s ++ last.rest := split
  have groups : openings c = new.map Prod.snd ++ openings last.rest := groups
  rw [rest, List.append_nil] at split
  rw [rest, openings_nil, List.append_nil] at groups
  subst split
  refine ⟨closed, fun k => ?_⟩
  have stable : ∀ w ∈ openings c, classify (w.tail ++ ')' :: k) = classify w.tail := by
    intro w mem
    have named := admitted.named _ (List.mem_map_of_mem mem)
    rw [groups] at mem
    obtain ⟨e, opened, rfl⟩ := List.mem_map.mp mem
    rcases understood e opened with ⟨here, before⟩ | veiled
    · rw [before k, here]
    · exact absurd (classify_of_isVeiled veiled) named
  rw [kinds, openings_append closed, List.map_append, List.map_map]
  refine congrArg₂ _ (List.map_congr_left fun w mem => ?_) rfl
  have ne := Lex.ne_nil_of_mem_starts (List.mem_filter.mp mem).1
  rw [Function.comp_apply, List.tail_append_of_ne_nil ne, stable w mem]

/-- Each group that a constraint opens it closes, and no other. -/
theorem balanced (admitted : Admitted mode c) (plain : mode.comments = false) :
    Lex.Balanced c := by
  obtain ⟨parsed, alone⟩ := admitted.parses
  obtain ⟨last, read, rest, -⟩ := Matcher.parse_eq_ok.mp alone
  have quiet : Calm mode ⟨c, {}, []⟩ := admitted.quiet
  obtain ⟨x, whole, balanced⟩ :=
    ((reads_readExpression mode maxNesting).advances quiet read).passes plain
  have whole : c = x ++ last.rest := whole
  rw [rest, List.append_nil] at whole
  rwa [whole]

theorem default (mode : Mode) : Admitted mode defaultConstraint where
  parses := by
    obtain ⟨parsed, alone, -⟩ := Matcher.parse_defaultConstraint
    exact ⟨parsed, alone⟩
  quiet := by
    cases mode with
    | any => trivial
    | hashFree => exact HashFree.of_notMem (by decide) .outside
    | tame => exact ⟨rfl, by decide⟩
  named := by decide

end Admitted

/-! ## The expression -/

namespace Matcher

/-- The groups that capture, by their kinds. -/
def captured (t : Text) : List GroupKind := (kinds t).filter (·.captures)

/-- The groups that are made for placeholders, the first of which has a given index, with those of
their constraints. -/
def placeholderGroups (index : Nat) : List Placeholder → List GroupKind
  | [] => []
  | p :: ps =>
    .named (groupName index) :: captured p.expression ++ placeholderGroups (index + 1) ps

theorem placeholderGroups_append (index : Nat) (ps qs : List Placeholder) :
    placeholderGroups index (ps ++ qs) =
      placeholderGroups index ps ++ placeholderGroups (index + ps.length) qs := by
  induction ps generalizing index with
  | nil => rfl
  | cons p ps ih =>
    rw [List.cons_append, placeholderGroups, ih, placeholderGroups, List.length_cons,
      Nat.add_right_comm, List.append_assoc, Nat.add_assoc]

theorem kinds_escapeLiteral (t u : Text) : kinds (escapeLiteral t ++ u) = kinds u := by
  induction t with
  | nil => rfl
  | cons c t ih =>
    rw [escapeLiteral, List.flatMap_cons, List.append_assoc]
    split
    · exact (kinds_escape c _).trans ih
    next plain =>
      have ne : ∀ d ∈ ['\\', '[', '('], c ≠ d := by
        rintro d mem rfl
        exact plain (List.contains_iff_mem.mpr (special_of_mem (by decide) mem))
      exact (kinds_cons (ne _ (by simp)) (ne _ (by simp)) (ne _ (by simp)) _).trans ih

theorem quiet_escapeLiteral {mode : Mode} (t : Text) {u : Text} (quiet : Quiet mode u) :
    Quiet mode (escapeLiteral t ++ u) := by
  induction t with
  | nil => exact quiet
  | cons c t ih =>
    rw [escapeLiteral, List.flatMap_cons, List.append_assoc]
    split
    · exact ih.escape c
    next plain =>
      have ne : ∀ d ∈ ['\\', '[', '(', '#'], c ≠ d := by
        rintro d mem rfl
        exact plain (List.contains_iff_mem.mpr (special_of_mem (by decide) mem))
      exact ih.cons (ne _ (by simp)) (ne _ (by simp)) (ne _ (by simp)) (ne _ (by simp))

theorem kinds_placeholder {mode : Mode} (calm : mode ≠ .any) {p : Placeholder}
    (admitted : Admitted mode p.expression) (index : Nat) (t : Text) :
    kinds (capture index p ++ t) =
      .named (groupName index) :: kinds p.expression ++ kinds t := by
  have whole : capture index p ++ t =
      '(' :: (['?', 'P', '<'] ++ (groupName index ++ '>' :: (p.expression ++ ')' :: t))) :=
    capture_append index p t
  have inert : Inert (groupName index) := fun c mem =>
    isInert_of_isNameChar (isNameChar_of_mem_groupName c mem)
  have named :
      classify (['?', 'P', '<'] ++ (groupName index ++ '>' :: (p.expression ++ ')' :: t))) =
      .named (groupName index) := by
    have read := read_groupName {} index (p.expression ++ ')' :: t)
    exact read_kind read (by simp)
  have mark : Inert ['?', 'P', '<'] := List.all_eq_true.mp rfl
  rw [whole, kinds_group, named, kinds_inert mark, kinds_inert inert,
    kinds_cons (by decide) (by decide) (by decide), (admitted.closed calm).2]
  rfl

theorem quiet_placeholder {mode : Mode} (calm : mode ≠ .any) {p : Placeholder}
    (admitted : Admitted mode p.expression) (index : Nat) {t : Text} (quiet : Quiet mode t) :
    Quiet mode (capture index p ++ t) := by
  have whole : capture index p ++ t =
      '(' :: (['?', 'P', '<'] ++ (groupName index ++ '>' :: (p.expression ++ ')' :: t))) :=
    capture_append index p t
  have inert : Inert (groupName index) := fun c mem =>
    isInert_of_isNameChar (isNameChar_of_mem_groupName c mem)
  have mark : Inert ['?', 'P', '<'] := List.all_eq_true.mp rfl
  have behind : Quiet mode (')' :: t) := quiet.close
  have body : Quiet mode ('>' :: (p.expression ++ ')' :: t)) :=
    (Quiet.append (admitted.closed calm).1 admitted.quiet behind).cons
      (by decide) (by decide) (by decide) (by decide)
  rw [whole]
  exact Quiet.group rfl (Quiet.inert mark (Quiet.inert inert body))

mutual

theorem captured_fragment {mode : Mode} (calm : mode ≠ .any) (n : Node)
    (admitted : ∀ p ∈ n.placeholders, Admitted mode p.expression) (index : Nat) (t : Text) :
    captured (fragment index n ++ t) = placeholderGroups index n.placeholders ++ captured t := by
  match n with
  | .literal s => exact congrArg (List.filter _) (kinds_escapeLiteral s t)
  | .placeholder p =>
    have kinds := kinds_placeholder calm (admitted p List.mem_cons_self) index t
    rw [fragment, captured, kinds, List.filter_append, List.filter_cons_of_pos rfl]
    simp [Node.placeholders, placeholderGroups, captured]
  | .optional children =>
    have whole : fragment index (.optional children) ++ t =
        '(' :: '?' :: ':' :: (fragmentOfNodes index children ++ ')' :: '?' :: t) :=
      optional_append index children t
    rw [whole, captured, kinds_group]
    exact (captured_fragmentOfNodes calm children admitted index _)

theorem captured_fragmentOfNodes {mode : Mode} (calm : mode ≠ .any) (ns : List Node)
    (admitted : ∀ p ∈ Node.placeholders.ofNodes ns, Admitted mode p.expression) (index : Nat)
    (t : Text) : captured (fragmentOfNodes index ns ++ t) =
      placeholderGroups index (Node.placeholders.ofNodes ns) ++ captured t := by
  match ns with
  | [] => rfl
  | n :: ns =>
    rw [fragmentOfNodes, List.append_assoc,
      captured_fragment calm n fun p mem => admitted p (List.mem_append_left _ mem),
      captured_fragmentOfNodes calm ns fun p mem => admitted p (List.mem_append_right _ mem),
      Node.placeholders.ofNodes, placeholderGroups_append, List.append_assoc]

end

mutual

theorem quiet_fragment {mode : Mode} (calm : mode ≠ .any) (n : Node)
    (admitted : ∀ p ∈ n.placeholders, Admitted mode p.expression) (index : Nat) {t : Text}
    (quiet : Quiet mode t) : Quiet mode (fragment index n ++ t) := by
  match n with
  | .literal s => exact quiet_escapeLiteral s quiet
  | .placeholder p => exact quiet_placeholder calm (admitted p List.mem_cons_self) index quiet
  | .optional children =>
    have whole : fragment index (.optional children) ++ t =
        '(' :: (['?', ':'] ++ (fragmentOfNodes index children ++ ([')', '?'] ++ t))) :=
      optional_append index children t
    have mark : Inert ['?', ':'] := List.all_eq_true.mp rfl
    have behind : Quiet mode ([')', '?'] ++ t) := quiet.closeOptional
    rw [whole]
    exact Quiet.group rfl
      (Quiet.inert mark (quiet_fragmentOfNodes calm children admitted index behind))

theorem quiet_fragmentOfNodes {mode : Mode} (calm : mode ≠ .any) (ns : List Node)
    (admitted : ∀ p ∈ Node.placeholders.ofNodes ns, Admitted mode p.expression) (index : Nat)
    {t : Text} (quiet : Quiet mode t) : Quiet mode (fragmentOfNodes index ns ++ t) := by
  match ns with
  | [] => exact quiet
  | n :: ns =>
    rw [fragmentOfNodes, List.append_assoc]
    refine quiet_fragment calm n (fun p mem => admitted p (List.mem_append_left _ mem)) index ?_
    exact quiet_fragmentOfNodes calm ns (fun p mem => admitted p (List.mem_append_right _ mem)) _
      quiet

end

/-- The expression of a pattern is calm if the constraints are. -/
theorem quiet_expression {mode : Mode} (calm : mode ≠ .any) {p : Pattern}
    (admitted : ∀ q ∈ p.placeholders, Admitted mode q.expression) : Quiet mode p.expression := by
  have whole : p.expression =
      ['^'] ++ '(' :: (['?', ':'] ++ (fragmentOfNodes 0 p.nodes ++ [')', '/', '?', '$'])) :=
    expression_eq p
  have mark : Inert ['^'] := List.all_eq_true.mp rfl
  have mark' : Inert ['?', ':'] := List.all_eq_true.mp rfl
  have nothing : ∀ w ∈ openings [')', '/', '?', '$'], False := by decide
  have tail : Quiet mode [')', '/', '?', '$'] := by
    cases mode with
    | any => trivial
    | hashFree => exact HashFree.of_notMem (by decide) .outside
    | tame => exact ⟨rfl, fun w mem => (nothing w mem).elim⟩
  rw [whole]
  refine Quiet.inert mark (Quiet.group rfl (Quiet.inert mark' ?_))
  exact quiet_fragmentOfNodes calm p.nodes admitted 0 tail

theorem mem_placeholderGroups {kind : GroupKind} {index : Nat} {ps : List Placeholder}
    (mem : kind ∈ placeholderGroups index ps) :
    (∃ i, kind = .named (groupName i)) ∨ ∃ p ∈ ps, kind ∈ kinds p.expression := by
  induction ps generalizing index with
  | nil => cases mem
  | cons p ps ih =>
    rw [placeholderGroups, List.mem_append, List.mem_cons] at mem
    rcases mem with (rfl | mem) | mem
    · exact .inl ⟨index, rfl⟩
    · exact .inr ⟨p, List.mem_cons_self, (List.mem_filter.mp mem).1⟩
    · rcases ih mem with made | ⟨q, mem, kind⟩
      · exact .inl made
      · exact .inr ⟨q, List.mem_cons_of_mem p mem, kind⟩

/-- The groups of the program are those of the placeholders and of their constraints. -/
theorem groups_of_ofPattern {mode : Mode} (calm : mode ≠ .any) {p : Pattern} {m : Matcher}
    (h : ofPattern p = .ok m) (admitted : ∀ q ∈ p.placeholders, Admitted mode q.expression) :
    m.program.groups = placeholderGroups 0 p.placeholders := by
  obtain ⟨u, -, h⟩ := bind_eq_ok.mp h
  obtain ⟨program, compiled, h⟩ := bind_eq_ok.mp h
  cases h
  obtain ⟨parsed, read, -, groups⟩ := exists_parsed (compile_eq_ok.mp compiled)
  obtain ⟨s, read, rest, opened⟩ := parse_eq_ok.mp read
  have whole : p.expression =
      ['^'] ++ '(' :: (['?', ':'] ++ (fragmentOfNodes 0 p.nodes ++ [')', '/', '?', '$'])) :=
    expression_eq p
  have mark : Inert ['^'] := List.all_eq_true.mp rfl
  have mark' : Inert ['?', ':'] := List.all_eq_true.mp rfl
  have quiet : Calm mode ⟨p.expression, {}, []⟩ := quiet_expression calm admitted
  have captures : captured p.expression = placeholderGroups 0 p.placeholders := by
    have body := captured_fragmentOfNodes calm p.nodes admitted 0 [')', '/', '?', '$']
    have group : classify (['?', ':'] ++ (fragmentOfNodes 0 p.nodes ++ [')', '/', '?', '$'])) =
        .nonCapturing := rfl
    rw [whole, captured, kinds_inert mark, kinds_group, group, List.filter_cons_of_neg (by decide),
      kinds_inert mark']
    exact body.trans (List.append_nil _)
  obtain ⟨new, opened', taken, understood, -⟩ :=
    ((reads_readExpression mode maxNesting).advances quiet read).groups
  obtain ⟨-, -, -, all⟩ := taken.exists_closed (.inl (Mode.comments_eq_false calm))
  have all : openings p.expression = new.map Prod.snd := by
    rw [show openings p.expression = _ from all, rest, openings_nil, List.append_nil]
  have known : ∀ e ∈ new, classify e.2.tail = e.1 := by
    intro e mem
    rcases understood e mem with ⟨here, -⟩ | veiled
    · exact here
    · have capturing := classify_of_isVeiled veiled
      have seen : GroupKind.capturing ∈ captured p.expression := by
        refine List.mem_filter.mpr ⟨?_, rfl⟩
        rw [kinds, all, List.map_map]
        exact List.mem_map.mpr ⟨e, mem, capturing⟩
      rw [captures] at seen
      rcases mem_placeholderGroups seen with ⟨i, other⟩ | ⟨q, mem, kind⟩
      · cases other
      · exact absurd rfl ((admitted q mem).named _ kind)
  rw [groups, ← captures, captured, kinds, all, opened, opened', List.append_nil,
    List.reverse_reverse, List.map_map]
  exact congrArg _ (List.map_congr_left fun e mem => (known e mem).symm)

end Matcher

end UrlRouting
