import UrlRouting.Proofs.Matcher.Groups
import UrlRouting.Proofs.Matcher.Outline
import UrlRouting.Proofs.Matcher.Restraint

/-!
# The expression of a pattern as it is read

`Compiled` relates the parts of a pattern to the pieces that their expression is read as: one set
for each character of literal text, a numbered group for a placeholder, a loop for an optional part.
The body of a placeholder's group is what its constraint is read as by itself, up to the numbers of
groups.
-/

namespace UrlRouting.Matcher

open Regex

/-! ## Pieces -/

/-- Pieces in front of the first of several alternatives. -/
def attachAll (rs : List Regex) (branches : List (List Regex)) : List (List Regex) :=
  rs.foldr attach branches

/-- The piece for a character of literal text. -/
def single (c : Char) : Regex := set (.single c)

/-- What the parts of a pattern are read as, with the numbers of the groups of their placeholders.
The first placeholder has a given index, and groups are counted from those before the parts to those
behind them, the latest first. -/
inductive Compiled :
    Nat → List GroupKind → List Node → List Regex → List Nat → List GroupKind → Prop
  | nil {i : Nat} {g : List GroupKind} : Compiled i g [] [] [] g
  | literal {i : Nat} {g g' : List GroupKind} {t : Text} {ns : List Node} {rs : List Regex}
    {ms : List Nat} :
    Compiled i g ns rs ms g' → Compiled i g (.literal t :: ns) (t.map single ++ rs) ms g'
  | placeholder {i : Nat} {g new g' : List GroupKind} {q : Placeholder} {parsed : Parsed}
    {r : Regex} {ns : List Node} {rs : List Regex} {ms : List Nat} :
    Regex.parse q.expression = .ok parsed → r.unnumbered = parsed.regex.unnumbered →
    Numbered (g.length + 1) (new ++ .named (groupName i) :: g).length r →
    Compiled (i + 1) (new ++ .named (groupName i) :: g) ns rs ms g' →
    Compiled i g (.placeholder q :: ns) (.group (g.length + 1) r :: rs) ((g.length + 1) :: ms) g'
  | optional {i : Nat} {g g₁ g' : List GroupKind} {children ns : List Node} {cs rs : List Regex}
    {ks ms : List Nat} :
    Compiled i g children cs ks g₁ →
    Compiled (i + (Node.placeholders.ofNodes children).length) g₁ ns rs ms g' →
    Compiled i g (.optional children :: ns) (.loop 0 (some 1) true (sequence cs) :: rs) (ks ++ ms)
      g'

/-- The groups of placeholders stand as the outline of the parts says. -/
theorem Compiled.outline {i : Nat} {g g' : List GroupKind} {ns : List Node} {rs : List Regex}
    {ms : List Nat} (compiled : Compiled i g ns rs ms g') : Outline i g ns rs ms g' := by
  induction compiled with
  | nil => exact .nil
  | literal _ ih =>
    refine .literal (ih.plains fun r mem => ?_)
    obtain ⟨c, -, rfl⟩ := List.mem_map.mp mem
    rfl
  | placeholder _ _ numbered _ ih => exact .placeholder numbered ih
  | optional _ _ ihc ih => exact .optional ihc ih

/-- Pieces from the start of a text to its end, with or without one more slash. -/
def anchored (rs : List Regex) : Regex :=
  sequence [assert .textStart, sequence rs, loop 0 (some 1) true (single '/'), assert .textEnd]

/-! ## Settled parts -/

theorem settled_escapeLiteral {u : Text} (settled : Settled u) (t : Text) :
    Settled (escapeLiteral t ++ u) := by
  induction t with
  | nil => exact settled
  | cons c t ih =>
    rw [escapeLiteral, List.flatMap_cons, List.append_assoc]
    split
    · exact Settled.mark (by decide) _
    next plain =>
      refine Settled.cons (fun mem => plain ?_) ih
      exact List.contains_iff_mem.mpr (special_of_mem (by decide) mem)

theorem settled_fragmentOfNodes {u : Text} (settled : Settled u) (i : Nat) (ns : List Node) :
    Settled (fragmentOfNodes i ns ++ u) := by
  induction ns generalizing i with
  | nil => exact settled
  | cons n ns ih =>
    rw [fragmentOfNodes, List.append_assoc]
    cases n with
    | literal t => exact settled_escapeLiteral (ih _) t
    | placeholder q =>
      rw [fragment, capture, List.append_assoc]
      exact Settled.group (c := 'P') (by decide) _
    | optional children =>
      rw [fragment, List.append_assoc]
      exact Settled.group (c := ':') (by decide) _

/-! ## Literal text -/

variable {body : Option (Reader Regex)} {o : List (GroupKind × Text)}
  {branches : List (List Regex)} {s : Reading}

theorem exists_readPiece {s : Reading} {x : List (List Regex) × Reading}
    (read : readBranches body s = .ok x) : ∃ y, readPiece body s = .ok y := by
  rw [readBranches] at read
  split at read
  next => cases read
  next r s' piece => exact ⟨(r, s'), piece⟩

/-- A piece in front of settled text, with what is ignored behind it. -/
theorem readBranches_settled {s₀ s' : Reading} {r : Regex} (atom : readAtom body s₀ = .ok (r, s'))
    (settled : Settled s'.rest) (shorter : s'.rest.length < s₀.rest.length)
    (read : readBranches body s₀ = .ok (branches, s)) :
    ∃ s₁ branches', s'.skip = .ok s₁ ∧ readBranches body s₁ = .ok (branches', s) ∧
      branches = attach r branches' := by
  obtain ⟨y, piece⟩ := exists_readPiece read
  obtain ⟨z, atom', quantifier⟩ := bind_eq_ok.mp piece
  cases atom.symm.trans atom'
  obtain ⟨s₁, skipped, -⟩ := bind_eq_ok.mp quantifier
  have less := length_skip skipped
  rw [readBranches_piece (readPiece_settled atom settled skipped) (by omega)] at read
  obtain ⟨⟨branches', s'⟩, rest, same⟩ := bind_eq_ok.mp read
  cases same
  exact ⟨s₁, branches', skipped, rest, rfl⟩

/-- A piece in front of settled text, without flags. -/
theorem readBranches_atom {t u : Text} {o' : List (GroupKind × Text)} {r : Regex}
    (atom : readAtom body ⟨t, {}, o⟩ = .ok (r, ⟨u, {}, o'⟩)) (settled : Settled u)
    (shorter : u.length < t.length) (read : readBranches body ⟨t, {}, o⟩ = .ok (branches, s)) :
    ∃ branches', readBranches body ⟨u, {}, o'⟩ = .ok (branches', s) ∧
      branches = attach r branches' := by
  obtain ⟨s₁, branches', skipped, rest, same⟩ := readBranches_settled atom settled shorter read
  cases (skip_settled settled o').symm.trans skipped
  exact ⟨branches', rest, same⟩

theorem readBranches_literal (t : Text) {u : Text} (settled : Settled u) :
    readBranches body ⟨escapeLiteral t ++ u, {}, o⟩ =
      readBranches body ⟨u, {}, o⟩ >>= fun x => .ok (attachAll (t.map single) x.1, x.2) := by
  induction t with
  | nil =>
    change readBranches body ⟨u, {}, o⟩ = _
    cases readBranches body ⟨u, {}, o⟩ <;> rfl
  | cons c t ih =>
    have behind := settled_escapeLiteral settled t
    have piece : ∃ w, escapeLiteral (c :: t) ++ u = w ∧
        readPiece body ⟨w, {}, o⟩ = .ok (single c, ⟨escapeLiteral t ++ u, {}, o⟩) ∧
        (escapeLiteral t ++ u).length < w.length := by
      rw [escapeLiteral, List.flatMap_cons, List.append_assoc]
      split
      next special =>
        refine ⟨_, rfl, ?_, ?_⟩
        · exact readPiece_settled (readAtom_escaped body (List.contains_iff_mem.mp special)
            (skip_settled (.mark (by decide) _) o)) behind (skip_settled behind o)
        · change (escapeLiteral t ++ u).length < (escapeLiteral t ++ u).length + 1 + 1
          omega
      next plain =>
        refine ⟨_, rfl, ?_, ?_⟩
        · have notSpecial : c ∉ specialChars := fun mem => plain (List.contains_iff_mem.mpr mem)
          have first : Settled (c :: (escapeLiteral t ++ u)) :=
            .cons (fun mem => notSpecial (special_of_mem (by decide) mem)) behind
          exact readPiece_settled (readAtom_plain body notSpecial (skip_settled first o)) behind
            (skip_settled behind o)
        · change (escapeLiteral t ++ u).length < (escapeLiteral t ++ u).length + 1
          omega
    obtain ⟨w, rfl, piece, shorter⟩ := piece
    rw [readBranches_piece piece shorter, ih]
    cases readBranches body ⟨u, {}, o⟩ <;> rfl

/-! ## Groups -/

/-- Where a group has been read there is a reader of bodies. -/
theorem exists_body {s₀ : Reading} {f : Flags} {t : Text}
    (skipped : s₀.skip = .ok ⟨'(' :: t, f, o⟩) {x : List (List Regex) × Reading}
    (read : readBranches body s₀ = .ok x) : ∃ b, body = some b := by
  obtain ⟨y, atom⟩ := exists_readAtom read
  cases body with
  | some b => exact ⟨b, rfl⟩
  | none =>
    rw [readAtom, skipped, ok_bind] at atom
    cases atom

theorem attachAll_cons (r : Regex) (rs : List Regex) (branches : List (List Regex)) :
    attachAll (r :: rs) branches = attach r (attachAll rs branches) := rfl

theorem attachAll_nil (rs : List Regex) : attachAll rs [[]] = [rs] := by
  induction rs with
  | nil => rfl
  | cons r rs ih => rw [attachAll_cons, ih, attach]

theorem attachAll_append (rs rs' : List Regex) (branches : List (List Regex)) :
    attachAll (rs ++ rs') branches = attachAll rs (attachAll rs' branches) :=
  List.foldr_append

/-- The group of a placeholder is read as a numbered group around its body. -/
theorem exists_readAtom_capture {s₀ : Reading} {f : Flags} {q : Placeholder} {i : Nat} {u : Text}
    {x : List (List Regex) × Reading} (readers : ∀ b ∈ body, ∃ d, b = readExpression d)
    (skipped : s₀.skip = Reading.skip ⟨capture i q ++ u, f, o⟩)
    (read : readBranches body s₀ = .ok x) :
    ∃ d opening r new s', readAtom body s₀ =
        .ok (.group ((Reading.groups ⟨u, {}, o⟩).length + 1) r, s') ∧
      enclosed (readExpression d)
        ⟨q.expression ++ ')' :: u, f, (.named (groupName i), opening) :: o⟩ = .ok (r, s') ∧
      s'.groups = new ++ .named (groupName i) :: Reading.groups ⟨u, {}, o⟩ ∧
      Numbered ((Reading.groups ⟨u, {}, o⟩).length + 1) s'.groups.length r ∧
      u.length < s₀.rest.length := by
  rw [capture_append] at skipped
  have first : s₀.skip =
      .ok ⟨"(?P<".toList ++ (groupName i ++ '>' :: (q.expression ++ ')' :: u)), f, o⟩ :=
    skipped.trans (skip_of (skipIgnored_group (c := 'P') (by decide) f.extended _) o)
  obtain ⟨b, rfl⟩ := exists_body first read
  obtain ⟨d, rfl⟩ := readers b rfl
  obtain ⟨⟨r', s₂⟩, atom⟩ := exists_readAtom read
  obtain ⟨opening, eq⟩ := readAtom_capture (readExpression d) first
  obtain ⟨⟨r, s'⟩, inside, same⟩ := bind_eq_ok.mp (eq.symm.trans atom)
  cases same
  obtain ⟨s₁, inner, -, final⟩ := enclosed_eq_ok.mp inside
  obtain ⟨new, opened, -⟩ := ((reads_readExpression .any d).advances (Calm.any _) inner).groups
  obtain ⟨-, known⟩ := readExpression_numbers d inner
  have same : s₁.groups = s'.groups := by
    rw [final]
    rfl
  have groups : s₁.groups = (new.reverse.map Prod.fst).filter (·.captures) ++
      .named (groupName i) :: Reading.groups ⟨u, {}, o⟩ := by
    rw [Reading.groups, opened, List.map_append, List.filter_append]
    rfl
  rw [same] at groups known
  have shorter : u.length < s₀.rest.length := by
    have less := length_skip first
    simp only [List.length_append, List.length_cons] at less
    omega
  exact ⟨d, opening, r, _, s', atom, inside, groups, known, shorter⟩

/-- A constraint in the group of its placeholder is read as by itself. The flags behind the group
are those behind the constraint. -/
theorem exists_readAtom_placeholder {q : Placeholder} {parsed : Parsed} {i : Nat} {u : Text}
    {x : List (List Regex) × Reading} (readers : ∀ b ∈ body, ∃ d, b = readExpression d)
    (alone : Regex.parse q.expression = .ok parsed) (ended : Reading.Ended ⟨q.expression, {}, []⟩)
    (read : readBranches body ⟨capture i q ++ u, {}, o⟩ = .ok x) :
    ∃ r new o', r.unnumbered = parsed.regex.unnumbered ∧
      Reading.groups ⟨u, {}, o'⟩ =
        new ++ .named (groupName i) :: Reading.groups ⟨u, {}, o⟩ ∧
      Numbered ((Reading.groups ⟨u, {}, o⟩).length + 1) (Reading.groups ⟨u, {}, o'⟩).length r ∧
      readAtom body ⟨capture i q ++ u, {}, o⟩ =
        .ok (.group ((Reading.groups ⟨u, {}, o⟩).length + 1) r,
          ⟨u, flagsBehind q.expression, o'⟩) := by
  obtain ⟨d, opening, r, new, s', atom, inside, groups, known, -⟩ :=
    exists_readAtom_capture readers rfl read
  have fits : Fits .any u ⟨q.expression, {}, []⟩ := ⟨Calm.any _, fun _ _ => ended⟩
  obtain ⟨s₁, -, -, rfl, alike, flags⟩ := enclosed_alone alone fits inside
  rw [flags] at atom groups known
  exact ⟨r, new, s₁.opened, alike, groups, known, atom⟩

theorem take_eq_of_head {s : Reading} {c : Char} (mark : c ∈ ['?', '*', '+', '\x7b'])
    (first : ∀ c ∈ s.rest.head?, c ∉ ['?', '*', '+', '\x7b']) : s.take c = (false, s) := by
  obtain ⟨t, f, o⟩ := s
  cases t with
  | nil => rfl
  | cons d t =>
    have ne : d ≠ c := by
      rintro rfl
      exact first d rfl mark
    exact if_neg ne

/-- A question mark in front of settled text is a quantifier. -/
theorem quantified_mark {inner : Regex} {f : Flags} {u : Text} (settled : Settled u) :
    quantified inner ⟨'?' :: u, f, o⟩ =
      if inner.repeatable = false then .error .nothingToRepeat
      else Reading.skip ⟨u, f, o⟩ >>= fun s₁ =>
        .ok (.loop 0 (some 1) (false == f.swapGreed) inner, s₁) := by
  rw [quantified, skip_mark, ok_bind]
  change (if inner.repeatable = false then _ else _) = _
  split
  next => rfl
  next =>
    rw [if_neg (by decide), repeated]
    cases skipped : Reading.skip ⟨u, f, o⟩ with
    | error e => rfl
    | ok s₁ =>
      have first := head_skip settled skipped
      have same : s₁.flags = f := (skip_moves (Calm.any _) skipped).flags
      rw [ok_bind, ok_bind]
      dsimp only
      rw [take_eq_of_head (by decide) first]
      dsimp only
      rw [take_eq_of_head (by decide) first, ← same]
      rfl

theorem quantified_optional {inner : Regex} {f : Flags} {u : Text} (settled : Settled u)
    {x : Regex × Reading} (h : quantified inner ⟨'?' :: u, f, o⟩ = .ok x) :
    ∃ s₁, Reading.skip ⟨u, f, o⟩ = .ok s₁ ∧
      x = (.loop 0 (some 1) (false == f.swapGreed) inner, s₁) := by
  rw [quantified_mark settled] at h
  split at h
  next => cases h
  next =>
    obtain ⟨s₁, skipped, same⟩ := bind_eq_ok.mp h
    cases same
    exact ⟨s₁, skipped, rfl⟩

/-- A piece with a question mark in front of settled text. -/
theorem readBranches_optional {s₀ : Reading} {u : Text} {f : Flags} {o' : List (GroupKind × Text)}
    {r : Regex} (atom : readAtom body s₀ = .ok (r, ⟨'?' :: u, f, o'⟩)) (settled : Settled u)
    (shorter : u.length < s₀.rest.length) (read : readBranches body s₀ = .ok (branches, s)) :
    ∃ s₁ branches', Reading.skip ⟨u, f, o'⟩ = .ok s₁ ∧ readBranches body s₁ = .ok (branches', s) ∧
      branches = attach (loop 0 (some 1) (false == f.swapGreed) r) branches' := by
  obtain ⟨x, piece⟩ := exists_readPiece read
  obtain ⟨y, atom', quantifier⟩ := bind_eq_ok.mp piece
  cases atom.symm.trans atom'
  obtain ⟨s₁, skipped, rfl⟩ := quantified_optional settled quantifier
  have less : s₁.rest.length ≤ u.length := length_skip skipped
  rw [readBranches_piece piece (by omega)] at read
  obtain ⟨⟨branches', s'⟩, rest, same⟩ := bind_eq_ok.mp read
  cases same
  exact ⟨s₁, branches', skipped, rest, rfl⟩

/-- At the end of a group, or of everything, alternatives end. -/
theorem readBranches_end {s : Reading} (h : ∀ c ∈ s.rest.head?, c = ')') :
    readBranches body s = .ok ([[]], s) := by
  rw [readBranches_stop (readPiece_end body h) (Nat.lt_irrefl _)]
  split
  next rest =>
    rw [rest] at h
    exact absurd (h '|' rfl) (by decide)
  next => rfl

/-- A piece in front of the end of a group, under any flags. -/
theorem readBranches_last {t u : Text} {f : Flags} {o' : List (GroupKind × Text)} {r : Regex}
    (atom : readAtom body ⟨t, {}, o⟩ = .ok (r, ⟨')' :: u, f, o'⟩))
    (shorter : (')' :: u).length < t.length)
    (read : readBranches body ⟨t, {}, o⟩ = .ok (branches, s)) :
    branches = [[r]] ∧ s = ⟨')' :: u, f, o'⟩ := by
  have skip : Reading.skip ⟨')' :: u, f, o'⟩ = .ok ⟨')' :: u, f, o'⟩ := by
    simp [Reading.skip, Reading.skip?, skipIgnored]
  have piece : readPiece body ⟨t, {}, o⟩ = .ok (r, ⟨')' :: u, f, o'⟩) := by
    simp only [readPiece, atom, quantified, skip, ok_bind]
    rfl
  rw [readBranches_piece piece shorter, readBranches_end (by simp)] at read
  cases read
  exact ⟨rfl, rfl⟩

/-- A group without a name is read as the alternatives of its body. -/
theorem readAtom_unnamed {s₀ s' : Reading} {f : Flags} {d : Nat} {t : Text} {r : Regex}
    (skipped : s₀.skip = .ok ⟨"(?:".toList ++ t, f, o⟩)
    (atom : readAtom (some (readExpression d)) s₀ = .ok (r, s')) :
    ∃ opening body branches s, (∀ b ∈ body, ∃ d, b = readExpression d) ∧
      readBranches body ⟨t, f, (.nonCapturing, opening) :: o⟩ = .ok (branches, s) ∧
      s.rest = ')' :: s'.rest ∧ s' = ⟨s'.rest, f, s.opened⟩ ∧
      r = alternatives (branches.map sequence) := by
  obtain ⟨opening, eq⟩ := readAtom_optional (readExpression d) skipped
  obtain ⟨⟨r', s₁⟩, inside, same⟩ := bind_eq_ok.mp (eq.symm.trans atom)
  cases same
  obtain ⟨s₀, inner, close, final⟩ := enclosed_eq_ok.mp inside
  obtain ⟨body, readers, eq'⟩ := readExpression_eq d
  obtain ⟨⟨branches, s⟩, first, same⟩ := bind_eq_ok.mp ((eq' _).symm.trans inner)
  cases same
  refine ⟨opening, body, branches, s, readers, first, close, ?_, rfl⟩
  rw [final]

/-- The children of an optional part are read in a group. If the reader gets to its end, the part is
read as a loop around what stands in it. -/
theorem readBranches_children {s₀ : Reading} {f : Flags} {i : Nat} {children : List Node} {v : Text}
    (readers : ∀ b ∈ body, ∃ d, b = readExpression d) (settled : Settled v)
    (skipped : s₀.skip = Reading.skip ⟨fragment i (.optional children) ++ v, f, o⟩)
    (read : readBranches body s₀ = .ok (branches, s)) :
    ∃ opening body' branches₀ s₁, (∀ b ∈ body', ∃ d, b = readExpression d) ∧
      readBranches body' ⟨fragmentOfNodes i children ++ ')' :: '?' :: v, f,
        (.nonCapturing, opening) :: o⟩ = .ok (branches₀, s₁) ∧
      ∀ cs f₁ o₁, branches₀ = [cs] → s₁ = ⟨')' :: '?' :: v, f₁, o₁⟩ →
        ∃ s₂ branches', Reading.skip ⟨v, f, o₁⟩ = .ok s₂ ∧
          readBranches body s₂ = .ok (branches', s) ∧
          branches = attach (loop 0 (some 1) (false == f.swapGreed) (sequence cs)) branches' := by
  rw [optional_append] at skipped
  have first : s₀.skip =
      .ok ⟨"(?:".toList ++ (fragmentOfNodes i children ++ ')' :: '?' :: v), f, o⟩ :=
    skipped.trans (skip_of (skipIgnored_group (c := ':') (by decide) f.extended _) o)
  obtain ⟨b, rfl⟩ := exists_body first read
  obtain ⟨d, rfl⟩ := readers b rfl
  obtain ⟨⟨r, s'⟩, atom⟩ := exists_readAtom read
  obtain ⟨opening, body', branches₀, s₁, readers', inner, close, same, rfl⟩ :=
    readAtom_unnamed first atom
  refine ⟨opening, body', branches₀, s₁, readers', inner, ?_⟩
  rintro cs f₁ o₁ rfl rfl
  obtain rfl : s' = ⟨'?' :: v, f, o₁⟩ := by rw [same, ← (List.cons.inj close).2]
  have shorter : v.length < s₀.rest.length := by
    have less := length_skip first
    simp only [List.length_append, List.length_cons] at less
    omega
  exact readBranches_optional atom settled shorter read

/-! ## Parts -/

/-- The parts of a pattern, in a group, are read as the pieces that they compile to. -/
theorem exists_compiled {body : Option (Reader Regex)} {o : List (GroupKind × Text)}
    {branches : List (List Regex)} {s : Reading} (ns : List Node) (i : Nat) {u : Text}
    (readers : ∀ b ∈ body, ∃ d, b = readExpression d)
    (enclosable : ∀ q ∈ Node.placeholders.ofNodes ns, Enclosable q.expression)
    (restrained : Node.RestrainedList ns)
    (read : readBranches body ⟨fragmentOfNodes i ns ++ ')' :: u, {}, o⟩ = .ok (branches, s)) :
    ∃ rs ms f o', Compiled i (Reading.groups ⟨u, {}, o⟩) ns rs ms (Reading.groups ⟨u, {}, o'⟩) ∧
      s = ⟨')' :: u, f, o'⟩ ∧ branches = [rs] := by
  have settled : Settled (')' :: u) := Settled.mark (by decide) u
  match ns with
  | [] =>
    rw [fragmentOfNodes, List.nil_append, readBranches_end (by simp)] at read
    cases read
    exact ⟨[], [], {}, o, .nil, rfl, rfl⟩
  | .literal t :: ns =>
    rw [fragmentOfNodes, fragment, List.append_assoc,
      readBranches_literal t (settled_fragmentOfNodes settled _ ns)] at read
    obtain ⟨⟨branches₁, s₁⟩, rest, same⟩ := bind_eq_ok.mp read
    cases same
    obtain ⟨rs, ms, f, o', compiled, last, rfl⟩ :=
      exists_compiled ns i readers enclosable restrained.2 rest
    refine ⟨_, ms, f, o', .literal compiled, last, ?_⟩
    rw [← attachAll_nil rs, ← attachAll_append, attachAll_nil]
  | .placeholder q :: ns =>
    rw [fragmentOfNodes, fragment, List.append_assoc] at read
    obtain ⟨⟨parsed, alone⟩, ended⟩ := enclosable q List.mem_cons_self
    obtain ⟨r, new, o₁, alike, groups, numbered, atom⟩ :=
      exists_readAtom_placeholder readers alone ended read
    have shorter := length_lt_capture i q (fragmentOfNodes (i + 1) ns ++ ')' :: u)
    have opened : Reading.groups ⟨u, {}, o₁⟩ =
        new ++ .named (groupName i) :: Reading.groups ⟨u, {}, o⟩ := groups
    have counted : Numbered ((Reading.groups ⟨u, {}, o⟩).length + 1)
        (new ++ .named (groupName i) :: Reading.groups ⟨u, {}, o⟩).length r := by
      rw [← opened]
      exact numbered
    rcases restrained.1 with none | plain
    · obtain rfl := List.isEmpty_iff.mp none
      obtain ⟨rfl, rfl⟩ := readBranches_last atom shorter read
      have compiled := Compiled.placeholder alone alike counted .nil
      rw [← opened] at compiled
      exact ⟨_, _, _, o₁, compiled, rfl, rfl⟩
    · rw [plain] at atom
      obtain ⟨branches', rest, rfl⟩ :=
        readBranches_atom atom (settled_fragmentOfNodes settled _ ns) shorter read
      obtain ⟨rs, ms, f, o', compiled, last, rfl⟩ :=
        exists_compiled ns (i + 1) readers
          (fun q mem => enclosable q (List.mem_cons_of_mem _ mem)) restrained.2 rest
      have compiled : Compiled (i + 1) (Reading.groups ⟨u, {}, o₁⟩) ns rs ms _ := compiled
      rw [opened] at compiled
      exact ⟨_, _, f, o', .placeholder alone alike counted compiled, last, rfl⟩
  | .optional children :: ns =>
    rw [fragmentOfNodes, List.append_assoc] at read
    have settled' := settled_fragmentOfNodes settled
      (i + (Node.optional children).placeholders.length) ns
    obtain ⟨opening, body', branches₀, s₀, readers', first, loop⟩ :=
      readBranches_children readers settled' rfl read
    obtain ⟨cs, ks, f₁, o₁, compiled, last, single⟩ := exists_compiled children i readers'
      (fun q mem => enclosable q (List.mem_append_left _ mem)) restrained.1 first
    obtain ⟨s₁, branches₁, skipped, rest, rfl⟩ := loop cs f₁ o₁ single last
    cases (skip_settled settled' o₁).symm.trans skipped
    obtain ⟨rs, ms, f, o', compiled', last, rfl⟩ :=
      exists_compiled ns (i + (Node.optional children).placeholders.length) readers
        (fun q mem => enclosable q (List.mem_append_right _ mem)) restrained.2 rest
    exact ⟨_, _, f, o', .optional compiled compiled', last, rfl⟩
termination_by sizeOf ns

/-- The parts of a pattern are read in a group. If the reader gets to its end, the expression of the
pattern is read as what stands in it, anchored. -/
theorem exists_readBranches_of_ofPattern {p : Pattern} {m : Matcher} (h : ofPattern p = .ok m) :
    ∃ body opening branches s, (∀ b ∈ body, ∃ d, b = readExpression d) ∧
      readBranches body ⟨fragmentOfNodes 0 p.nodes ++ ')' :: '/' :: '?' :: ['$'], {},
        [(.nonCapturing, opening)]⟩ = .ok (branches, s) ∧
      ∀ rs f o, branches = [rs] → s = ⟨')' :: '/' :: '?' :: ['$'], f, o⟩ →
        m.program.regex = anchored rs ∧
          m.program.groups.reverse = Reading.groups ⟨[], {}, o⟩ := by
  obtain ⟨u, -, h⟩ := bind_eq_ok.mp h
  obtain ⟨program, compiled, h⟩ := bind_eq_ok.mp h
  cases h
  obtain ⟨parsed, read, regex, groups⟩ := exists_parsed (compile_eq_ok.mp compiled)
  obtain ⟨s, read, rest, opened⟩ := parse_eq_ok.mp read
  obtain ⟨body, readers, eq⟩ := readExpression_eq maxNesting
  obtain ⟨⟨branches, s'⟩, read, same⟩ := bind_eq_ok.mp ((eq _).symm.trans read)
  rw [expression_eq] at read
  have opening :
      Settled ("(?:".toList ++ (fragmentOfNodes 0 p.nodes ++ ')' :: '/' :: '?' :: ['$'])) :=
    .group (c := ':') (by decide) _
  obtain ⟨branches₁, group, rfl⟩ := readBranches_atom (readAtom_textStart body _ []) opening
    (Nat.lt_succ_self _) read
  obtain ⟨b, rfl⟩ := exists_body (skip_settled opening []) group
  obtain ⟨d, rfl⟩ := readers b rfl
  obtain ⟨⟨r, s₁⟩, atom⟩ := exists_readAtom group
  obtain ⟨opening, body', branches₀, s₀, readers', first, close, shape, rfl⟩ :=
    readAtom_unnamed (skip_settled opening []) atom
  refine ⟨body', opening, branches₀, s₀, readers', first, ?_⟩
  rintro rs f o₁ rfl rfl
  obtain rfl : s₁ = ⟨'/' :: '?' :: ['$'], {}, o₁⟩ := by rw [shape, ← (List.cons.inj close).2]
  obtain ⟨branches₂, slash, rfl⟩ := readBranches_atom atom (.mark (by decide) _) (by simp) group
  have first := readAtom_plain (some (readExpression d)) (by decide)
    (skip_settled (.mark (c := '/') (by decide) ('?' :: ['$'])) o₁)
  have ends : Settled ['$'] := .mark (by decide) []
  obtain ⟨s₂, branches₃, skipped, dollar, rfl⟩ :=
    readBranches_optional first ends (by simp) slash
  cases (skip_settled ends o₁).symm.trans skipped
  have textEnd : readAtom (some (readExpression d)) ⟨['$'], {}, o₁⟩ =
      .ok (assert .textEnd, ⟨[], {}, o₁⟩) := by
    rw [readAtom, skip_settled ends, ok_bind]
    rfl
  obtain ⟨branches₄, last, rfl⟩ := readBranches_atom textEnd Settled.nil (by simp) dollar
  rw [readBranches_end (by simp)] at last
  cases last
  have final : s = ⟨[], {}, o₁⟩ := congrArg Prod.snd (Except.ok.inj same).symm
  have whole : parsed.regex = _ := congrArg Prod.fst (Except.ok.inj same).symm
  refine ⟨regex.trans whole, ?_⟩
  rw [groups, opened, final, List.map_reverse, List.filter_reverse, List.reverse_reverse]
  rfl

/-- What the expression of a pattern is read as. -/
theorem exists_compiled_of_ofPattern {p : Pattern} {m : Matcher} (h : ofPattern p = .ok m)
    (enclosable : ∀ q ∈ p.placeholders, Enclosable q.expression)
    (restrained : Node.RestrainedList p.nodes) :
    ∃ rs ms, Compiled 0 [] p.nodes rs ms m.program.groups.reverse ∧
      m.program.regex = anchored rs := by
  obtain ⟨body, opening, branches, s, readers, read, whole⟩ := exists_readBranches_of_ofPattern h
  obtain ⟨rs, ms, f, o, compiled, last, single⟩ :=
    exists_compiled p.nodes 0 readers enclosable restrained read
  obtain ⟨regex, groups⟩ := whole rs f o single last
  refine ⟨rs, ms, ?_, regex⟩
  rw [groups]
  exact compiled

end UrlRouting.Matcher
