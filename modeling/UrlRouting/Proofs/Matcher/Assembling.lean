import UrlRouting.Proofs.Matcher.Reading
import UrlRouting.Proofs.Regex.Depth
import UrlRouting.Proofs.Regex.Lasting

/-!
# The expression of a pattern can be read

A constraint that is an expression by itself, without number signs and with no flags left behind it,
is one in any group. The parts of a pattern are read one after the other: each of them ends in front
of what begins no quantifier, and the question mark behind an optional part has something to repeat
if the part has an expression. So nothing but the depth of its groups makes the expression of a
pattern fail (`exists_parse_expression`).
-/

namespace UrlRouting

namespace Node

mutual

/-- No optional part has an empty expression. -/
def Filled : Node → Prop
  | literal _ | placeholder _ => True
  | optional children => Matcher.fragmentOfNodes 0 children ≠ [] ∧ FilledList children

/-- This is so in each part of a list. -/
def FilledList : List Node → Prop
  | [] => True
  | n :: ns => n.Filled ∧ FilledList ns

end

end Node

namespace Matcher

open Regex

/-! ## Empty expressions -/

theorem escapeLiteral_eq_nil {t : Text} : escapeLiteral t = [] ↔ t = [] := by
  cases t with
  | nil => exact ⟨fun _ => rfl, fun _ => rfl⟩
  | cons c t =>
    rw [escapeLiteral, List.flatMap_cons]
    split <;> simp

theorem fragment_eq_nil {i : Nat} {n : Node} : fragment i n = [] ↔ n = .literal [] := by
  cases n with
  | literal t =>
    rw [fragment, escapeLiteral_eq_nil]
    simp
  | placeholder q => simp [fragment, capture]
  | optional children => simp [fragment]

/-- Only empty literal text has an empty expression, whatever the index of the first placeholder. -/
theorem fragmentOfNodes_eq_nil {i : Nat} {ns : List Node} :
    fragmentOfNodes i ns = [] ↔ ∀ n ∈ ns, n = .literal [] := by
  induction ns generalizing i with
  | nil => exact ⟨fun _ => List.forall_mem_nil _, fun _ => rfl⟩
  | cons n ns ih =>
    rw [fragmentOfNodes, List.append_eq_nil_iff, fragment_eq_nil, ih, List.forall_mem_cons]

/-! ## Results but for the depth -/

/-- A reader gives a result of a kind unless groups are nested too deep for it. -/
def Gives {α : Type} (x : Except SyntaxError α) (P : α → Prop) : Prop :=
  x = .error .nestingTooDeep ∨ ∃ a, x = .ok a ∧ P a

namespace Gives

variable {α β : Type} {x : Except SyntaxError α} {P : α → Prop}

theorem ok {a : α} (h : P a) : Gives (.ok a) P := .inr ⟨a, rfl, h⟩

theorem bind {R : β → Prop} {f : α → Except SyntaxError β} (first : Gives x P)
    (next : ∀ a, P a → Gives (f a) R) : Gives (x >>= f) R := by
  rcases first with deep | ⟨a, rfl, holds⟩
  · exact .inl (by rw [deep]; rfl)
  · exact next a holds

theorem imp {Q : α → Prop} (gives : Gives x P) (h : ∀ a, P a → Q a) : Gives x Q := by
  rcases gives with deep | ⟨a, rfl, holds⟩
  · exact .inl deep
  · exact .ok (h a holds)

theorem exists_ok (gives : Gives x P) (notDeep : NotDeep x) : ∃ a, x = .ok a ∧ P a := by
  rcases gives with deep | result
  · exact absurd deep notDeep
  · exact result

end Gives

/-! ## Constraints -/

/-- A constraint that can be placed in any group: it is an expression without number signs that
leaves no flags in force. -/
structure Ready (c : Text) : Prop where
  admitted : Admitted .hashFree c
  flags : flagsBehind c = {}

theorem Ready.default : Ready defaultConstraint := by
  obtain ⟨parsed, alone, -⟩ := parse_defaultConstraint
  exact ⟨.default .hashFree, flagsBehind_of_tame alone (Admitted.default .tame).quiet⟩

/-- A constraint in which no group sets flags and none captures without a name. -/
theorem Ready.of_parse {c : Text} {parsed : Parsed} (alone : Regex.parse c = .ok parsed)
    (hash : '#' ∉ c) (uncaptured : Constraint.firstCapturing? c = none)
    (plain : ∀ w ∈ openings c, setsFlags w = false) : Ready c := by
  have quiet : Quiet .hashFree c := HashFree.of_notMem hash .outside
  have named : ∀ kind ∈ Constraint.kinds c, kind ≠ .capturing := fun kind mem =>
    Constraint.not_capturing_of_mem_kinds uncaptured mem
  have lasting : Lasting c := by
    intro w mem
    refine ⟨plain w mem, Bool.eq_false_iff.mpr fun veiled => ?_⟩
    exact named _ (List.mem_map_of_mem mem) (classify_of_isVeiled veiled)
  obtain ⟨last, read, -⟩ := parse_eq_ok.mp alone
  refine ⟨⟨⟨parsed, alone⟩, quiet, named⟩, ?_⟩
  rw [flagsBehind_eq read]
  exact flags_of_readExpression maxNesting _ _ _ quiet lasting read

/-- The group of a constraint ends where the constraint ends. -/
theorem Ready.enclosed {c k : Text} (ready : Ready c) (quiet : Quiet .hashFree (')' :: k))
    (d : Nat) (o : List (GroupKind × Text)) :
    Gives (enclosed (readExpression d) ⟨c ++ ')' :: k, {}, o⟩)
      fun x => ∃ o', x.2 = ⟨k, {}, o'⟩ := by
  obtain ⟨parsed, alone⟩ := ready.admitted.parses
  obtain ⟨last, read, rest, -⟩ := parse_eq_ok.mp alone
  have fits : Fits .hashFree k ⟨c, {}, []⟩ := ⟨ready.admitted.quiet, fun any => by cases any⟩
  have follows : Follows k (Reading.groups ⟨c ++ ')' :: k, {}, o⟩) ⟨c, {}, []⟩
      ⟨c ++ ')' :: k, {}, o⟩ := ⟨rfl, rfl, .inl rfl⟩
  rcases readExpression_copies maxNesting d _ _ _ fits follows read with
    deep | ⟨r, t, inner, -, f⟩
  · exact .inl (by rw [Regex.enclosed, deep]; rfl)
  -- The reader does not run over the closing parenthesis, because the constraint is balanced.
  have ends : t.rest = ')' :: k := by
    rcases f.rest with more | ⟨-, nothing⟩
    · rw [more, rest]
      rfl
    · have calm : Calm .hashFree ⟨c ++ ')' :: k, {}, o⟩ :=
        Quiet.append (ready.admitted.closed (by decide)).1 ready.admitted.quiet quiet
      obtain ⟨x, whole, balanced⟩ :=
        ((reads_readExpression .hashFree d).advances calm inner).passes rfl
      have whole : c ++ ')' :: k = x ++ t.rest := whole
      have closes := (ready.admitted.balanced rfl).behind 0 (')' :: k)
      rw [whole, nothing, balanced.behind] at closes
      cases closes
  have final : Regex.enclosed (readExpression d) ⟨c ++ ')' :: k, {}, o⟩ =
      .ok (r, { t with rest := k }) := enclosed_eq_ok.mpr ⟨t, inner, ends, rfl⟩
  refine .inr ⟨_, final, t.opened, ?_⟩
  rw [f.flags, ← flagsBehind_eq read, ready.flags]

/-! ## Pieces -/

variable {body : Option (Reader Regex)} {t u v e : Text} {o : List (GroupKind × Text)}
  {K : Regex → Prop}

/-- An expression of a kind has been read up to a text, and no flags are in force there. -/
def UpTo (v : Text) (K : Regex → Prop) (x : Regex × Reading) : Prop :=
  K x.1 ∧ ∃ o', x.2 = ⟨v, {}, o'⟩

/-- An atom in front of settled text is a piece. -/
theorem Gives.settled (settled : Settled v)
    (atom : Gives (readAtom body ⟨t, {}, o⟩) (UpTo v K)) :
    Gives (readPiece body ⟨t, {}, o⟩) (UpTo v K) := by
  refine atom.bind fun x read => ?_
  obtain ⟨r, s⟩ := x
  obtain ⟨kind, o', rfl⟩ := read
  refine .inr ⟨_, ?_, kind, o', rfl⟩
  exact quantified_settled settled (skip_settled settled o') r

/-- A question mark repeats what may be repeated. -/
theorem Gives.optional (settled : Settled v)
    (atom : Gives (readAtom body ⟨t, {}, o⟩) (UpTo ('?' :: v) (·.repeatable = true))) :
    Gives (readPiece body ⟨t, {}, o⟩) (UpTo v (·.repeatable = true)) := by
  refine atom.bind fun x read => ?_
  obtain ⟨r, s⟩ := x
  obtain ⟨repeatable, o', rfl⟩ := read
  refine .inr ⟨(loop 0 (some 1) true r, ⟨v, {}, o'⟩), ?_, rfl, o', rfl⟩
  dsimp only
  rw [quantified_mark settled, if_neg (by simp [repeatable]), skip_settled settled]
  rfl

/-- Pieces are read one after the other. -/
theorem Gives.piece {P Q : List (List Regex) × Reading → Prop}
    (piece : Gives (readPiece body ⟨t, {}, o⟩) (UpTo v K)) (shorter : v.length < t.length)
    (behind : ∀ o', Gives (readBranches body ⟨v, {}, o'⟩) P)
    (join : ∀ r x, K r → P x → Q (attach r x.1, x.2)) :
    Gives (readBranches body ⟨t, {}, o⟩) Q := by
  rcases piece with deep | ⟨⟨r, s⟩, piece, kind, o', rfl⟩
  · left
    rw [readBranches, deep]
  · rw [readBranches_piece piece shorter]
    exact (behind o').bind fun x read => .ok (join r x kind read)

/-! ## Rows of pieces -/

theorem repeatable_join {r : Regex} (first : r.repeatable = true) (rs : List Regex) :
    (sequence.join r rs).repeatable = true := by
  cases rs with
  | nil => exact first
  | cons r' rs => rfl

/-- Pieces that may be repeated may be repeated together, if there are any. -/
theorem repeatable_sequence {rs : List Regex} (some : rs ≠ [])
    (all : ∀ r ∈ rs, r.repeatable = true) : (sequence rs).repeatable = true := by
  have visible : rs.filter (· ≠ empty) = rs := by
    refine List.filter_eq_self.mpr fun r mem => ?_
    have repeatable := all r mem
    cases r <;> first | rfl | cases repeatable
  rw [Regex.sequence, visible]
  cases rs with
  | nil => exact absurd rfl some
  | cons r rs => exact repeatable_join (all r List.mem_cons_self) rs

/-- The expression of some parts has been read up to the parenthesis behind it, as pieces that may be
repeated. If it is not empty there are pieces, so that a question mark may follow the group. -/
def RowRead (e u : Text) (x : List (List Regex) × Reading) : Prop :=
  ∃ rs o', x = ([rs], ⟨')' :: u, {}, o'⟩) ∧ (∀ r ∈ rs, r.repeatable = true) ∧
    (e ≠ [] → rs ≠ [])

theorem RowRead.cons {r : Regex} {x : List (List Regex) × Reading} (w : Text)
    (repeatable : r.repeatable = true) (read : RowRead e u x) :
    RowRead (w ++ e) u (attach r x.1, x.2) := by
  obtain ⟨rs, o', rfl, all, -⟩ := read
  refine ⟨r :: rs, o', rfl, ?_, fun _ => by simp⟩
  exact List.forall_mem_cons.mpr ⟨repeatable, all⟩

theorem RowRead.literal {x : List (List Regex) × Reading} (t : Text) (read : RowRead e u x) :
    RowRead (escapeLiteral t ++ e) u (attachAll (t.map single) x.1, x.2) := by
  obtain ⟨rs, o', rfl, all, some⟩ := read
  refine ⟨t.map single ++ rs, o', ?_, fun r mem => ?_, fun visible => ?_⟩
  · rw [← attachAll_nil rs, ← attachAll_append, attachAll_nil]
  · rcases List.mem_append.mp mem with mem | mem
    · obtain ⟨c, -, rfl⟩ := List.mem_map.mp mem
      rfl
    · exact all r mem
  · cases t with
    | nil => exact some visible
    | cons c t => simp

/-! ## Groups -/

theorem readAtom_none (settled : Settled ('(' :: t)) :
    readAtom none ⟨'(' :: t, {}, o⟩ = .error .nestingTooDeep := by
  rw [readAtom, skip_settled settled, ok_bind]
  rfl

/-- The group of a placeholder can be read. -/
theorem gives_capture {q : Placeholder} {i : Nat}
    (readers : ∀ b ∈ body, ∃ d, b = readExpression d) (ready : Ready q.expression)
    (quiet : Quiet .hashFree (')' :: v)) :
    Gives (readAtom body ⟨capture i q ++ v, {}, o⟩) (UpTo v (·.repeatable = true)) := by
  have settled : Settled ("(?P<".toList ++ (groupName i ++ '>' :: (q.expression ++ ')' :: v))) :=
    .group (c := 'P') (by decide) _
  rw [capture_append]
  cases body with
  | none => exact .inl (readAtom_none settled)
  | some b =>
    obtain ⟨d, rfl⟩ := readers b rfl
    obtain ⟨opening, eq⟩ := readAtom_capture (readExpression d) (skip_settled settled o)
    rw [eq]
    exact (ready.enclosed quiet d _).bind fun x ends => .ok ⟨rfl, ends⟩

/-- A group without a name can be read if what stands in it can. -/
theorem gives_unnamed (readers : ∀ b ∈ body, ∃ d, b = readExpression d)
    (inside : ∀ (body : Option (Reader Regex)) (o : List (GroupKind × Text)),
      (∀ b ∈ body, ∃ d, b = readExpression d) →
        Gives (readBranches body ⟨t, {}, o⟩) (RowRead e v)) :
    Gives (readAtom body ⟨"(?:".toList ++ t, {}, o⟩)
      (UpTo v fun r => e ≠ [] → r.repeatable = true) := by
  have settled : Settled ("(?:".toList ++ t) := .group (c := ':') (by decide) t
  cases body with
  | none => exact .inl (readAtom_none settled)
  | some b =>
    obtain ⟨d, rfl⟩ := readers b rfl
    obtain ⟨opening, eq⟩ := readAtom_optional (readExpression d) (skip_settled settled o)
    obtain ⟨body', readers', eq'⟩ := readExpression_eq d
    rw [eq, enclosed, eq']
    rcases inside body' _ readers' with deep | ⟨x, read, rs, o', rfl, all, some⟩
    · exact .inl (by rw [deep]; rfl)
    · rw [read]
      exact .ok ⟨fun visible => repeatable_sequence (some visible) all, o', rfl⟩

/-! ## Parts -/

/-- The parts of a pattern can be read in a group. -/
theorem gives_fragmentOfNodes {body : Option (Reader Regex)} {o : List (GroupKind × Text)}
    (ns : List Node) (i : Nat) {u : Text} (readers : ∀ b ∈ body, ∃ d, b = readExpression d)
    (ready : ∀ q ∈ Node.placeholders.ofNodes ns, Ready q.expression)
    (filled : Node.FilledList ns) (quiet : Quiet .hashFree (')' :: u)) :
    Gives (readBranches body ⟨fragmentOfNodes i ns ++ ')' :: u, {}, o⟩)
      (RowRead (fragmentOfNodes i ns) u) := by
  have settled : Settled (')' :: u) := .mark (by decide) u
  have plain : Mode.hashFree ≠ .any := by decide
  match ns with
  | [] =>
    rw [fragmentOfNodes, List.nil_append, readBranches_end (by simp)]
    exact .ok ⟨[], o, rfl, List.forall_mem_nil _, fun some => absurd rfl some⟩
  | .literal t :: ns =>
    rw [fragmentOfNodes, fragment, List.append_assoc,
      readBranches_literal t (settled_fragmentOfNodes settled _ ns)]
    exact (gives_fragmentOfNodes ns _ readers ready filled.2 quiet).bind fun x read =>
      .ok (read.literal t)
  | .placeholder q :: ns =>
    rw [fragmentOfNodes, fragment, List.append_assoc]
    have rest : ∀ q' ∈ Node.placeholders.ofNodes ns, Ready q'.expression :=
      fun q' mem => ready q' (List.mem_cons_of_mem _ mem)
    have behind := (quiet_fragmentOfNodes plain ns (fun q mem => (rest q mem).admitted)
      (i + (Node.placeholder q).placeholders.length) quiet).close
    have atom := gives_capture (o := o) (i := i) readers (ready q List.mem_cons_self) behind
    exact (atom.settled (settled_fragmentOfNodes settled _ ns)).piece (length_lt_capture i q _)
      (fun o' => gives_fragmentOfNodes ns _ readers rest filled.2 quiet)
      fun r x repeatable read => read.cons _ repeatable
  | .optional children :: ns =>
    rw [fragmentOfNodes, List.append_assoc]
    have inside : ∀ q ∈ Node.placeholders.ofNodes children, Ready q.expression :=
      fun q mem => ready q (List.mem_append_left _ mem)
    have rest : ∀ q ∈ Node.placeholders.ofNodes ns, Ready q.expression :=
      fun q mem => ready q (List.mem_append_right _ mem)
    have settled' := settled_fragmentOfNodes settled
      (i + (Node.optional children).placeholders.length) ns
    have closing := (quiet_fragmentOfNodes plain ns (fun q mem => (rest q mem).admitted)
      (i + (Node.optional children).placeholders.length) quiet).closeOptional
    rw [optional_append]
    obtain ⟨visible, filled'⟩ := filled.1
    -- The expression of the children is not empty, so what is read of them can be repeated.
    have visible : fragmentOfNodes i children ≠ [] := fun nothing =>
      visible (fragmentOfNodes_eq_nil.mpr (fragmentOfNodes_eq_nil.mp nothing))
    have atom := gives_unnamed (o := o) readers fun body' o' readers' =>
      gives_fragmentOfNodes children i readers' inside filled' closing
    have atom : Gives _ (UpTo _ (·.repeatable = true)) :=
      atom.imp fun x read => ⟨read.1 visible, read.2⟩
    refine (atom.optional settled').piece ?_
      (fun o' => gives_fragmentOfNodes ns _ readers rest filled.2 quiet)
      fun r x repeatable read => read.cons _ repeatable
    simp only [List.length_append, List.length_cons]
    omega
termination_by sizeOf ns

/-! ## The expression -/

theorem gives_textStart (t : Text) (o : List (GroupKind × Text)) :
    Gives (readAtom body ⟨'^' :: t, {}, o⟩) (UpTo t fun _ => True) := by
  rw [readAtom_textStart]
  exact .ok ⟨trivial, o, rfl⟩

/-- One more slash and the end of the text. -/
theorem gives_ending (o : List (GroupKind × Text)) :
    Gives (readBranches body ⟨'/' :: '?' :: ['$'], {}, o⟩) (·.2.rest = []) := by
  have ends : Settled ['$'] := .mark (by decide) []
  have slash : Gives (readAtom body ⟨'/' :: '?' :: ['$'], {}, o⟩)
      (UpTo ('?' :: ['$']) (·.repeatable = true)) := by
    have settled : Settled ('/' :: '?' :: ['$']) := .mark (by decide) _
    rw [readAtom_plain body (by decide) (skip_settled settled o)]
    exact .ok ⟨rfl, o, rfl⟩
  have dollar (o : List (GroupKind × Text)) :
      Gives (readAtom body ⟨['$'], {}, o⟩) (UpTo [] fun _ => True) := by
    rw [readAtom, skip_settled ends, ok_bind]
    exact .ok ⟨trivial, o, rfl⟩
  refine (slash.optional ends).piece (P := (·.2.rest = [])) (by simp) (fun o' => ?_)
    fun r x _ read => read
  refine ((dollar o').settled .nil).piece (P := (·.2.rest = [])) (by simp) (fun o₁ => ?_)
    fun r x _ read => read
  rw [readBranches_end (by simp)]
  exact .ok rfl

/-- The expression of a pattern can be read, unless groups are nested too deep in it. -/
theorem gives_expression {p : Pattern} (ready : ∀ q ∈ p.placeholders, Ready q.expression)
    (filled : Node.FilledList p.nodes) :
    Gives (readExpression maxNesting ⟨p.expression, {}, []⟩) (·.2.rest = []) := by
  obtain ⟨body, readers, eq⟩ := readExpression_eq maxNesting
  have quiet : Quiet .hashFree (')' :: '/' :: '?' :: ['$']) :=
    HashFree.of_notMem (by decide) .outside
  have opening :
      Settled ("(?:".toList ++ (fragmentOfNodes 0 p.nodes ++ ')' :: '/' :: '?' :: ['$'])) :=
    .group (c := ':') (by decide) _
  have slash : Settled ('/' :: '?' :: ['$']) := .mark (by decide) _
  have group (o : List (GroupKind × Text)) := gives_unnamed (o := o) readers
    fun body' o' readers' => gives_fragmentOfNodes p.nodes 0 readers' ready filled quiet
  rw [eq, expression_eq]
  refine Gives.bind (P := (·.2.rest = [])) ?_ fun x read => .ok read
  refine ((gives_textStart _ []).settled opening).piece (P := (·.2.rest = []))
    (Nat.lt_succ_self _) (fun o => ?_) fun r x _ read => read
  refine ((group o).settled slash).piece ?_ gives_ending fun r x _ read => read
  simp only [List.length_append, List.length_cons]
  omega

/-- The expression of a pattern in which no more groups are nested than may be is one. -/
theorem exists_parse_expression {p : Pattern} (ready : ∀ q ∈ p.placeholders, Ready q.expression)
    (filled : Node.FilledList p.nodes) (nests : Lex.outside.nesting 0 p.expression ≤ maxNesting) :
    ∃ parsed, Regex.parse p.expression = .ok parsed := by
  have calm : Calm .hashFree ⟨p.expression, {}, []⟩ :=
    quiet_expression (by decide) fun q mem => (ready q mem).admitted
  have notDeep := readExpression_notDeep maxNesting ⟨p.expression, {}, []⟩ 0 calm
    (by rwa [Nat.zero_add])
  obtain ⟨⟨r, s⟩, read, rest⟩ := (gives_expression ready filled).exists_ok notDeep
  exact ⟨⟨r, s.opened.reverse⟩, parse_eq_ok.mpr ⟨s, read, rest, rfl⟩⟩

end Matcher

end UrlRouting
