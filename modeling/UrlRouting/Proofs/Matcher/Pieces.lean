import UrlRouting.Proofs.Matcher.GroupName
import UrlRouting.Proofs.Regex.Embedding

/-!
# The pieces of the matcher's expression

How the reader of expressions reads what patterns write: escaped and plain characters, the groups of
placeholders, and the groups of optional parts. Each is one piece under any flags, provided that no
quantifier comes next in what follows, which is then called settled.
-/

namespace UrlRouting.Matcher

open Regex

/-- Outside of extended mode a text begins with no comment, and behind blanks it begins with no
quantifier. -/
structure Settled (t : Text) : Prop where
  plain : ∀ u, t ≠ '(' :: '?' :: '#' :: u
  first : ∀ extended u, skipIgnored extended .outside t = some u →
    ∀ c ∈ u.head?, c ∉ ['?', '*', '+', '\x7b']

theorem skipIgnored_mark {c : Char} (h : c ∉ ['(', '#', ' ', '\t', '\r', '\n']) (extended : Bool)
    (t : Text) : skipIgnored extended .outside (c :: t) = some (c :: t) := by
  simp only [List.mem_cons, List.not_mem_nil, or_false, not_or] at h
  rw [skipIgnored.eq_3 _ _ _ fun _ eq => absurd eq h.1, if_neg (by simp [h]), if_neg (by simp [h])]

/-- A parenthesis with a question mark behind it is a group unless a comment begins. -/
theorem skipIgnored_group {c : Char} (h : c ≠ '#') (extended : Bool) (t : Text) :
    skipIgnored extended .outside ('(' :: '?' :: c :: t) = some ('(' :: '?' :: c :: t) := by
  rw [skipIgnored.eq_3, if_neg (by simp), if_neg (by simp)]
  intro u eq same
  cases same
  exact h rfl

theorem Settled.nil : Settled [] := by
  constructor
  · intro u eq
    cases eq
  · intro extended u skipped c head
    cases skipped
    cases head

theorem Settled.mark {c : Char}
    (h : c ∉ ['(', '#', ' ', '\t', '\r', '\n', '?', '*', '+', '\x7b']) (t : Text) :
    Settled (c :: t) := by
  simp only [List.mem_cons, List.not_mem_nil, or_false, not_or] at h
  constructor
  · rintro u eq
    cases eq
    exact h.1 rfl
  · intro extended u skipped d head
    rw [skipIgnored_mark (by simp [h])] at skipped
    cases skipped
    cases head
    simp [h]

theorem Settled.cons {c : Char} {t : Text} (h : c ∉ ['(', '#', '?', '*', '+', '\x7b'])
    (rest : Settled t) : Settled (c :: t) := by
  by_cases blank : c ∈ [' ', '\t', '\r', '\n']
  · constructor
    · rintro u eq
      cases eq
      exact h List.mem_cons_self
    · intro extended u skipped d head
      cases extended with
      | false =>
        rw [skipIgnored_plain fun u eq => h (by cases eq; exact List.mem_cons_self)] at skipped
        cases skipped
        cases head
        exact fun mem => h (List.mem_cons_of_mem _ (List.mem_cons_of_mem _ mem))
      | true =>
        have ignored : (true && [' ', '\t', '\r', '\n'].contains c) = true := by simpa using blank
        rw [skipIgnored_blank ignored] at skipped
        exact rest.first true u skipped d head
  · exact .mark (by simp_all) t

theorem Settled.group {c : Char} (h : c ≠ '#') (t : Text) : Settled ('(' :: '?' :: c :: t) := by
  constructor
  · rintro u eq
    cases eq
    exact h rfl
  · intro extended u skipped d head
    rw [skipIgnored_group h] at skipped
    cases skipped
    cases head
    decide

variable {f : Flags} {o : List (GroupKind × Text)} {s s₁ : Reading} {t u : Text}

theorem skip_of (h : skipIgnored f.extended .outside t = some u) (o : List (GroupKind × Text)) :
    Reading.skip ⟨t, f, o⟩ = .ok ⟨u, f, o⟩ :=
  skip_eq_ok.mpr (skip?_of h)

theorem skip_plain (plain : ∀ u, t ≠ '(' :: '?' :: '#' :: u) (o : List (GroupKind × Text)) :
    Reading.skip ⟨t, {}, o⟩ = .ok ⟨t, {}, o⟩ :=
  skip_of (skipIgnored_plain plain) o

theorem skip_settled (settled : Settled t) (o : List (GroupKind × Text)) :
    Reading.skip ⟨t, {}, o⟩ = .ok ⟨t, {}, o⟩ :=
  skip_plain settled.plain o

theorem skip_skip (skipped : s.skip = .ok s₁) : s₁.skip = .ok s₁ :=
  skip_eq_ok.mpr (skip?_idempotent (skip_eq_ok.mp skipped))

theorem length_skip (skipped : s.skip = .ok s₁) : s₁.rest.length ≤ s.rest.length :=
  (skip_moves (Calm.any _) skipped).length

theorem head_skip (settled : Settled s.rest) (skipped : s.skip = .ok s₁) :
    ∀ c ∈ s₁.rest.head?, c ∉ ['?', '*', '+', '\x7b'] := by
  obtain ⟨u, ignored, rfl⟩ := Option.map_eq_some_iff.mp (skip_eq_ok.mp skipped)
  exact settled.first _ u ignored

theorem takeQuantity_eq_none (first : ∀ c ∈ s.rest.head?, c ∉ ['?', '*', '+', '\x7b']) :
    takeQuantity s = none := by
  unfold takeQuantity
  split
  next rest => exact absurd (first '?' (by rw [rest]; rfl)) (by decide)
  next rest => exact absurd (first '*' (by rw [rest]; rfl)) (by decide)
  next rest => exact absurd (first '+' (by rw [rest]; rfl)) (by decide)
  next rest => exact absurd (first '\x7b' (by rw [rest]; rfl)) (by decide)
  next => rfl

/-- In front of settled text there is no quantifier. What is ignored is taken. -/
theorem quantified_settled (settled : Settled s.rest) (skipped : s.skip = .ok s₁) (r : Regex) :
    quantified r s = .ok (r, s₁) := by
  rw [quantified, skipped, ok_bind, takeQuantity_eq_none (head_skip settled skipped)]
  rfl

/-- An atom in front of settled text is a piece. -/
theorem readPiece_settled {body : Option (Reader Regex)} {s' : Reading} {r : Regex}
    (atom : readAtom body s = .ok (r, s')) (settled : Settled s'.rest)
    (skipped : s'.skip = .ok s₁) : readPiece body s = .ok (r, s₁) := by
  rw [readPiece, atom, ok_bind]
  exact quantified_settled settled skipped r

theorem readAtom_textStart (body : Option (Reader Regex)) (t : Text)
    (o : List (GroupKind × Text)) :
    readAtom body ⟨'^' :: t, {}, o⟩ = .ok (assert .textStart, ⟨t, {}, o⟩) := by
  rw [readAtom, skip_plain (by simp), ok_bind]
  rfl

/-! ## Literal text -/

theorem special_of_mem {cs : List Char} (h : cs.all specialChars.contains) {c : Char}
    (mem : c ∈ cs) :
    c ∈ specialChars :=
  List.contains_iff_mem.mp (List.all_eq_true.mp h c mem)

theorem readAtom_plain (body : Option (Reader Regex)) {c : Char} (h : c ∉ specialChars)
    (skipped : s.skip = .ok ⟨c :: t, f, o⟩) :
    readAtom body s = .ok (literal f c, ⟨t, f, o⟩) := by
  have ne : ∀ d ∈ ['.', '^', '$', '(', '\\', '[', '+', '*', '?', '|', ')'], c ≠ d := by
    rintro d mem rfl
    exact h (special_of_mem (by decide) mem)
  simp only [List.mem_cons, List.not_mem_nil, or_false, forall_eq_or_imp, forall_eq] at ne
  obtain ⟨h₁, h₂, h₃, h₄, h₅, h₆, h₇, h₈, h₉, h₁₀, h₁₁⟩ := ne
  rw [readAtom, skipped, ok_bind]
  dsimp only
  split <;> first | contradiction | rfl

/-- Whether a character has no meaning behind a backslash, so that it stands for itself there. -/
def isMark (c : Char) : Bool := !c.isDigit && !c.isAlpha && (expressionEscape? c).isNone

theorem letterEscape?_eq_none {c : Char} (h : c.isAlpha = false) : letterEscape? c = none := by
  unfold letterEscape?
  split <;> first | rfl | exact absurd h (by decide)

theorem readEscape_mark {c : Char} (mark : isMark c = true) (caseless : Bool) (t : Text) :
    readEscape caseless false (c :: t) = .ok (.char c false, t) := by
  rw [isMark, Bool.and_eq_true_iff, Bool.and_eq_true_iff, Bool.not_eq_true', Bool.not_eq_true',
    Option.isNone_iff_eq_none] at mark
  obtain ⟨⟨digit, letter⟩, quiet⟩ := mark
  have ne : ∀ d : Char, d.isAlpha = true → c ≠ d := by
    intro d isLetter same
    rw [same, isLetter] at letter
    cases letter
  have outer : readOuterEscape c t = .ok (.char c false, t) := by
    unfold readOuterEscape
    rw [quiet]
    dsimp only
    rw [if_neg (ne 'b' rfl), if_neg (ne 'k' rfl), if_neg (by simp [letter])]
  rw [readEscape, if_neg (by simp [digit]), letterEscape?_eq_none letter]
  dsimp only
  rw [if_neg (ne 'x' rfl), if_neg (ne 'u' rfl), if_neg (ne 'U' rfl), if_neg (ne 'p' rfl),
    if_neg (ne 'P' rfl), if_neg Bool.false_ne_true, outer]

/-- A character behind a backslash that stands for itself. -/
theorem readAtom_backslash (body : Option (Reader Regex)) {c : Char} (mark : isMark c = true)
    (skipped : s.skip = .ok ⟨'\\' :: c :: t, f, o⟩) :
    readAtom body s = .ok (set (.single c), ⟨t, f, o⟩) := by
  rw [readAtom, skipped, ok_bind]
  dsimp only
  rw [readEscaped, readEscape_mark mark]
  rfl

theorem readAtom_escaped (body : Option (Reader Regex)) {c : Char} (h : c ∈ specialChars)
    (skipped : s.skip = .ok ⟨'\\' :: c :: t, f, o⟩) :
    readAtom body s = .ok (set (.single c), ⟨t, f, o⟩) := by
  have marks : specialChars.all isMark = true := by decide
  exact readAtom_backslash body (List.all_eq_true.mp marks c h) skipped

/-! ## Groups -/

theorem capture_append (i : Nat) (q : Placeholder) (u : Text) : capture i q ++ u =
    "(?P<".toList ++ (groupName i ++ '>' :: (q.expression ++ ')' :: u)) := by
  simp [capture]

theorem length_lt_capture (i : Nat) (q : Placeholder) (u : Text) :
    u.length < (capture i q ++ u).length := by
  have opening : 0 < (capture i q).length := by simp [capture]
  rw [List.length_append]
  omega

theorem optional_append (i : Nat) (children : List Node) (u : Text) :
    fragment i (.optional children) ++ u =
      "(?:".toList ++ (fragmentOfNodes i children ++ ')' :: '?' :: u) := by
  simp [fragment]

theorem expression_eq (p : Pattern) : p.expression =
    '^' :: ("(?:".toList ++ (fragmentOfNodes 0 p.nodes ++ ')' :: '/' :: '?' :: ['$'])) := by
  simp [Pattern.expression]

theorem skip_mark (t : Text) (f : Flags) (o : List (GroupKind × Text)) :
    Reading.skip ⟨'?' :: t, f, o⟩ = .ok ⟨'?' :: t, f, o⟩ :=
  skip_of (skipIgnored_mark (by decide) f.extended t) o

/-- The group of a placeholder. -/
theorem readAtom_capture (body : Reader Regex) {index : Nat}
    (skipped : s.skip = .ok ⟨"(?P<".toList ++ (groupName index ++ '>' :: t), f, o⟩) :
    ∃ whole, readAtom (some body) s =
      enclosed body ⟨t, f, (.named (groupName index), whole) :: o⟩ >>= fun x =>
        .ok (group ((Reading.groups ⟨t, f, o⟩).length + 1) x.1, x.2) := by
  refine ⟨'(' :: '?' :: 'P' :: '<' :: (groupName index ++ '>' :: t), ?_⟩
  rw [readAtom, skipped, ok_bind]
  change group? (some body) _ ⟨'?' :: 'P' :: '<' :: (groupName index ++ '>' :: t), f, o⟩ = _
  rw [group?]
  dsimp only
  rw [skip_mark, ok_bind, read_groupName, ok_bind]
  dsimp only [readGroup]
  rfl

/-- The group of an optional part. -/
theorem readAtom_optional (body : Reader Regex) (skipped : s.skip = .ok ⟨"(?:".toList ++ t, f, o⟩) :
    ∃ whole, readAtom (some body) s =
      enclosed body ⟨t, f, (.nonCapturing, whole) :: o⟩ >>= fun x =>
        .ok (x.1, { x.2 with flags := f }) := by
  refine ⟨'(' :: '?' :: ':' :: t, ?_⟩
  rw [readAtom, skipped, ok_bind]
  change group? (some body) _ ⟨'?' :: ':' :: t, f, o⟩ = _
  rw [group?]
  dsimp only
  rw [skip_mark, ok_bind]
  rfl

end UrlRouting.Matcher
