import UrlRouting.Proofs.Pattern.WellFormed

/-!
# Between the braces of a placeholder

`Placeholder.ofBody` reads a name and perhaps a constraint. It gives a placeholder that the text
writes (`ofBody_written`), and it reads what a placeholder is written as (`ofBody_of_written`).
-/

namespace UrlRouting

/-! ## Names -/

/-- The characters of names. -/
def isNamePart (c : Char) : Bool := c.isAlphanum || c == '_' || c == '-'

theorem isNamePart_of_isName {t : Text} (h : isName t) : ∀ c ∈ t, isNamePart c := by
  cases t with
  | nil => exact nofun
  | cons c t =>
    simp only [isName, Bool.and_eq_true, Bool.or_eq_true, List.all_eq_true] at h
    intro d mem
    rcases List.mem_cons.mp mem with rfl | mem
    · simp only [isNamePart, Char.isAlphanum, Bool.or_eq_true]
      rcases h.1 with letter | underscore
      · exact .inl (.inl (.inl letter))
      · exact .inl (.inr underscore)
    · simpa [isNamePart, Bool.or_eq_true] using h.2 d mem

theorem not_isBlank_of_isNamePart {c : Char} (h : isNamePart c) : Unicode.isBlank c = false := by
  have bounds : 48 ≤ c.toNat ∧ c.toNat ≤ 122 ∨ c = '-' := by
    rcases Bool.or_eq_true_iff.mp h with h | hyphen
    · rcases Bool.or_eq_true_iff.mp h with alphanum | underscore
      · rcases Bool.or_eq_true_iff.mp alphanum with letter | digit
        · rcases Bool.or_eq_true_iff.mp letter with upper | lower
          · have range : 65 ≤ c.toNat ∧ c.toNat ≤ 90 := of_decide_eq_true upper
            exact .inl (by omega)
          · have range := Bool.and_eq_true_iff.mp lower
            have least : 97 ≤ c.toNat := of_decide_eq_true range.1
            have most : c.toNat ≤ 122 := of_decide_eq_true range.2
            exact .inl (by omega)
        · have range := Bool.and_eq_true_iff.mp digit
          have least : 48 ≤ c.toNat := of_decide_eq_true range.1
          have most : c.toNat ≤ 57 := of_decide_eq_true range.2
          exact .inl (by omega)
      · rw [eq_of_beq underscore]
        exact .inl (by decide)
    · exact .inr (eq_of_beq hyphen)
  rcases bounds with bounds | rfl
  · simp only [Unicode.isBlank, Bool.or_eq_false_iff, Bool.and_eq_false_iff, beq_eq_false_iff_ne,
      decide_eq_false_iff_not]
    omega
  · decide

theorem ne_of_isNamePart {c : Char} (h : isNamePart c) : c ∉ [':', '\x7b', '\x7d', '\\'] := by
  intro mem
  simp only [List.mem_cons, List.not_mem_nil, or_false] at mem
  rcases mem with rfl | rfl | rfl | rfl <;> revert h <;> decide

theorem ne_of_isBlank {c : Char} (h : Unicode.isBlank c) : c ∉ [':', '\x7b', '\x7d', '\\'] := by
  intro mem
  simp only [List.mem_cons, List.not_mem_nil, or_false] at mem
  rcases mem with rfl | rfl | rfl | rfl <;> revert h <;> decide

theorem trimmed_of_isName {t : Text} (h : isName t) : Text.Trimmed Unicode.isBlank t where
  first c mem := not_isBlank_of_isNamePart (isNamePart_of_isName h c (List.mem_of_mem_head? mem))
  last c mem := not_isBlank_of_isNamePart (isNamePart_of_isName h c (List.mem_of_getLast? mem))

/-! ## Plain text -/

/-- A text without colons, braces and backslashes. -/
def Unmarked (t : Text) : Prop := ∀ c ∈ t, c ∉ [':', '\x7b', '\x7d', '\\']

theorem Unmarked.of_isName {t : Text} (h : isName t) : Unmarked t :=
  fun c mem => ne_of_isNamePart (isNamePart_of_isName h c mem)

theorem Unmarked.of_blank {t : Text} (h : Blank t) : Unmarked t :=
  fun c mem => ne_of_isBlank (h c mem)

theorem Unmarked.append {s t : Text} (left : Unmarked s) (right : Unmarked t) :
    Unmarked (s ++ t) := by
  intro c mem
  rcases List.mem_append.mp mem with mem | mem
  · exact left c mem
  · exact right c mem

theorem Unmarked.colon {t : Text} (h : Unmarked t) : ':' ∉ t :=
  fun mem => h ':' mem (by decide)

theorem Unmarked.dangles {t : Text} (h : Unmarked t) : Text.dangles t = false := by
  refine Text.dangles_of_forall fun c mem => ?_
  rintro rfl
  exact h '\\' mem (by decide)

theorem Unmarked.unescaped {t : Text} (h : Unmarked t) : Text.unescaped t = t := by
  refine Text.unescaped_of_forall fun c mem => ?_
  rintro rfl
  exact h '\\' mem (by decide)

theorem Unmarked.levels {t : Text} (h : Unmarked t) (depth : Nat) :
    Text.levels depth t = some depth := by
  refine Text.levels_of_forall (fun c mem brace => h c mem ?_) depth
  simp only [List.mem_cons, List.not_mem_nil, or_false] at brace ⊢
  rcases brace with rfl | rfl <;> decide

/-! ## Reading -/

/-- A constraint as the scanner leaves it: it may still end in a backslash that has taken a blank
which has been trimmed away. -/
structure Constraint.Scanned (constraint : Text) : Prop where
  nonempty : constraint ≠ []
  trimmed : Text.Trimmed Unicode.isBlank constraint
  balanced : Text.dangles constraint = false → Text.Balanced constraint

/-- The braces of a body are those of its constraint. -/
theorem balanced_body {before a c d : Text} (plain : Unmarked before) (left : Blank a)
    (right : Blank d) (whole : Text.dangles c = false) :
    Text.Balanced (before ++ ':' :: (a ++ c ++ d)) ↔ Text.Balanced c := by
  have left := Unmarked.of_blank left
  have right := Unmarked.of_blank right
  have colon : Text.levels 0 [':'] = some 0 := rfl
  have split : before ++ ':' :: (a ++ c ++ d) = (before ++ [':'] ++ a) ++ (c ++ d) := by simp
  have free : Text.dangles (before ++ [':'] ++ a) = false := by
    rw [List.append_assoc, List.singleton_append, Text.dangles_append plain.dangles,
      Text.dangles_cons (by decide), left.dangles]
  have outer : Text.unescaped (before ++ [':'] ++ a) = before ++ [':'] ++ a := by
    rw [List.append_assoc, List.singleton_append, Text.unescaped_append plain.dangles,
      Text.unescaped_cons (by decide), left.unescaped, plain.unescaped]
  unfold Text.Balanced
  rw [split, Text.unescaped_append free, outer, Text.unescaped_append whole, right.unescaped]
  simp only [Text.levels_append, plain.levels, left.levels, right.levels, colon,
    Option.bind_eq_bind, Option.bind_some, Option.bind_fun_some]

theorem ofBody_written {b : Text} {p : Placeholder} (balanced : Text.Balanced b)
    (h : Placeholder.ofBody b = .ok p) :
    p.Written b ∧ isName p.name ∧ ∀ c ∈ p.constraint, Constraint.Scanned c := by
  unfold Placeholder.ofBody at h
  rcases Text.splitFirst_cases ':' b with ⟨-, eq⟩ | ⟨before, after, rfl, -, eq⟩
  · rw [eq] at h
    dsimp only at h
    split at h
    next named =>
      cases h
      obtain ⟨s, u, split, left, right, -⟩ := Text.exists_margins Unicode.isBlank b
      refine ⟨?_, named, nofun⟩
      have written : Placeholder.Written ⟨Text.trim Unicode.isBlank b, none⟩ _ := .bare left right
      rwa [← split] at written
    next => cases h
  · rw [eq] at h
    simp only [Option.map_some] at h
    obtain ⟨s, u, split, left, right, -⟩ := Text.exists_margins Unicode.isBlank before
    obtain ⟨s', u', split', left', right', trimmed⟩ := Text.exists_margins Unicode.isBlank after
    generalize Text.trim Unicode.isBlank before = name at *
    generalize Text.trim Unicode.isBlank after = constraint at *
    subst split split'
    split at h
    next named =>
      by_cases empty : constraint = []
      · subst empty
        obtain rfl : _ = p := Except.ok.inj h
        refine ⟨.absent left right fun c mem => ?_, named, nofun⟩
        rw [List.append_nil] at mem
        rcases List.mem_append.mp mem with mem | mem
        · exact left' c mem
        · exact right' c mem
      · have kept : (some constraint).filter (· ≠ []) = some constraint := by simp [empty]
        rw [kept] at h
        obtain rfl : _ = p := Except.ok.inj h
        refine ⟨.constrained left right left' right', named, fun c mem => ?_⟩
        obtain rfl : constraint = c := Option.some.inj mem
        have plain : Unmarked (s ++ name ++ u) :=
          ((Unmarked.of_blank left).append (.of_isName named)).append (.of_blank right)
        exact ⟨empty, trimmed, fun whole => (balanced_body plain left' right' whole).mp balanced⟩
    next => cases h

theorem ofBody_of_written {p : Placeholder} {b : Text} (written : p.Written b)
    (named : isName p.name) (proper : ∀ c ∈ p.constraint, Constraint.Proper c) :
    Placeholder.ofBody b = .ok p := by
  have trimmed := trimmed_of_isName named
  have blanks : ∀ {t : Text}, Blank t → Text.trim Unicode.isBlank t = [] := by
    intro t blank
    have none : Text.Trimmed Unicode.isBlank [] := ⟨nofun, nofun⟩
    simpa using Text.trim_append blank none (u := []) nofun
  unfold Placeholder.ofBody
  cases written with
  | bare left right =>
    have plain := ((Unmarked.of_blank left).append (.of_isName named)).append (.of_blank right)
    rw [Text.splitFirst_of_notMem plain.colon]
    dsimp only
    rw [Text.trim_append left trimmed right]
    exact if_pos named
  | absent left right blank =>
    have plain := ((Unmarked.of_blank left).append (.of_isName named)).append (.of_blank right)
    rw [Text.splitFirst_append plain.colon]
    dsimp only
    rw [Text.trim_append left trimmed right, Option.map_some, blanks blank]
    exact if_pos named
  | constrained left right left' right' =>
    have proper := proper _ rfl
    have plain := ((Unmarked.of_blank left).append (.of_isName named)).append (.of_blank right)
    rw [Text.splitFirst_append plain.colon]
    dsimp only
    rw [Text.trim_append left trimmed right, Option.map_some,
      Text.trim_append left' proper.trimmed right']
    simp [proper.nonempty, named]

theorem Placeholder.Written.balanced {p : Placeholder} {b : Text} (written : p.Written b)
    (named : isName p.name) (proper : ∀ c ∈ p.constraint, Constraint.Proper c) :
    Text.dangles b = false ∧ Text.Balanced b := by
  cases written with
  | bare left right =>
    have plain := ((Unmarked.of_blank left).append (.of_isName named)).append (.of_blank right)
    refine ⟨plain.dangles, ?_⟩
    rw [Text.Balanced, plain.unescaped, plain.levels]
  | @absent name a b c left right blank =>
    have plain := ((Unmarked.of_blank left).append (.of_isName named)).append (.of_blank right)
    constructor
    · rw [Text.dangles_append_cons (by decide), (Unmarked.of_blank blank).dangles]
    · have balanced := (balanced_body plain blank (c := []) (d := []) nofun rfl).mpr rfl
      simpa using balanced
  | @constrained name constraint a b c d left right left' right' =>
    have proper := proper _ rfl
    have plain := ((Unmarked.of_blank left).append (.of_isName named)).append (.of_blank right)
    constructor
    · rw [Text.dangles_append_cons (by decide), List.append_assoc,
        Text.dangles_append (Unmarked.of_blank left').dangles, Text.dangles_append proper.whole,
        (Unmarked.of_blank right').dangles]
    · exact (balanced_body plain left' right' proper.whole).mpr proper.balanced

end UrlRouting
