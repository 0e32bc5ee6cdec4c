import UrlRouting.Text

/-!
# Splitting and trimming

What the parts of a split or trimmed text say about the whole: a split is decided by the first
separator, and trimming takes a margin away on each side.
-/

namespace UrlRouting.Text

/-! ## The first separator -/

theorem splitFirst_append {sep : Char} {s : Text} (free : sep ∉ s) (t : Text) :
    splitFirst sep (s ++ sep :: t) = (s, some t) := by
  induction s with
  | nil => simp [splitFirst]
  | cons c s ih =>
    simp only [List.mem_cons, not_or] at free
    simp [splitFirst, Ne.symm free.1, ih free.2]

theorem splitFirst_of_notMem {sep : Char} {t : Text} (free : sep ∉ t) :
    splitFirst sep t = (t, none) := by
  induction t with
  | nil => rfl
  | cons c t ih =>
    simp only [List.mem_cons, not_or] at free
    simp [splitFirst, Ne.symm free.1, ih free.2]

/-- A text either has a first separator or none. -/
theorem splitFirst_cases (sep : Char) (t : Text) :
    (sep ∉ t ∧ splitFirst sep t = (t, none)) ∨
      ∃ before after, t = before ++ sep :: after ∧ sep ∉ before ∧
        splitFirst sep t = (before, some after) := by
  by_cases mem : sep ∈ t
  · obtain ⟨before, after, rfl, free⟩ := List.eq_append_cons_of_mem mem
    exact .inr ⟨before, after, rfl, free, splitFirst_append free after⟩
  · exact .inl ⟨mem, splitFirst_of_notMem mem⟩

/-- A split is not concerned with what stands in front of the first separator. -/
theorem splitFirst_append_of_notMem {sep : Char} {s : Text} (free : sep ∉ s) (t : Text) :
    splitFirst sep (s ++ t) = (s ++ (splitFirst sep t).1, (splitFirst sep t).2) := by
  rcases splitFirst_cases sep t with ⟨none, eq⟩ | ⟨before, after, rfl, none, eq⟩
  · have free' : sep ∉ s ++ t := by simp [free, none]
    rw [eq, splitFirst_of_notMem free']
  · have free' : sep ∉ s ++ before := by simp [free, none]
    rw [eq, ← List.append_assoc, splitFirst_append free']

/-! ## All separators -/

theorem pieces_ne_nil (sep : Char) (t : Text) : pieces sep t ≠ [] := by
  cases t with
  | nil => exact List.cons_ne_nil _ _
  | cons c t =>
    rw [pieces]
    split
    · exact List.cons_ne_nil _ _
    · split <;> exact List.cons_ne_nil _ _

theorem pieces_of_notMem {sep : Char} {t : Text} (free : sep ∉ t) : pieces sep t = [t] := by
  induction t with
  | nil => rfl
  | cons c t ih =>
    simp only [List.mem_cons, not_or] at free
    simp [pieces, Ne.symm free.1, ih free.2]

/-- The pieces on both sides of a separator. -/
theorem pieces_append (sep : Char) (s t : Text) :
    pieces sep (s ++ sep :: t) = pieces sep s ++ pieces sep t := by
  induction s with
  | nil => simp [pieces]
  | cons c s ih =>
    rw [List.cons_append, pieces, pieces, ih]
    split
    next => rfl
    next =>
      obtain ⟨p, ps, same⟩ := List.exists_cons_of_ne_nil (pieces_ne_nil sep s)
      rw [same]
      rfl

/-- A character of joined pieces is the separator or stands in a piece. -/
theorem mem_joinWith {sep c : Char} {ps : List Text} (mem : c ∈ joinWith sep ps) :
    c = sep ∨ ∃ p ∈ ps, c ∈ p := by
  induction ps with
  | nil => cases mem
  | cons p ps ih =>
    cases ps with
    | nil => exact .inr ⟨p, List.mem_singleton_self p, mem⟩
    | cons q ps =>
      rcases List.mem_append.mp mem with mem | mem
      · exact .inr ⟨p, List.mem_cons_self, mem⟩
      · rcases List.mem_cons.mp mem with same | mem
        · exact .inl same
        · obtain same | ⟨r, among, inside⟩ := ih mem
          · exact .inl same
          · exact .inr ⟨r, List.mem_cons_of_mem p among, inside⟩

/-- Pieces that have been joined are found again. -/
theorem pieces_joinWith {sep : Char} {ps : List Text} (free : ∀ p ∈ ps, sep ∉ p)
    (nonempty : ps ≠ []) : pieces sep (joinWith sep ps) = ps := by
  induction ps with
  | nil => exact absurd rfl nonempty
  | cons p ps ih =>
    obtain ⟨here, rest⟩ := List.forall_mem_cons.mp free
    cases ps with
    | nil => exact pieces_of_notMem here
    | cons q ps =>
      rw [joinWith, pieces_append, pieces_of_notMem here, ih rest (List.cons_ne_nil q ps)]
      rfl

/-! ## Margins -/

/-- A text neither begins nor ends with a character of a class. -/
structure Trimmed (p : Char → Bool) (t : Text) : Prop where
  first : ∀ c ∈ t.head?, p c = false
  last : ∀ c ∈ t.getLast?, p c = false

theorem dropWhile_eq_self {p : Char → Bool} {t : Text} (h : ∀ c ∈ t.head?, p c = false) :
    t.dropWhile p = t := by
  cases t with
  | nil => rfl
  | cons c t => simp [h c rfl]

/-- Trimming takes the margins away from a text that has none by itself. -/
theorem trim_append {p : Char → Bool} {s t u : Text} (left : ∀ c ∈ s, p c = true)
    (trimmed : Trimmed p t) (right : ∀ c ∈ u, p c = true) : trim p (s ++ t ++ u) = t := by
  have back : ∀ c ∈ u.reverse, p c = true := fun c mem => right c (List.mem_reverse.mp mem)
  have reversed : ∀ c ∈ t.reverse.head?, p c = false := by simpa using trimmed.last
  unfold trim trimEnd trimStart
  rw [List.append_assoc, List.dropWhile_append_of_pos left]
  cases t with
  | nil =>
    have blank : (([] : Text) ++ u).dropWhile p = [] := by
      rw [List.nil_append, ← List.append_nil u, List.dropWhile_append_of_pos right]
      rfl
    rw [blank]
    rfl
  | cons c t =>
    rw [List.cons_append, dropWhile_eq_self (t := c :: (t ++ u)) trimmed.first,
      ← List.cons_append, List.reverse_append, List.dropWhile_append_of_pos back,
      dropWhile_eq_self reversed, List.reverse_reverse]

theorem dropWhile_head {p : Char → Bool} (t : Text) : ∀ c ∈ (t.dropWhile p).head?, p c = false := by
  intro c mem
  induction t with
  | nil => cases mem
  | cons d t ih =>
    by_cases h : p d
    · simp only [List.dropWhile_cons, h, if_true] at mem
      exact ih mem
    · simp only [List.dropWhile_cons, h] at mem
      cases mem
      exact Bool.eq_false_iff.mpr h

theorem getLast?_trimEnd (p : Char → Bool) (t : Text) :
    ∀ c ∈ (trimEnd p t).getLast?, p c = false := by
  intro c mem
  apply dropWhile_head t.reverse c
  simpa [trimEnd] using mem

/-- What trimming gives, and what it takes away. -/
theorem exists_margins (p : Char → Bool) (t : Text) :
    ∃ s u, t = s ++ trim p t ++ u ∧ (∀ c ∈ s, p c = true) ∧ (∀ c ∈ u, p c = true) ∧
      Trimmed p (trim p t) := by
  have front := List.takeWhile_append_dropWhile (p := p) (l := t)
  have back := List.takeWhile_append_dropWhile (p := p) (l := (trimStart p t).reverse)
  have core : trimStart p t = trim p t ++ ((trimStart p t).reverse.takeWhile p).reverse := by
    have flipped := congrArg List.reverse back
    rw [List.reverse_append, List.reverse_reverse] at flipped
    exact flipped.symm
  refine ⟨t.takeWhile p, ((trimStart p t).reverse.takeWhile p).reverse, ?_, ?_, ?_, ?_, ?_⟩
  · rw [List.append_assoc, ← core]
    exact front.symm
  · exact fun c mem => List.all_eq_true.mp List.all_takeWhile c mem
  · intro c mem
    exact List.all_eq_true.mp List.all_takeWhile c (List.mem_reverse.mp mem)
  · intro c mem
    apply dropWhile_head t c
    change c ∈ (trimStart p t).head?
    rw [core]
    cases eq : trim p t with
    | nil =>
      rw [eq] at mem
      cases mem
    | cons d u =>
      rw [eq] at mem
      exact mem
  · exact getLast?_trimEnd p (trimStart p t)

/-- What trimming takes away may stand around the text. -/
theorem trim_margins {p : Char → Bool} {s t u : Text} (left : ∀ c ∈ s, p c = true)
    (right : ∀ c ∈ u, p c = true) : trim p (s ++ t ++ u) = trim p t := by
  obtain ⟨a, b, whole, before, behind, trimmed⟩ := exists_margins p t
  have moved : s ++ (a ++ trim p t ++ b) ++ u = (s ++ a) ++ trim p t ++ (b ++ u) := by
    simp only [List.append_assoc]
  rw [← whole] at moved
  rw [moved]
  refine trim_append (fun c mem => ?_) trimmed fun c mem => ?_
  · exact (List.mem_append.mp mem).elim (left c) (before c)
  · exact (List.mem_append.mp mem).elim (behind c) (right c)

end UrlRouting.Text
