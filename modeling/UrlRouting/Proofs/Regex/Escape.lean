import Mathlib.Data.List.TakeWhile
import UrlRouting.Proofs.Regex.Tokens

/-!
# Escapes and names

The readers of names and escapes take inert characters and do not look past what they take: a text
that goes on with a closing parenthesis is read in the same way.
-/

namespace UrlRouting.Regex

/-! ## Runs of characters -/

theorem takeWhile_append_cons {p : Char → Bool} {c : Char} (h : p c = false) (s t : Text) :
    (s ++ c :: t).takeWhile p = s.takeWhile p := by
  induction s with
  | nil => simp [h]
  | cons d s ih => by_cases hd : p d <;> simp [hd, ih]

theorem dropWhile_append_cons {p : Char → Bool} {c : Char} (h : p c = false) (s t : Text) :
    (s ++ c :: t).dropWhile p = s.dropWhile p ++ c :: t := by
  induction s with
  | nil => simp [h]
  | cons d s ih => by_cases hd : p d <;> simp [hd, ih]

theorem takeWhile_run {p : Char → Bool} {s : Text} (run : ∀ c ∈ s, p c) {c : Char}
    (h : p c = false) (t : Text) : (s ++ c :: t).takeWhile p = s := by
  rw [takeWhile_append_cons h, List.takeWhile_eq_self_iff.mpr run]

theorem dropWhile_run {p : Char → Bool} {s : Text} (run : ∀ c ∈ s, p c) {c : Char}
    (h : p c = false) (t : Text) : (s ++ c :: t).dropWhile p = c :: t := by
  rw [dropWhile_append_cons h, List.dropWhile_eq_nil_iff.mpr run, List.nil_append]

/-! ## Names -/

/-- A name is read up to its mark. -/
theorem readName_eq_ok {mark : Char} (h : isNameChar mark = false) {t name u : Text} :
    readName mark t = .ok (name, u) ↔
      t = name ++ mark :: u ∧ name ≠ [] ∧ ∀ c ∈ name, isNameChar c := by
  constructor
  · intro read
    have whole := List.takeWhile_append_dropWhile (p := isNameChar) (l := t)
    have run : ∀ c ∈ t.takeWhile isNameChar, isNameChar c :=
      List.all_eq_true.mp List.all_takeWhile
    unfold readName at read
    split at read
    · cases read
    next _ c rest after nonempty =>
      split at read
      next same =>
        cases read
        rw [after, same] at whole
        exact ⟨whole.symm, nonempty, run⟩
      next => cases read
    · cases read
  · rintro ⟨rfl, nonempty, run⟩
    unfold readName
    rw [takeWhile_run run h, dropWhile_run run h]
    cases name with
    | nil => exact absurd rfl nonempty
    | cons c name => simp

theorem readName_append {mark : Char} (h : isNameChar mark = false) {t name u : Text}
    (read : readName mark t = .ok (name, u)) (k : Text) :
    readName mark (t ++ k) = .ok (name, u ++ k) := by
  obtain ⟨rfl, nonempty, run⟩ := (readName_eq_ok h).mp read
  exact (readName_eq_ok h).mpr ⟨by simp, nonempty, run⟩

theorem inert_of_names {name : Text} (run : ∀ c ∈ name, isNameChar c) : Inert name :=
  fun c mem => isInert_of_isNameChar (run c mem)

/-! ## Characters by number -/

/-- The number of a character in braces. -/
theorem readHex_braces {count : Nat} (pos : 0 < count) {digits : Text}
    (run : ∀ c ∈ digits, isHexDigit c) (u : Text) :
    readHex count ('\x7b' :: (digits ++ '\x7d' :: u)) =
      if digits = [] ∨ 8 < digits.length then .error .invalidHex
      else charOfNumber (Unicode.hexNumber digits) >>= fun c => pure (c, u) := by
  have opening : isHexDigit '\x7b' = false := by decide
  have close : isHexDigit '\x7d' = false := by decide
  have few : ¬ (List.takeWhile isHexDigit ('\x7b' :: (digits ++ '\x7d' :: u))).length ≥ count := by
    rw [List.takeWhile_cons_of_neg (by simp [opening])]
    exact Nat.not_le.mpr pos
  rw [readHex, if_neg few]
  dsimp only
  rw [takeWhile_run run close, dropWhile_run run close]
  rfl

theorem takeWhile_length_append (p : Char → Bool) (t k : Text) :
    (t.takeWhile p).length ≤ ((t ++ k).takeWhile p).length := by
  rw [List.takeWhile_append]
  split
  next all => rw [all, List.length_append]; exact Nat.le_add_right _ _
  next => exact Nat.le_refl _

theorem readHex_ok {count : Nat} (pos : 0 < count) {t u : Text} {c : Char}
    (read : readHex count t = .ok (c, u)) :
    ∃ s, t = s ++ u ∧ Inert s ∧ ∀ k, readHex count (t ++ k) = .ok (c, u ++ k) := by
  have digits : ∀ c ∈ t.takeWhile isHexDigit, isHexDigit c := List.all_eq_true.mp List.all_takeWhile
  have source := read
  unfold readHex at read
  split at read
  next enough =>
    obtain ⟨d, number, result⟩ := bind_eq_ok.mp read
    cases result
    have short : count ≤ t.length :=
      Nat.le_trans enough (List.takeWhile_prefix _).length_le
    refine ⟨t.take count, (List.take_append_drop _ _).symm, fun c mem => ?_, fun k => ?_⟩
    · refine isInert_of_isHexDigit (digits c (List.IsPrefix.subset ?_ mem))
      exact List.prefix_of_prefix_length_le (List.take_prefix _ _) (List.takeWhile_prefix _)
        (Nat.le_trans (List.length_take_le _ _) enough)
    · unfold readHex
      rw [if_pos (Nat.le_trans enough (takeWhile_length_append _ t k)),
        List.take_append_of_le_length short, List.drop_append_of_le_length short, number]
      rfl
  next few =>
    split at read
    next t =>
      dsimp only at read
      split at read
      next rest after =>
        have run : ∀ c ∈ t.takeWhile isHexDigit, isHexDigit c :=
          List.all_eq_true.mp List.all_takeWhile
        have whole := List.takeWhile_append_dropWhile (p := isHexDigit) (l := t)
        rw [after] at whole
        generalize t.takeWhile isHexDigit = number at *
        subst whole
        rw [readHex_braces pos run] at source
        split at source
        · cases source
        next proper =>
          obtain ⟨d, known, result⟩ := bind_eq_ok.mp source
          cases result
          refine ⟨'\x7b' :: (number ++ ['\x7d']), by simp, ?_, fun k => ?_⟩
          · refine Inert.cons rfl (Inert.append (fun c mem => ?_) (Inert.cons rfl Inert.nil))
            exact isInert_of_isHexDigit (run c mem)
          · simp only [List.cons_append, List.append_assoc]
            rw [readHex_braces pos run, if_neg proper, known]
            rfl
      next => cases read
    next => cases read

/-! ## Properties -/

theorem propertySet_ok {caseless negated : Bool} {name : Text} {cs : CharSet}
    (known : propertySet caseless negated name = .ok cs) : Inert name := by
  have plain : ∀ {t : Text} {p : Unicode.Property}, Unicode.Property.ofName? t = some p → Inert t :=
    fun h c mem => isInert_of_isPropertyNameChar (Unicode.Property.plain_of_ofName? h c mem)
  unfold propertySet at known
  split at known
  next differs p named =>
    unfold propertyOfText? at named
    rcases Text.splitFirst_cases '!' name with ⟨-, eq⟩ | ⟨kind, value, rfl, -, eq⟩
    · rw [eq] at named
      obtain ⟨q, named, -⟩ := Option.map_eq_some_iff.mp named
      exact plain named
    · rw [eq] at named
      split at named
      next same =>
        cases same
        obtain ⟨q, named, -⟩ := Option.map_eq_some_iff.mp named
        intro c mem
        rcases List.mem_append.mp mem with mem | mem
        · exact plain named c (List.mem_append_left _ mem)
        rcases List.mem_cons.mp mem with rfl | mem
        · rfl
        · exact plain named c (List.mem_append_right _ mem)
      next =>
        obtain ⟨q, named, -⟩ := Option.map_eq_some_iff.mp named
        exact plain named
  next => cases known

theorem readProperty_ok {t name u : Text} (read : readProperty t = .ok (name, u)) :
    (t = name ++ u ∨ t = '\x7b' :: (name ++ '\x7d' :: u)) ∧
      ∀ k, readProperty (t ++ k) = .ok (name, u ++ k) := by
  unfold readProperty at read
  split at read
  · cases read
  next t =>
    rcases Text.splitFirst_cases '\x7d' t with ⟨-, eq⟩ | ⟨before, after, rfl, free, eq⟩
    · rw [eq] at read
      cases read
    · rw [eq] at read
      cases read
      refine ⟨.inr rfl, fun k => ?_⟩
      simp [readProperty, Text.splitFirst_append free]
  next c t notBrace =>
    cases read
    refine ⟨.inl rfl, fun k => ?_⟩
    rw [List.cons_append, readProperty.eq_def]
    split
    next eq => cases eq
    next eq =>
      cases eq
      exact (notBrace rfl).elim
    next eq =>
      cases eq
      rfl

/-- Both ways of writing a property take inert characters. -/
theorem inert_of_readProperty {caseless negated : Bool} {t name u : Text} {cs : CharSet}
    (read : readProperty t = .ok (name, u)) (known : propertySet caseless negated name = .ok cs) :
    ∃ s, t = s ++ u ∧ Inert s := by
  have inert := propertySet_ok known
  rcases (readProperty_ok read).1 with rfl | rfl
  · exact ⟨name, rfl, inert⟩
  · refine ⟨'\x7b' :: (name ++ ['\x7d']), by simp, ?_⟩
    exact Inert.cons rfl (inert.append (Inert.cons rfl Inert.nil))

/-! ## Escapes -/

/-- A reader of texts takes inert characters, and reads the same in front of a closing
parenthesis. -/
structure TakesInert {α : Type} (f : Text → Except SyntaxError (α × Text)) : Prop where
  inert : ∀ {t u a}, f t = .ok (a, u) → ∃ s, t = s ++ u ∧ Inert s
  append : ∀ {t u a}, f t = .ok (a, u) → ∀ k, f (t ++ ')' :: k) = .ok (a, u ++ ')' :: k)

theorem TakesInert.pure {α : Type} (a : α) : TakesInert fun t => .ok (a, t) where
  inert h := by
    cases h
    exact ⟨[], rfl, Inert.nil⟩
  append h k := by
    cases h
    rfl

theorem TakesInert.error {α : Type} (e : SyntaxError) :
    TakesInert fun _ => (.error e : Except SyntaxError (α × Text)) where
  inert h := nomatch h
  append h := nomatch h

theorem TakesInert.map {α β : Type} {f : Text → Except SyntaxError (α × Text)}
    (takes : TakesInert f) (g : α → β) :
    TakesInert fun t => f t >>= fun x => .ok (g x.1, x.2) where
  inert h := by
    obtain ⟨⟨a, u⟩, read, result⟩ := bind_eq_ok.mp h
    cases result
    exact takes.inert read
  append h k := by
    obtain ⟨⟨a, u⟩, read, result⟩ := bind_eq_ok.mp h
    cases result
    rw [takes.append read k]
    rfl

/-- A reader that goes on behind an inert character of its own. -/
theorem TakesInert.behind {α : Type} {f : Text → Except SyntaxError (α × Text)}
    (takes : TakesInert f) {c : Char} (inert : isInert c) {t u : Text} {a : α}
    (h : f t = .ok (a, u)) : ∃ s, c :: t = s ++ u ∧ Inert s := by
  obtain ⟨s, rfl, rest⟩ := takes.inert h
  exact ⟨c :: s, rfl, Inert.cons inert rest⟩

theorem takesInert_readName {mark : Char} (ends : isNameChar mark = false)
    (inert : isInert mark) : TakesInert (readName mark) where
  inert {t u name} h := by
    obtain ⟨rfl, -, run⟩ := (readName_eq_ok ends).mp h
    refine ⟨name ++ [mark], by simp, ?_⟩
    exact (inert_of_names run).append (Inert.cons inert Inert.nil)
  append h k := readName_append ends h _

theorem takesInert_hex {count : Nat} (pos : 0 < count) :
    TakesInert (readEscape.hex count) where
  inert h := by
    obtain ⟨⟨c, u⟩, read, result⟩ := bind_eq_ok.mp h
    cases result
    obtain ⟨s, eq, inert, -⟩ := readHex_ok pos read
    exact ⟨s, eq, inert⟩
  append h k := by
    obtain ⟨⟨c, u⟩, read, result⟩ := bind_eq_ok.mp h
    cases result
    obtain ⟨s, -, -, more⟩ := readHex_ok pos read
    rw [readEscape.hex, more]
    rfl

theorem takesInert_property (caseless negated : Bool) :
    TakesInert (readEscape.property caseless negated) where
  inert h := by
    obtain ⟨⟨name, u⟩, read, rest⟩ := bind_eq_ok.mp h
    obtain ⟨cs, known, result⟩ := bind_eq_ok.mp rest
    cases result
    exact inert_of_readProperty read known
  append h k := by
    obtain ⟨⟨name, u⟩, read, rest⟩ := bind_eq_ok.mp h
    obtain ⟨cs, known, result⟩ := bind_eq_ok.mp rest
    cases result
    rw [readEscape.property, (readProperty_ok read).2, ok_bind]
    dsimp only
    rw [known]
    rfl

theorem takesInert_readBoundary : TakesInert readBoundary where
  inert {t u a} h := by
    have names : boundaries.all fun boundary => boundary.1.toList.all isInert := by decide
    unfold readBoundary at h
    split at h
    next t =>
      rcases Text.splitFirst_cases '\x7d' t with ⟨-, eq⟩ | ⟨name, rest, rfl, -, eq⟩
      · rw [eq] at h
        cases h
      · rw [eq] at h
        dsimp only at h
        split at h
        next known b found =>
          cases h
          have plain := List.all_eq_true.mp names _ (List.mem_of_find?_eq_some found)
          have same := List.find?_some found
          obtain rfl := of_decide_eq_true same
          refine ⟨'\x7b' :: (known.toList ++ ['\x7d']), by simp, ?_⟩
          refine Inert.cons rfl (Inert.append (fun c mem => ?_) (Inert.cons rfl Inert.nil))
          exact List.all_eq_true.mp plain c mem
        next => cases h
    next =>
      cases h
      exact ⟨[], rfl, Inert.nil⟩
  append {t u a} h k := by
    unfold readBoundary at h
    split at h
    next t =>
      rcases Text.splitFirst_cases '\x7d' t with ⟨-, eq⟩ | ⟨name, rest, rfl, free, eq⟩
      · rw [eq] at h
        cases h
      · rw [eq] at h
        dsimp only at h
        simp only [readBoundary, List.append_assoc, List.cons_append,
          Text.splitFirst_append free]
        split at h
        next found =>
          cases h
          rfl
        next => cases h
    next notBrace =>
      cases h
      rw [readBoundary.eq_def]
      split
      next eq =>
        cases t with
        | nil => cases eq
        | cons c t =>
          cases eq
          exact (notBrace t rfl).elim
      next => rfl

theorem takesInert_readOuterEscape (c : Char) : TakesInert (readOuterEscape c) := by
  have angle : TakesInert (readName '>') := takesInert_readName (by decide) rfl
  have quote : TakesInert (readName '\'') := takesInert_readName (by decide) rfl
  unfold readOuterEscape
  cases expressionEscape? c with
  | some r => exact .pure _
  | none =>
    dsimp only
    by_cases boundary : c = 'b'
    · simp only [if_pos boundary]
      exact takesInert_readBoundary.map fun a => Escape.expr (.assert a)
    simp only [if_neg boundary]
    by_cases reference : c = 'k'
    · simp only [if_pos reference]
      constructor
      · intro t u a h
        split at h
        next t => exact (angle.map Escape.backref).behind rfl h
        next t => exact (quote.map Escape.backref).behind rfl h
        next => cases h
      · intro t u a h k
        split at h
        next t => exact (angle.map Escape.backref).append h k
        next t => exact (quote.map Escape.backref).append h k
        next => cases h
    simp only [if_neg reference]
    by_cases letter : c.isAlpha
    · simp only [if_pos letter]
      exact .error _
    · simp only [if_neg letter]
      exact .pure _

theorem takesInert_readInnerEscape (c : Char) : TakesInert (readInnerEscape c) := by
  unfold readInnerEscape
  by_cases backspace : c = 'b'
  · simp only [if_pos backspace]
    exact .pure _
  simp only [if_neg backspace]
  by_cases letter : (c.isAlpha && !plainInClass.contains c) = true
  · simp only [if_pos letter]
    exact .error _
  · simp only [if_neg letter]
    exact .pure _

/-- What an escape may take after its first character. -/
theorem takesInert_readEscape (caseless inClass : Bool) (c : Char) :
    TakesInert fun t => readEscape caseless inClass (c :: t) := by
  unfold readEscape
  dsimp only
  by_cases digit : c.isDigit
  · simp only [if_pos digit]
    exact .error _
  simp only [if_neg digit]
  cases letterEscape? c with
  | some e => exact .pure _
  | none =>
    dsimp only
    by_cases short : c = 'x'
    · simp only [if_pos short]
      exact takesInert_hex (by decide)
    simp only [if_neg short]
    by_cases long : c = 'u'
    · simp only [if_pos long]
      exact takesInert_hex (by decide)
    simp only [if_neg long]
    by_cases longest : c = 'U'
    · simp only [if_pos longest]
      exact takesInert_hex (by decide)
    simp only [if_neg longest]
    by_cases property : c = 'p'
    · simp only [if_pos property]
      exact takesInert_property _ _
    simp only [if_neg property]
    by_cases negated : c = 'P'
    · simp only [if_pos negated]
      exact takesInert_property _ _
    simp only [if_neg negated]
    cases inClass with
    | true => exact takesInert_readInnerEscape c
    | false => exact takesInert_readOuterEscape c

/-- An escape is a character with inert characters behind it. -/
theorem readEscape_ok {caseless inClass : Bool} {t u : Text} {e : Escape}
    (read : readEscape caseless inClass t = .ok (e, u)) :
    ∃ c s, t = c :: (s ++ u) ∧ Inert s ∧
      ∀ k, readEscape caseless inClass (t ++ ')' :: k) = .ok (e, u ++ ')' :: k) := by
  cases t with
  | nil => cases read
  | cons c t =>
    have takes := takesInert_readEscape caseless inClass c
    obtain ⟨s, rfl, inert⟩ := takes.inert read
    exact ⟨c, s, rfl, inert, takes.append read⟩

end UrlRouting.Regex
