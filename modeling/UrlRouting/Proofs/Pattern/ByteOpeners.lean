import UrlRouting.Proofs.Pattern.Openers
import UrlRouting.Proofs.Text.Utf8

/-!
# The scanner of constraints on bytes

`Constraint.openers` goes from character to character. The same parentheses are found by a walk over
the bytes of a constraint that knows nothing of characters and passes two bytes at a backslash
(`Constraint.byteOpeners?_eq`). Behind an escaped character of several bytes the walk stands inside
that character. The bytes that it meets there are none of the marks it looks for, so it comes to the
end of the character in the state in which it was (`Constraint.byteOpenersFrom?_inside`); where it
takes the text behind a parenthesis, it stands at the end of a character.
-/

namespace UrlRouting

/-! ## Rests of a text -/

namespace Text

/-- The text from a byte offset on, if a character begins there or the text ends there. -/
def fromByte? : Text → Nat → Option Text
  | t, 0 => some t
  | [], _ + 1 => none
  | c :: t, n + 1 => if c.utf8Size ≤ n + 1 then fromByte? t (n + 1 - c.utf8Size) else none

/-- A text ends with a rest that begins at a byte offset. -/
def RestAt (t : Text) (i : Nat) (rest : Text) : Prop := ∃ s, t = s ++ rest ∧ byteLength s = i

variable {t rest : Text} {i : Nat} {c : Char}

theorem restAt_zero (t : Text) : t.RestAt 0 t := ⟨[], rfl, rfl⟩

theorem RestAt.tail (rests : t.RestAt i (c :: rest)) : t.RestAt (i + c.utf8Size) rest := by
  obtain ⟨s, rfl, rfl⟩ := rests
  exact ⟨s ++ [c], by simp, by simp⟩

theorem fromByte?_append (s t : Text) : fromByte? (s ++ t) (byteLength s) = some t := by
  induction s with
  | nil => cases t <;> rfl
  | cons c s ih =>
    obtain ⟨n, size⟩ := Nat.exists_eq_add_one_of_ne_zero (Nat.ne_of_gt c.utf8Size_pos)
    have offset : byteLength (c :: s) = byteLength s + n + 1 := by
      rw [byteLength_cons, size]
      omega
    have left : byteLength s + n + 1 - (n + 1) = byteLength s := by omega
    rw [offset, List.cons_append, fromByte?, size, if_pos (by omega), left, ih]

theorem head?_ne (other : ∀ u, t = c :: u → False) : t.head? ≠ some c := by
  intro first
  obtain ⟨u, whole⟩ := List.head?_eq_some_iff.mp first
  exact other u whole

theorem RestAt.fromByte? (rests : t.RestAt i rest) : t.fromByte? i = some rest := by
  obtain ⟨s, rfl, rfl⟩ := rests
  exact fromByte?_append s rest

end Text

namespace Constraint

open Text (RestAt)

/-! ## The walk -/

/-- Whether the byte at an offset is that of a mark. -/
def hasMark (t : Text) (i : Nat) (m : Char) : Bool :=
  (Utf8.encode t)[i]? == some (UInt8.ofNat m.toNat)

/-- Where the items of a class begin whose bracket stands right before an offset: behind a caret,
and behind a closing bracket that stands for itself. -/
def classItems (t : Text) (i : Nat) : Nat :=
  let i := if hasMark t i '^' then i + 1 else i
  if hasMark t i ']' then i + 1 else i

theorem le_classItems (t : Text) (i : Nat) : i ≤ classItems t i := by
  unfold classItems
  dsimp only
  split <;> split <;> omega

/-- The parentheses that open groups, from a byte offset on, inside a class or outside of all. Two
bytes are passed at a backslash and one elsewhere. There is no result if the text is taken from the
middle of a character on. -/
def byteOpenersFrom? (t : Text) (inClass : Bool) (i : Nat) : Option (List (Nat × GroupKind)) :=
  if i < (Utf8.encode t).length then
    if hasMark t i '\\' then byteOpenersFrom? t inClass (i + 2)
    else if !inClass && hasMark t i '[' then byteOpenersFrom? t true (classItems t (i + 1))
    else if inClass && hasMark t i ']' then byteOpenersFrom? t false (i + 1)
    else if !inClass && hasMark t i '(' then
      match t.fromByte? (i + 1) with
      | some rest => (byteOpenersFrom? t inClass (i + 1)).map ((i, classify rest) :: ·)
      | none => none
    else byteOpenersFrom? t inClass (i + 1)
  else some []
termination_by (Utf8.encode t).length - i
decreasing_by
  · omega
  · have := le_classItems t (i + 1)
    omega
  · omega
  · omega
  · omega

/-- The parentheses that open groups, with their byte offsets, found on the bytes of a constraint. -/
def byteOpeners? (t : Text) : Option (List (Nat × GroupKind)) := byteOpenersFrom? t false 0

/-! ## Marks -/

variable {t rest : Text} {i k : Nat} {c m : Char}

theorem ne_mark_of_isHigh {b : UInt8} (high : Utf8.IsHigh b) (small : m.toNat < 0x80) :
    b ≠ UInt8.ofNat m.toNat := by
  rintro rfl
  rw [Utf8.IsHigh, Utf8.toNat_byte (by omega)] at high
  omega

/-- At the beginning of a character the walk sees the mark that is there. -/
theorem hasMark_of_restAt (rests : t.RestAt i rest) (small : m.toNat < 0x80) :
    hasMark t i m = (rest.head? == some m) := by
  obtain ⟨s, rfl, rfl⟩ := rests
  rw [hasMark, Bool.eq_iff_iff, beq_iff_eq, beq_iff_eq]
  cases rest with
  | nil =>
    rw [List.append_nil, ← Utf8.length_encode, List.getElem?_eq_none (Nat.le_refl _)]
    exact iff_of_false (Option.some_ne_none _).symm (Option.some_ne_none _).symm
  | cons c rest =>
    have first := Utf8.getElem?_encode s rest (c := c) (k := 0) c.utf8Size_pos
    rw [Nat.add_zero] at first
    rw [first, List.head?_cons, Option.some.injEq]
    by_cases plain : c.toNat < 0x80
    · rw [Utf8.encodeChar_eq, if_pos plain, List.getElem?_cons_zero, Option.some.injEq]
      constructor
      · intro same
        have value := congrArg UInt8.toNat same
        rw [Utf8.toNat_byte (by omega), Utf8.toNat_byte (by omega)] at value
        rw [← Char.ofNat_toNat c, value, Char.ofNat_toNat]
      · rintro rfl
        rfl
    · refine iff_of_false (fun same => ?_) (fun same => plain (same ▸ small))
      exact ne_mark_of_isHigh (Utf8.isHigh_of_mem_encodeChar (Nat.not_lt.mp plain) _
        (List.mem_of_getElem? same)) small rfl

/-- Inside a character there is no mark. -/
theorem hasMark_inside (rests : t.RestAt i (c :: rest)) (inside : k + 1 < c.utf8Size)
    (small : m.toNat < 0x80) : hasMark t (i + (k + 1)) m = false := by
  obtain ⟨s, rfl, rfl⟩ := rests
  rw [hasMark, Utf8.getElem?_encode s rest inside]
  cases byte : (Utf8.encodeChar c)[k + 1]? with
  | none => rfl
  | some b =>
    refine beq_eq_false_iff_ne.mpr fun same => ?_
    exact ne_mark_of_isHigh (Utf8.isHigh_of_getElem? byte) small (Option.some.inj same)

theorem lt_length_of_restAt (rests : t.RestAt i (c :: rest)) (inside : k < c.utf8Size) :
    i + k < (Utf8.encode t).length := by
  obtain ⟨s, rfl, rfl⟩ := rests
  rw [Utf8.length_encode, Text.byteLength_append, Text.byteLength_cons]
  omega

theorem classItems_caret (rests : t.RestAt i ('^' :: rest)) :
    classItems t i = if rest.head? = some ']' then i + 2 else i + 1 := by
  have behind : t.RestAt (i + 1) rest := rests.tail
  have caret : hasMark t i '^' = true := by
    rw [hasMark_of_restAt rests (by decide)]
    rfl
  rw [classItems, if_pos caret, hasMark_of_restAt behind (by decide)]
  simp only [beq_iff_eq]

theorem classItems_of_ne (rests : t.RestAt i rest) (other : rest.head? ≠ some '^') :
    classItems t i = if rest.head? = some ']' then i + 1 else i := by
  have caret : ¬ hasMark t i '^' = true := by
    rw [hasMark_of_restAt rests (by decide), beq_iff_eq]
    exact other
  rw [classItems, if_neg caret, hasMark_of_restAt rests (by decide)]
  simp only [beq_iff_eq]

/-! ## The walk along characters -/

/-- The walk has come to the end. -/
theorem byteOpenersFrom?_end (rests : t.RestAt i []) (inClass : Bool) (k : Nat) :
    byteOpenersFrom? t inClass (i + k) = some [] := by
  obtain ⟨s, rfl, rfl⟩ := rests
  rw [byteOpenersFrom?, if_neg]
  rw [Utf8.length_encode, List.append_nil]
  omega

/-- Inside a character the walk goes on to its end and changes nothing. -/
theorem byteOpenersFrom?_inside (rests : t.RestAt i (c :: rest)) (inClass : Bool) (first : 1 ≤ k)
    (inside : k ≤ c.utf8Size) :
    byteOpenersFrom? t inClass (i + k) = byteOpenersFrom? t inClass (i + c.utf8Size) := by
  obtain ⟨left, size⟩ := Nat.exists_eq_add_of_le inside
  induction left generalizing k with
  | zero => rw [size, Nat.add_zero]
  | succ left ih =>
    obtain ⟨k, rfl⟩ := Nat.exists_eq_add_of_le' first
    have more : k + 1 < c.utf8Size := by omega
    rw [← ih (k := k + 1 + 1) (by omega) (by omega) (by omega), byteOpenersFrom?,
      if_pos (lt_length_of_restAt rests more)]
    simp only [hasMark_inside rests more (show '\\'.toNat < 0x80 by decide),
      hasMark_inside rests more (show '['.toNat < 0x80 by decide),
      hasMark_inside rests more (show ']'.toNat < 0x80 by decide),
      hasMark_inside rests more (show '('.toNat < 0x80 by decide), Bool.and_false,
      Bool.false_eq_true, if_false]
    rfl

/-- What the walk does at the beginning of a character. -/
theorem byteOpenersFrom?_cons (rests : t.RestAt i (c :: rest)) (inClass : Bool) :
    byteOpenersFrom? t inClass i =
      if c = '\\' then byteOpenersFrom? t inClass (i + 2)
      else if inClass = false ∧ c = '[' then byteOpenersFrom? t true (classItems t (i + 1))
      else if inClass = true ∧ c = ']' then byteOpenersFrom? t false (i + 1)
      else if inClass = false ∧ c = '(' then
        (byteOpenersFrom? t inClass (i + 1)).map ((i, classify rest) :: ·)
      else byteOpenersFrom? t inClass (i + c.utf8Size) := by
  have mark {m : Char} (small : m.toNat < 0x80) : (hasMark t i m = true) = (c = m) := by
    rw [hasMark_of_restAt rests small]
    simp
  have short : i < (Utf8.encode t).length := lt_length_of_restAt rests c.utf8Size_pos
  rw [← byteOpenersFrom?_inside rests inClass (Nat.le_refl 1) c.utf8Size_pos, byteOpenersFrom?,
    if_pos short]
  simp only [Bool.and_eq_true, Bool.not_eq_true', mark (show '\\'.toNat < 0x80 by decide),
    mark (show '['.toNat < 0x80 by decide), mark (show ']'.toNat < 0x80 by decide),
    mark (show '('.toNat < 0x80 by decide)]
  split
  next => rfl
  split
  next => rfl
  split
  next => rfl
  split
  next opens =>
    obtain ⟨-, rfl⟩ := opens
    have behind : t.fromByte? (i + 1) = some rest := rests.tail.fromByte?
    rw [behind]
  next => rfl

/-- A class is entered at its bracket. -/
theorem byteOpenersFrom?_class (rests : t.RestAt i ('[' :: rest)) :
    byteOpenersFrom? t false i = byteOpenersFrom? t true (classItems t (i + 1)) := by
  rw [byteOpenersFrom?_cons rests, if_neg (by decide), if_pos ⟨rfl, rfl⟩]

/-- From the beginning of a character on the walk finds what is found from character to
character. -/
theorem byteOpenersFrom?_eq (rests : t.RestAt i rest) (inClass : Bool) :
    byteOpenersFrom? t inClass i = some (openersFrom inClass i rest) := by
  fun_induction openersFrom inClass i rest with
  | case1 inClass i => exact byteOpenersFrom?_end rests inClass 0
  | case2 inClass i c rest ih =>
    have escaped : t.RestAt (i + 1) (c :: rest) := rests.tail
    rw [byteOpenersFrom?_cons rests, if_pos rfl, ← ih escaped.tail]
    exact byteOpenersFrom?_inside escaped inClass (Nat.le_refl 1) c.utf8Size_pos
  | case3 i rest ih =>
    have items : t.RestAt (i + 1) ('^' :: ']' :: rest) := rests.tail
    rw [byteOpenersFrom?_class rests, classItems_caret items, if_pos List.head?_cons]
    exact ih items.tail.tail
  | case4 i rest other ih =>
    have items : t.RestAt (i + 1) ('^' :: rest) := rests.tail
    rw [byteOpenersFrom?_class rests, classItems_caret items, if_neg (Text.head?_ne other)]
    exact ih items.tail
  | case5 i rest ih =>
    have items : t.RestAt (i + 1) (']' :: rest) := rests.tail
    rw [byteOpenersFrom?_class rests, classItems_of_ne items (by simp), if_pos List.head?_cons]
    exact ih items.tail
  | case6 i rest _ negation close ih =>
    have items : t.RestAt (i + 1) rest := rests.tail
    rw [byteOpenersFrom?_class rests, classItems_of_ne items (Text.head?_ne negation),
      if_neg (Text.head?_ne close)]
    exact ih items
  | case7 i rest ih =>
    rw [byteOpenersFrom?_cons rests, if_neg (by decide), if_neg (by simp), if_pos ⟨rfl, rfl⟩]
    exact ih rests.tail
  | case8 i rest ih =>
    rw [byteOpenersFrom?_cons rests, if_neg (by decide), if_neg (by simp), if_neg (by simp),
      if_pos ⟨rfl, rfl⟩]
    have behind : byteOpenersFrom? t false (i + 1) = some (openersFrom false (i + 1) rest) :=
      ih rests.tail
    rw [behind]
    rfl
  | case9 inClass i c rest escape _ _ _ bracket close group ih =>
    rw [byteOpenersFrom?_cons rests]
    split
    next last =>
      -- a backslash that has nothing to escape takes the walk behind the end
      subst last
      cases rest with
      | nil => exact byteOpenersFrom?_end rests.tail inClass 1
      | cons d rest => exact absurd rfl (escape d rest rfl)
    next =>
      rw [if_neg fun h => bracket h.1 h.2, if_neg fun h => close h.1 h.2,
        if_neg fun h => group h.1 h.2]
      exact ih rests.tail

/-! ## Where groups open -/

/-- An opener is reported where a parenthesis stands, with the kind that the text behind it says. -/
def Located (t : Text) (e : Nat × GroupKind) : Prop :=
  ∃ behind, t.RestAt e.1 ('(' :: behind) ∧ e.2 = classify behind

/-- From a place on the scanner reports parentheses at or behind it, in order. -/
theorem located_openersFrom (rests : t.RestAt i rest) (inClass : Bool) :
    (∀ e ∈ openersFrom inClass i rest, i ≤ e.1 ∧ Located t e) ∧
      (openersFrom inClass i rest).Pairwise fun e later => e.1 < later.1 := by
  have later {i j : Nat} {es : List (Nat × GroupKind)} (le : i ≤ j)
      (found : (∀ e ∈ es, j ≤ e.1 ∧ Located t e) ∧ es.Pairwise fun e later => e.1 < later.1) :
      (∀ e ∈ es, i ≤ e.1 ∧ Located t e) ∧ es.Pairwise fun e later => e.1 < later.1 :=
    ⟨fun e mem => ⟨Nat.le_trans le (found.1 e mem).1, (found.1 e mem).2⟩, found.2⟩
  fun_induction openersFrom inClass i rest with
  | case1 => exact ⟨List.forall_mem_nil _, .nil⟩
  | case2 inClass i c rest ih =>
    have escaped : t.RestAt (i + 1) (c :: rest) := rests.tail
    exact later (by omega) (ih escaped.tail)
  | case3 i rest ih => exact later (by omega) (ih rests.tail.tail.tail)
  | case4 i rest _ ih => exact later (by omega) (ih rests.tail.tail)
  | case5 i rest ih => exact later (by omega) (ih rests.tail.tail)
  | case6 i rest _ _ _ ih => exact later (by omega) (ih rests.tail)
  | case7 i rest ih => exact later (by omega) (ih rests.tail)
  | case8 i rest ih =>
    obtain ⟨found, ordered⟩ := ih rests.tail
    refine ⟨List.forall_mem_cons.mpr ⟨⟨Nat.le_refl i, rest, rests, rfl⟩, fun e mem => ?_⟩,
      List.pairwise_cons.mpr ⟨fun e mem => (found e mem).1, ordered⟩⟩
    exact ⟨Nat.le_of_succ_le (found e mem).1, (found e mem).2⟩
  | case9 inClass i c rest _ _ _ _ _ _ _ ih => exact later (by omega) (ih rests.tail)

/-- The walk over the bytes of any constraint comes to its end, with the openers that are found from
character to character. Their offsets increase, and each is that of a parenthesis; the text that is
taken behind it begins where a character begins, or is empty. -/
theorem byteOpeners?_eq (t : Text) :
    byteOpeners? t = some (openers t) ∧
      (openers t).Pairwise (fun e later => e.1 < later.1) ∧
      ∀ e ∈ openers t, ∃ before behind, t = before ++ '(' :: behind ∧
        e.1 = Text.byteLength before ∧ t.fromByte? (e.1 + 1) = some behind ∧
        e.2 = classify behind := by
  obtain ⟨found, ordered⟩ := located_openersFrom t.restAt_zero false
  refine ⟨byteOpenersFrom?_eq t.restAt_zero false, ordered, fun e mem => ?_⟩
  obtain ⟨-, behind, rests, kind⟩ := found e mem
  have taken : t.fromByte? (e.1 + 1) = some behind := rests.tail.fromByte?
  obtain ⟨before, whole, offset⟩ := rests
  exact ⟨before, behind, whole, offset.symm, taken, kind⟩

end Constraint

end UrlRouting
