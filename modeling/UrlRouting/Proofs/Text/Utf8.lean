import UrlRouting.Text.Utf8

/-!
# The round trip of UTF-8

The reader of bytes finds the characters that have been written (`decode_encode`). The first byte of
a character says how many more there are, and each of these adds six bits to the value.
-/

namespace UrlRouting

/-- What is read in front of anything is read alone. -/
theorem Text.read_alone {β : Type} {read : List β → Text} {written : List β} {t : Text}
    (nothing : read [] = []) (front : ∀ rest, read (written ++ rest) = t ++ read rest) :
    read written = t := by
  have alone := front []
  rw [List.append_nil, nothing, List.append_nil] at alone
  exact alone

namespace Utf8

theorem decodeFrom_cons (state : Option Partial) (b : UInt8) (bytes : List UInt8) :
    decodeFrom state (b :: bytes) =
      (step state b).1 ++ decodeFrom (step state b).2 bytes := by
  cases state <;> rfl

theorem toNat_byte {n : Nat} (small : n < 256) : (UInt8.ofNat n).toNat = n :=
  UInt8.toNat_ofNat_of_lt small

/-! ## First bytes -/

theorem lead_one {n : Nat} (small : n < 0x80) :
    lead (UInt8.ofNat n) = ([Char.ofNat n], none) := by
  rw [lead, toNat_byte (by omega)]
  exact if_pos small

theorem lead_two {n : Nat} (low : 2 ≤ n) (high : n < 0x20) :
    lead (UInt8.ofNat (0xC0 + n)) = ([], some ⟨n, 1, 0x80, 0xBF⟩) := by
  rw [lead, toNat_byte (by omega)]
  rw [if_neg (by omega), if_pos (by omega), Nat.add_sub_cancel_left]

theorem lead_three {n : Nat} (high : n < 0x10) :
    lead (UInt8.ofNat (0xE0 + n)) = ([], some ⟨n, 2, if n = 0 then 0xA0 else 0x80,
      if n = 0xD then 0x9F else 0xBF⟩) := by
  have least : 0xE0 + n = 0xE0 ↔ n = 0 := by omega
  have most : 0xE0 + n = 0xED ↔ n = 0xD := by omega
  rw [lead, toNat_byte (by omega)]
  rw [if_neg (by omega), if_neg (by omega), if_pos (by omega), Nat.add_sub_cancel_left]
  simp only [least, most]

theorem lead_four {n : Nat} (high : n < 5) :
    lead (UInt8.ofNat (0xF0 + n)) = ([], some ⟨n, 3, if n = 0 then 0x90 else 0x80,
      if n = 4 then 0x8F else 0xBF⟩) := by
  have least : 0xF0 + n = 0xF0 ↔ n = 0 := by omega
  have most : 0xF0 + n = 0xF4 ↔ n = 4 := by omega
  rw [lead, toNat_byte (by omega)]
  rw [if_neg (by omega), if_neg (by omega), if_neg (by omega), if_pos (by omega),
    Nat.add_sub_cancel_left]
  simp only [least, most]

/-! ## Further bytes -/

/-- A byte with six bits more in the middle of a character. -/
theorem step_inside {p : Partial} {n : Nat} (small : n < 0x40) (low : p.low ≤ 0x80 + n)
    (high : 0x80 + n ≤ p.high) (owed : 1 < p.owed) :
    step (some p) (UInt8.ofNat (0x80 + n)) =
      ([], some ⟨p.value * 0x40 + n, p.owed - 1, 0x80, 0xBF⟩) := by
  have accepts : p.accepts (UInt8.ofNat (0x80 + n)) = true := by
    rw [Partial.accepts, toNat_byte (by omega)]
    simp [low, high]
  rw [step, if_pos accepts, Partial.advance, toNat_byte (by omega), Nat.add_sub_cancel_left]
  exact if_neg (by omega)

/-- The last byte of a character. -/
theorem step_last {p : Partial} {n : Nat} (small : n < 0x40) (low : p.low ≤ 0x80 + n)
    (high : 0x80 + n ≤ p.high) (owed : p.owed ≤ 1) :
    step (some p) (UInt8.ofNat (0x80 + n)) = ([Char.ofNat (p.value * 0x40 + n)], none) := by
  have accepts : p.accepts (UInt8.ofNat (0x80 + n)) = true := by
    rw [Partial.accepts, toNat_byte (by omega)]
    simp [low, high]
  rw [step, if_pos accepts, Partial.advance, toNat_byte (by omega), Nat.add_sub_cancel_left]
  exact if_pos owed

/-! ## Characters -/

theorem encodeChar_eq (c : Char) : encodeChar c =
    if c.toNat < 0x80 then [UInt8.ofNat c.toNat]
    else if c.toNat < 0x800 then
      [UInt8.ofNat (0xC0 + c.toNat / 0x40), UInt8.ofNat (0x80 + c.toNat % 0x40)]
    else if c.toNat < 0x10000 then [UInt8.ofNat (0xE0 + c.toNat / 0x1000),
      UInt8.ofNat (0x80 + c.toNat / 0x40 % 0x40), UInt8.ofNat (0x80 + c.toNat % 0x40)]
    else [UInt8.ofNat (0xF0 + c.toNat / 0x40000), UInt8.ofNat (0x80 + c.toNat / 0x1000 % 0x40),
      UInt8.ofNat (0x80 + c.toNat / 0x40 % 0x40), UInt8.ofNat (0x80 + c.toNat % 0x40)] := rfl

/-- A character that has been written is read, and the reader is between characters again. -/
theorem decodeFrom_encodeChar (c : Char) (bytes : List UInt8) :
    decodeFrom none (encodeChar c ++ bytes) = c :: decodeFrom none bytes := by
  have valid : c.toNat < 0xD800 ∨ 0xDFFF < c.toNat ∧ c.toNat < 0x110000 := c.valid
  have whole : Char.ofNat c.toNat = c := Char.ofNat_toNat c
  have written := encodeChar_eq c
  generalize c.toNat = n at valid whole written
  rw [written]
  split
  next one =>
    rw [List.singleton_append, decodeFrom_cons, step, lead_one one, whole]
    rfl
  next more =>
  split
  next two =>
    have value : n / 0x40 * 0x40 + n % 0x40 = n := by omega
    simp only [List.cons_append, List.nil_append]
    rw [decodeFrom_cons, step, lead_two (by omega) (by omega), List.nil_append, decodeFrom_cons,
      step_last (by omega) (by dsimp only; omega) (by dsimp only; omega) (Nat.le_refl 1)]
    dsimp only
    rw [value, whole]
    rfl
  next more =>
  split
  next three =>
    have value : (n / 0x1000 * 0x40 + n / 0x40 % 0x40) * 0x40 + n % 0x40 = n := by omega
    simp only [List.cons_append, List.nil_append]
    rw [decodeFrom_cons, step, lead_three (by omega), List.nil_append, decodeFrom_cons,
      step_inside (by omega) (by dsimp only; split <;> omega) (by dsimp only; split <;> omega)
        (by dsimp only; omega),
      List.nil_append, decodeFrom_cons,
      step_last (by omega) (by dsimp only; omega) (by dsimp only; omega) (Nat.le_refl 1)]
    dsimp only
    rw [value, whole]
    rfl
  next four =>
    have value : ((n / 0x40000 * 0x40 + n / 0x1000 % 0x40) * 0x40 + n / 0x40 % 0x40) * 0x40 +
        n % 0x40 = n := by omega
    simp only [List.cons_append, List.nil_append]
    rw [decodeFrom_cons, step, lead_four (by omega), List.nil_append, decodeFrom_cons,
      step_inside (by omega) (by dsimp only; split <;> omega) (by dsimp only; split <;> omega)
        (by dsimp only; omega),
      List.nil_append, decodeFrom_cons,
      step_inside (by omega) (by dsimp only; omega) (by dsimp only; omega) (by dsimp only; omega),
      List.nil_append, decodeFrom_cons,
      step_last (by omega) (by dsimp only; omega) (by dsimp only; omega) (Nat.le_refl 1)]
    dsimp only
    rw [value, whole]
    rfl

theorem encode_cons (c : Char) (t : Text) : encode (c :: t) = encodeChar c ++ encode t :=
  List.flatMap_cons

theorem encode_append (s t : Text) : encode (s ++ t) = encode s ++ encode t :=
  List.flatMap_append

/-- Text that has been written is read, whatever stands behind it. -/
theorem decode_encode_append (t : Text) (bytes : List UInt8) :
    decode (encode t ++ bytes) = t ++ decode bytes := by
  rw [decode]
  induction t with
  | nil => rfl
  | cons c t ih =>
    rw [encode_cons, List.append_assoc, decodeFrom_encodeChar, ih]
    rfl

theorem decode_encode (t : Text) : decode (encode t) = t :=
  Text.read_alone rfl (decode_encode_append t)

/-! ## The bytes of a text -/

theorem utf8Size_eq (c : Char) : c.utf8Size =
    if c.toNat < 0x80 then 1 else if c.toNat < 0x800 then 2 else if c.toNat < 0x10000 then 3
    else 4 := by
  have le {n : Nat} (h : n < UInt32.size) : c.val ≤ UInt32.ofNatLT n h ↔ c.toNat < n + 1 := by
    rw [UInt32.le_iff_toNat_le, UInt32.toNat_ofNatLT, Nat.lt_succ_iff]
    rfl
  rw [Char.utf8Size]
  simp only [le]

theorem length_encodeChar (c : Char) : (encodeChar c).length = c.utf8Size := by
  rw [encodeChar_eq, utf8Size_eq]
  split
  next => rfl
  split
  next => rfl
  split <;> rfl

theorem encodeChar_ne_nil (c : Char) : encodeChar c ≠ [] := by
  refine List.ne_nil_of_length_pos ?_
  rw [length_encodeChar]
  exact c.utf8Size_pos

theorem length_encode (t : Text) : (encode t).length = Text.byteLength t := by
  induction t with
  | nil => rfl
  | cons c t ih =>
    rw [encode_cons, List.length_append, length_encodeChar, ih, Text.byteLength_cons]

/-- Behind the bytes of what stands before it a character has its own bytes. -/
theorem getElem?_encode (s t : Text) {c : Char} {k : Nat} (inside : k < c.utf8Size) :
    (encode (s ++ c :: t))[Text.byteLength s + k]? = (encodeChar c)[k]? := by
  rw [encode_append, encode_cons, ← length_encode,
    List.getElem?_append_right (Nat.le_add_right _ _), Nat.add_sub_cancel_left,
    List.getElem?_append_left (by rw [length_encodeChar]; exact inside)]

/-- A byte is above those that are characters by themselves. -/
def IsHigh (b : UInt8) : Prop := 0x80 ≤ b.toNat

theorem isHigh_ofNat {n : Nat} (low : 0x80 ≤ n) (small : n < 256) : IsHigh (UInt8.ofNat n) := by
  rw [IsHigh, toNat_byte small]
  exact low

/-- A character of several bytes has high bytes only. -/
theorem isHigh_of_mem_encodeChar {c : Char} (large : 0x80 ≤ c.toNat) :
    ∀ b ∈ encodeChar c, IsHigh b := by
  have valid : c.toNat < 0xD800 ∨ 0xDFFF < c.toNat ∧ c.toNat < 0x110000 := c.valid
  have none : ∀ b ∈ ([] : List UInt8), IsHigh b := List.forall_mem_nil _
  rw [encodeChar_eq, if_neg (Nat.not_lt.mpr large)]
  split
  next two =>
    simp only [List.forall_mem_cons]
    exact ⟨isHigh_ofNat (by omega) (by omega), isHigh_ofNat (by omega) (by omega), none⟩
  split
  next three =>
    simp only [List.forall_mem_cons]
    exact ⟨isHigh_ofNat (by omega) (by omega), isHigh_ofNat (by omega) (by omega),
      isHigh_ofNat (by omega) (by omega), none⟩
  next four =>
    simp only [List.forall_mem_cons]
    exact ⟨isHigh_ofNat (by omega) (by omega), isHigh_ofNat (by omega) (by omega),
      isHigh_ofNat (by omega) (by omega), isHigh_ofNat (by omega) (by omega), none⟩

/-- All bytes of a character but the first are high. -/
theorem isHigh_of_getElem? {c : Char} {k : Nat} {b : UInt8}
    (later : (encodeChar c)[k + 1]? = some b) : IsHigh b := by
  by_cases small : c.toNat < 0x80
  · rw [encodeChar_eq, if_pos small] at later
    cases later
  · exact isHigh_of_mem_encodeChar (Nat.not_lt.mp small) b (List.mem_of_getElem? later)

/-! ## Any bytes -/

/-- A character that has begun gives something in the end. -/
theorem decodeFrom_some_ne_nil (p : Partial) (bytes : List UInt8) :
    decodeFrom (some p) bytes ≠ [] := by
  induction bytes generalizing p with
  | nil => exact List.cons_ne_nil _ _
  | cons b bytes ih =>
    rw [decodeFrom_cons, step]
    split
    next =>
      unfold Partial.advance
      dsimp only
      split
      next => exact List.cons_ne_nil _ _
      next => exact ih _
    next => exact List.cons_ne_nil _ _

/-- Bytes are read as some text. -/
theorem decode_ne_nil {bytes : List UInt8} (nonempty : bytes ≠ []) : decode bytes ≠ [] := by
  obtain ⟨b, bytes, rfl⟩ := List.exists_cons_of_ne_nil nonempty
  rw [decode, decodeFrom_cons, step]
  unfold lead
  dsimp only
  split
  next => exact List.cons_ne_nil _ _
  split
  next => exact decodeFrom_some_ne_nil _ _
  split
  next => exact decodeFrom_some_ne_nil _ _
  split
  next => exact decodeFrom_some_ne_nil _ _
  next => exact List.cons_ne_nil _ _

end Utf8

end UrlRouting
