import UrlRouting.Proofs.Text.Utf8
import UrlRouting.Text.Form

/-!
# The round trip of escapes

A text that has been written as a component is read again, by the reader of escapes
(`Percent.decode_encode_append`) and by the reader of forms (`Form.decode_encode_append`), since no
plus sign is left in it. What stands behind it is read by itself. Nothing in it separates the parts
of a URL.
-/

namespace UrlRouting

namespace Percent

theorem hexValue?_hexDigit : ∀ n < 16, Unicode.hexValue? (hexDigit n) = some n := by decide

theorem isAlphanum_hexDigit : ∀ n < 16, (hexDigit n).isAlphanum = true := by decide

theorem bytes_escape (b : UInt8) (t : Text) : bytes (escape b ++ t) = b :: bytes t := by
  have bound : b.toNat < 256 := b.toNat_lt_size
  have value : 16 * (b.toNat / 16) + b.toNat % 16 = b.toNat := by omega
  simp only [escape, List.cons_append, List.nil_append]
  rw [bytes, hexValue?_hexDigit _ (by omega), hexValue?_hexDigit _ (by omega)]
  dsimp only
  rw [value, UInt8.ofNat_toNat]

theorem bytes_cons {c : Char} (plain : c ≠ '%') (t : Text) :
    bytes (c :: t) = Utf8.encodeChar c ++ bytes t := by
  rw [bytes.eq_def]
  split
  next eq => cases eq
  next eq =>
    cases eq
    exact absurd rfl plain
  next eq =>
    cases eq
    rfl

/-- A text without escapes is read as itself, in front of any other one. -/
theorem bytes_append_of_notMem {t : Text} (plain : '%' ∉ t) (u : Text) :
    bytes (t ++ u) = Utf8.encode t ++ bytes u := by
  induction t with
  | nil => rfl
  | cons c t ih =>
    simp only [List.mem_cons, not_or] at plain
    rw [List.cons_append, bytes_cons (Ne.symm plain.1), ih plain.2, Utf8.encode_cons,
      List.append_assoc]

theorem bytes_escapeChar (c : Char) (t : Text) :
    bytes (escapeChar c ++ t) = Utf8.encodeChar c ++ bytes t := by
  rw [escapeChar]
  induction Utf8.encodeChar c with
  | nil => rfl
  | cons b bs ih => rw [List.flatMap_cons, List.append_assoc, bytes_escape, ih, List.cons_append]

theorem encode_cons (c : Char) (t : Text) :
    encode (c :: t) = (if isComponentChar c then [c] else escapeChar c) ++ encode t :=
  List.flatMap_cons

/-- A component is read as the bytes of the text that has been written, in front of any other
text. -/
theorem bytes_encode_append (t u : Text) : bytes (encode t ++ u) = Utf8.encode t ++ bytes u := by
  induction t with
  | nil => rfl
  | cons c t ih =>
    rw [encode_cons, Utf8.encode_cons, List.append_assoc, List.append_assoc]
    split
    next component =>
      have plain : c ≠ '%' := by
        rintro rfl
        exact absurd component (by decide)
      rw [List.singleton_append, bytes_cons plain, ih]
    next => rw [bytes_escapeChar, ih]

/-- A component is read as the text that has been written, whatever stands behind it. -/
theorem decode_encode_append (t u : Text) : decode (encode t ++ u) = t ++ decode u := by
  rw [decode, bytes_encode_append, Utf8.decode_encode_append]
  rfl

theorem decode_encode (t : Text) : decode (encode t) = t :=
  Text.read_alone rfl (decode_encode_append t)

/-- A text without escapes is read as itself, whatever stands behind it. -/
theorem decode_append_of_notMem {t : Text} (plain : '%' ∉ t) (u : Text) :
    decode (t ++ u) = t ++ decode u := by
  rw [decode, bytes_append_of_notMem plain, Utf8.decode_encode_append]
  rfl

theorem decode_of_notMem {t : Text} (plain : '%' ∉ t) : decode t = t :=
  Text.read_alone rfl (decode_append_of_notMem plain)

/-- The characters of components. -/
theorem mem_encode {t : Text} {c : Char} (mem : c ∈ encode t) : isComponentChar c ∨ c = '%' := by
  obtain ⟨d, -, mem⟩ := List.mem_flatMap.mp mem
  split at mem
  next component =>
    obtain rfl := List.mem_singleton.mp mem
    exact .inl component
  next =>
    obtain ⟨b, -, mem⟩ := List.mem_flatMap.mp mem
    have bound : b.toNat < 256 := b.toNat_lt_size
    simp only [escape, List.mem_cons, List.not_mem_nil, or_false] at mem
    rcases mem with rfl | rfl | rfl
    · exact .inr rfl
    · exact .inl (Bool.or_eq_true_iff.mpr (.inl (isAlphanum_hexDigit _ (by omega))))
    · exact .inl (Bool.or_eq_true_iff.mpr (.inl (isAlphanum_hexDigit _ (by omega))))

/-- What separates the parts of a URL does not occur in components. -/
theorem notMem_encode {c : Char} (mark : c ∈ ['/', '?', '&', '=', '+']) (t : Text) :
    c ∉ encode t := by
  intro mem
  have apart : ['/', '?', '&', '=', '+'].all fun c => !isComponentChar c && c != '%' := rfl
  have other := Bool.and_eq_true_iff.mp (List.all_eq_true.mp apart c mark)
  rcases mem_encode mem with kept | rfl
  · rw [kept] at other
    exact Bool.noConfusion other.1
  · exact Bool.noConfusion other.2

theorem encode_ne_nil {t : Text} (nonempty : t ≠ []) : encode t ≠ [] := by
  intro none
  have same := decode_encode t
  rw [none] at same
  exact nonempty same.symm

theorem bytes_ne_nil {t : Text} (nonempty : t ≠ []) : bytes t ≠ [] := by
  have written (c : Char) (bs : List UInt8) : Utf8.encodeChar c ++ bs ≠ [] :=
    List.append_ne_nil_of_left_ne_nil (Utf8.encodeChar_ne_nil c) bs
  rw [bytes.eq_def]
  split
  next => exact absurd rfl nonempty
  next =>
    split
    next => exact List.cons_ne_nil _ _
    next => exact written _ _
  next => exact written _ _

/-- A text that is not empty is read as one that is not empty. -/
theorem decode_ne_nil {t : Text} (nonempty : t ≠ []) : decode t ≠ [] :=
  Utf8.decode_ne_nil (bytes_ne_nil nonempty)

end Percent

namespace Form

/-- The first step of reading: plus signs become blanks. -/
def blanks (t : Text) : Text := t.map fun c => if c = '+' then ' ' else c

theorem blanks_append (s t : Text) : blanks (s ++ t) = blanks s ++ blanks t := List.map_append

theorem blanks_of_notMem {t : Text} (free : '+' ∉ t) : blanks t = t := by
  apply (List.map_congr_left fun c mem => if_neg ?_).trans (List.map_id t)
  intro same
  rw [same] at mem
  exact free mem

/-- A component is read by the reader of forms, too. -/
theorem decode_encode_append (t u : Text) : decode (Percent.encode t ++ u) = t ++ decode u := by
  change Percent.decode (blanks (Percent.encode t ++ u)) = t ++ Percent.decode (blanks u)
  rw [blanks_append, blanks_of_notMem (Percent.notMem_encode (by decide) t),
    Percent.decode_encode_append]

theorem decode_encode (t : Text) : decode (Percent.encode t) = t :=
  Text.read_alone rfl (decode_encode_append t)

theorem decode_plus (t : Text) : decode ('+' :: t) = ' ' :: decode t :=
  Percent.decode_append_of_notMem (t := [' ']) (by decide) (blanks t)

end Form

end UrlRouting
