import UrlRouting.Proofs.Text.Percent
import UrlRouting.Proofs.Text.Split

/-!
# The round trip of forms

What is written for a list of pairs is read as this list (`Form.read_write`). A key or value is
written with plus signs for blanks and escapes for everything that has a meaning in a form, so the
pieces between ampersands are the pairs, and in each of them the first equals sign stands behind
the key.
-/

namespace UrlRouting.Form

/-- What a form has for a character. -/
def encodeChar (c : Char) : Text :=
  if isPlain c then [c] else if c = ' ' then ['+'] else Percent.escapeChar c

theorem encode_cons (c : Char) (t : Text) : encode (c :: t) = encodeChar c ++ encode t :=
  List.flatMap_cons

/-! ## Characters of forms -/

/-- Whether a character may stand in a key or value that has been written. -/
def isWritten (c : Char) : Bool := isPlain c || c = '+' || c = '%'

theorem isPlain_hexDigit {n : Nat} (small : n < 16) : isPlain (Percent.hexDigit n) = true := by
  rw [isPlain, Percent.isAlphanum_hexDigit n small, Bool.true_or]

theorem mem_escapeChar {c d : Char} (mem : d ∈ Percent.escapeChar c) :
    isPlain d = true ∨ d = '%' := by
  obtain ⟨b, -, mem⟩ := List.mem_flatMap.mp mem
  have bound : b.toNat < 256 := b.toNat_lt_size
  simp only [Percent.escape, List.mem_cons, List.not_mem_nil, or_false] at mem
  rcases mem with same | same | same
  · exact .inr same
  · rw [same]
    exact .inl (isPlain_hexDigit (by omega))
  · rw [same]
    exact .inl (isPlain_hexDigit (by omega))

theorem isWritten_of_mem_encode {t : Text} {c : Char} (mem : c ∈ encode t) :
    isWritten c = true := by
  obtain ⟨d, -, mem⟩ := List.mem_flatMap.mp mem
  rw [isWritten, Bool.or_eq_true, Bool.or_eq_true, decide_eq_true_eq, decide_eq_true_eq]
  split at mem
  next plain =>
    rw [List.mem_singleton.mp mem]
    exact .inl (.inl plain)
  next =>
  split at mem
  next => exact .inl (.inr (List.mem_singleton.mp mem))
  next => exact (mem_escapeChar mem).elim (fun plain => .inl (.inl plain)) .inr

/-- What separates the parts of a form does not occur in a key or value. -/
theorem notMem_encode {c : Char} (mark : c ∈ ['&', '=']) (t : Text) : c ∉ encode t := by
  intro mem
  have apart : ['&', '='].all fun c => !isWritten c := by decide
  have other := List.all_eq_true.mp apart c mark
  rw [isWritten_of_mem_encode mem] at other
  cases other

/-! ## Keys and values -/

/-- What a form has for a character is read as the bytes of the character. -/
theorem bytes_blanks_encodeChar (c : Char) (t : Text) :
    Percent.bytes (blanks (encodeChar c) ++ t) = Utf8.encodeChar c ++ Percent.bytes t := by
  unfold encodeChar
  split
  next plain =>
    have ne : ∀ d ∈ ['+', '%'], c ≠ d := by
      intro d mem same
      have other : ['+', '%'].all fun d => !isPlain d := by decide
      have fails := List.all_eq_true.mp other d mem
      rw [← same, plain] at fails
      cases fails
    rw [blanks_of_notMem (by simpa using (ne '+' (by simp)).symm), List.singleton_append,
      Percent.bytes_cons (ne '%' (by simp))]
  next =>
  split
  next blank =>
    rw [blank]
    exact Percent.bytes_cons (by decide) t
  next =>
    have free : '+' ∉ Percent.escapeChar c := by
      intro mem
      rcases mem_escapeChar mem with plain | same
      · exact absurd plain (by decide)
      · exact absurd same (by decide)
    rw [blanks_of_notMem free, Percent.bytes_escapeChar]

theorem bytes_blanks_encode (t : Text) : Percent.bytes (blanks (encode t)) = Utf8.encode t := by
  induction t with
  | nil => rfl
  | cons c t ih =>
    rw [encode_cons, blanks_append, bytes_blanks_encodeChar, ih, Utf8.encode_cons]

/-- A key or value is read as the text that has been written. -/
theorem decode_of_encode (t : Text) : decode (encode t) = t := by
  change Utf8.decode (Percent.bytes (blanks (encode t))) = t
  rw [bytes_blanks_encode, Utf8.decode_encode]

/-! ## Pairs -/

section

variable {write : Text × Text → Text}

/-- Pairs with ampersands between them are read as these pairs if each of them is read by itself and
has no ampersand. -/
theorem read_joinWith (free : ∀ pair, '&' ∉ write pair)
    (reads : ∀ pair, write pair ≠ [] ∧ readPair (write pair) = pair) (pairs : List (Text × Text)) :
    read (Text.joinWith '&' (pairs.map write)) = pairs := by
  cases pairs with
  | nil => rfl
  | cons first rest =>
    generalize whole : first :: rest = pairs
    have nonempty : pairs.map write ≠ [] := by
      rw [← whole]
      exact List.cons_ne_nil _ _
    have parts : Text.pieces '&' (Text.joinWith '&' (pairs.map write)) = pairs.map write := by
      apply Text.pieces_joinWith _ nonempty
      intro t mem
      obtain ⟨pair, -, same⟩ := List.mem_map.mp mem
      rw [← same]
      exact free pair
    have full : (pairs.map write).filter (· ≠ []) = pairs.map write := by
      apply List.filter_eq_self.mpr
      intro t mem
      obtain ⟨pair, -, same⟩ := List.mem_map.mp mem
      rw [← same]
      exact decide_eq_true (reads pair).1
    rw [read, parts, full, List.map_map]
    exact (List.map_congr_left fun pair _ => (reads pair).2).trans (List.map_id pairs)

end

/-- The pairs of two forms with an ampersand between them are those of the first and then those of
the second. -/
theorem read_append (s t : Text) : read (s ++ '&' :: t) = read s ++ read t := by
  rw [read, Text.pieces_append, List.filter_append, List.map_append]
  rfl

theorem readPair_writePair (pair : Text × Text) : readPair (writePair pair) = pair := by
  have split := Text.splitFirst_append (notMem_encode (c := '=') (by decide) pair.1)
    (encode pair.2)
  rw [readPair, writePair, split]
  dsimp only
  rw [Option.getD_some, decode_of_encode, decode_of_encode]

theorem notMem_writePair (pair : Text × Text) : '&' ∉ writePair pair := by
  intro mem
  rcases List.mem_append.mp mem with key | mem
  · exact notMem_encode (by decide) pair.1 key
  · rcases List.mem_cons.mp mem with same | value
    · exact absurd same (by decide)
    · exact notMem_encode (by decide) pair.2 value

/-- What is written for a list of pairs is read as this list. -/
theorem read_write (pairs : List (Text × Text)) : read (write pairs) = pairs := by
  apply read_joinWith notMem_writePair
  intro pair
  exact ⟨by simp [writePair], readPair_writePair pair⟩

end UrlRouting.Form
