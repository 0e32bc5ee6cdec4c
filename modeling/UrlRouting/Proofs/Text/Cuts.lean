import UrlRouting.Proofs.Text.Percent

/-!
# Cuts of decoded texts

Where a text with escapes is read, each character comes from a piece of that text: from itself, from
the escapes of its bytes, or, if it is U+FFFD, from escapes whose bytes are no character. So a cut
of what has been read is a cut of the text (`Percent.exists_cut`), and a contiguous piece of it has
been read from a contiguous piece of the text (`Percent.exists_infix`).

The reader of bytes is followed token by token. What a token gives is a character, behind which the
reader stands between characters, or the part of a character (`Utf8.Gives`). In front of a token
that does not go on with a character that has begun, that character is given up (`Utf8.Refuses`).
-/

namespace UrlRouting

namespace Utf8

/-- A character that has begun goes on with bytes from 0x80 to 0xBF only. -/
def Partial.Inner (p : Partial) : Prop := 0x80 ≤ p.low ∧ p.high ≤ 0xBF

/-- A character behind which the reader stands between characters, or none while one has begun. -/
inductive Gives : Text × Option Partial → Prop
  | char (c : Char) : Gives ([c], none)
  | part {p : Partial} : p.Inner → Gives ([], some p)

theorem gives_lead (b : UInt8) : Gives (lead b) := by
  unfold lead
  dsimp only
  split
  next => exact .char _
  split
  next => exact .part ⟨Nat.le_refl _, Nat.le_refl _⟩
  split
  next =>
    refine .part ⟨?_, ?_⟩
    · dsimp only
      split <;> omega
    · dsimp only
      split <;> omega
  split
  next =>
    refine .part ⟨?_, ?_⟩
    · dsimp only
      split <;> omega
    · dsimp only
      split <;> omega
  next => exact .char _

theorem gives_advance (p : Partial) (b : UInt8) : Gives (p.advance b) := by
  unfold Partial.advance
  dsimp only
  split
  next => exact .char _
  next => exact .part ⟨Nat.le_refl _, Nat.le_refl _⟩

/-- Some bytes are read together from a state on: they give a character or the part of one. -/
def Reads (s : Option Partial) (bs : List UInt8) : Prop :=
  ∃ r, Gives r ∧ ∀ rest, decodeFrom s (bs ++ rest) = r.1 ++ decodeFrom r.2 rest

/-- Some bytes do not go on with a character that has begun. -/
def Refuses (p : Partial) (bs : List UInt8) : Prop :=
  ∀ rest, decodeFrom (some p) (bs ++ rest) = replacement :: decodeFrom none (bs ++ rest)

theorem reads_byte (b : UInt8) : Reads none [b] :=
  ⟨lead b, gives_lead b, fun rest => decodeFrom_cons none b rest⟩

theorem reads_char (c : Char) : Reads none (encodeChar c) :=
  ⟨_, .char c, fun rest => decodeFrom_encodeChar c rest⟩

theorem refuses_of_not_accepts {p : Partial} {b : UInt8} (h : p.accepts b = false)
    (bs : List UInt8) : Refuses p (b :: bs) := by
  intro rest
  have refused : ¬ p.accepts b = true := by simp [h]
  rw [List.cons_append, decodeFrom_cons, step, if_neg refused, decodeFrom_cons none]
  rfl

theorem reads_or_refuses_byte (p : Partial) (b : UInt8) : Reads (some p) [b] ∨ Refuses p [b] := by
  cases accepted : p.accepts b with
  | true =>
    refine .inl ⟨p.advance b, gives_advance p b, fun rest => ?_⟩
    rw [List.singleton_append, decodeFrom_cons, step, if_pos accepted]
  | false => exact .inr (refuses_of_not_accepts accepted [])

/-- The first byte of a character does not go on with another one. -/
theorem refuses_char {p : Partial} (inner : p.Inner) (c : Char) : Refuses p (encodeChar c) := by
  obtain ⟨low, high⟩ := inner
  have valid : c.toNat < 0xD800 ∨ 0xDFFF < c.toNat ∧ c.toNat < 0x110000 := c.valid
  have refused {n : Nat} (small : n < 256) (outside : n < 0x80 ∨ 0xBF < n) :
      p.accepts (UInt8.ofNat n) = false := by
    rw [Partial.accepts, toNat_byte small, Bool.and_eq_false_iff, decide_eq_false_iff_not,
      decide_eq_false_iff_not]
    omega
  rw [encodeChar_eq]
  split
  next one => exact refuses_of_not_accepts (refused (by omega) (by omega)) _
  split
  next two => exact refuses_of_not_accepts (refused (by omega) (by omega)) _
  split
  next three => exact refuses_of_not_accepts (refused (by omega) (by omega)) _
  next four => exact refuses_of_not_accepts (refused (by omega) (by omega)) _

end Utf8

namespace Percent

open Utf8

/-- The first token of a text, an escape or a character that begins none, and its bytes. They are
the same in front of any beginning of what follows. -/
structure Token (token : Text) (bs : List UInt8) (rest : Text) : Prop where
  written : ∀ u, u <+: rest → bytes (token ++ u) = bs ++ bytes u
  kind : (∃ b, bs = [b]) ∨ ∃ c, bs = encodeChar c
  nonempty : token ≠ []

theorem token_char {c : Char} {t : Text}
    (plain : ∀ h l u, c :: t = '%' :: h :: l :: u →
      Unicode.hexValue? h = none ∨ Unicode.hexValue? l = none) :
    Token [c] (encodeChar c) t := by
  refine ⟨fun u mem => ?_, .inr ⟨c, rfl⟩, List.cons_ne_nil _ _⟩
  obtain ⟨v, rfl⟩ := mem
  rw [List.singleton_append, bytes.eq_def]
  split
  next eq => cases eq
  next h l w eq =>
    cases eq
    rcases plain h l (w ++ v) rfl with high | low
    · rw [high]
    · rw [low]
      cases Unicode.hexValue? h <;> rfl
  next eq =>
    cases eq
    rfl

/-- A text that is not empty has a first token. -/
theorem exists_token {t : Text} (nonempty : t ≠ []) :
    ∃ token bs rest, t = token ++ rest ∧ Token token bs rest := by
  obtain ⟨c, t, rfl⟩ := List.exists_cons_of_ne_nil nonempty
  by_cases escaped : ∃ h l u, c :: t = '%' :: h :: l :: u ∧
      (Unicode.hexValue? h).isSome = true ∧ (Unicode.hexValue? l).isSome = true
  · obtain ⟨h, l, u, same, high, low⟩ := escaped
    cases same
    obtain ⟨high, isHigh⟩ := Option.isSome_iff_exists.mp high
    obtain ⟨low, isLow⟩ := Option.isSome_iff_exists.mp low
    refine ⟨['%', h, l], [UInt8.ofNat (16 * high + low)], u, rfl, fun v _ => ?_, .inl ⟨_, rfl⟩,
      List.cons_ne_nil _ _⟩
    simp only [List.cons_append, List.nil_append]
    rw [bytes, isHigh, isLow]
  · refine ⟨[c], encodeChar c, t, rfl, token_char fun h l u same => ?_⟩
    cases high : Unicode.hexValue? h with
    | none => exact .inl rfl
    | some n =>
      cases low : Unicode.hexValue? l with
      | none => exact .inr rfl
      | some k => exact absurd ⟨h, l, u, same, by rw [high]; rfl, by rw [low]; rfl⟩ escaped

namespace Token

variable {token rest x y : Text} {bs : List UInt8}

theorem reads (first : Token token bs rest) : Reads none bs := by
  rcases first.kind with ⟨b, rfl⟩ | ⟨c, rfl⟩
  · exact reads_byte b
  · exact reads_char c

theorem reads_or_refuses (first : Token token bs rest) {p : Partial} (inner : p.Inner) :
    Reads (some p) bs ∨ Refuses p bs := by
  rcases first.kind with ⟨b, rfl⟩ | ⟨c, rfl⟩
  · exact reads_or_refuses_byte p b
  · exact .inr (refuses_char inner c)

/-- A cut behind the first token is one of what follows it. -/
theorem cut (first : Token token bs rest) {s : Option Partial} (reads : Reads s bs)
    (later : ∀ s x, (∀ p ∈ s, p.Inner) → decodeFrom s (bytes rest) = x ++ y → s = none ∨ x ≠ [] →
      ∃ a b, rest = a ++ b ∧ decodeFrom s (bytes a) = x ∧ decodeFrom none (bytes b) = y)
    (h : decodeFrom s (bytes (token ++ rest)) = x ++ y) (front : x ≠ []) :
    ∃ a b, rest = a ++ b ∧ decodeFrom s (bytes (token ++ a)) = x ∧
      decodeFrom none (bytes b) = y := by
  obtain ⟨r, gives, run⟩ := reads
  rw [first.written rest List.prefix_rfl, run] at h
  cases gives with
  | char c =>
    obtain ⟨d, x, rfl⟩ := List.exists_cons_of_ne_nil front
    obtain ⟨rfl, behind⟩ := List.cons_eq_cons.mp h
    obtain ⟨a, b, rfl, taken, left⟩ := later none x nofun behind (.inl rfl)
    refine ⟨a, b, rfl, ?_, left⟩
    rw [first.written a (List.prefix_append a b), run, taken]
    rfl
  | @part p inner =>
    obtain ⟨a, b, rfl, taken, left⟩ := later (some p) x (fun q mem => by cases mem; exact inner) h
      (.inr front)
    refine ⟨a, b, rfl, ?_, left⟩
    rw [first.written a (List.prefix_append a b), run, taken]
    rfl

/-- A character that has begun is given up in front of a token that does not go on with it. A cut
may be right behind what it gives, or it is one of what is read between characters. -/
theorem cut_refused (first : Token token bs rest) {p : Partial} (refuses : Refuses p bs)
    (fresh : ∀ x, decodeFrom none (bytes (token ++ rest)) = x ++ y → x ≠ [] →
      ∃ a b, rest = a ++ b ∧ decodeFrom none (bytes (token ++ a)) = x ∧
        decodeFrom none (bytes b) = y)
    (h : decodeFrom (some p) (bytes (token ++ rest)) = x ++ y) (front : x ≠ []) :
    ∃ a b, token ++ rest = a ++ b ∧ decodeFrom (some p) (bytes a) = x ∧
      decodeFrom none (bytes b) = y := by
  have given {u : Text} (beginning : u <+: rest) :
      decodeFrom (some p) (bytes (token ++ u)) =
        replacement :: decodeFrom none (bytes (token ++ u)) := by
    rw [first.written u beginning]
    exact refuses _
  obtain ⟨c, x, rfl⟩ := List.exists_cons_of_ne_nil front
  rw [given List.prefix_rfl] at h
  obtain ⟨rfl, behind⟩ := List.cons_eq_cons.mp h
  by_cases next : x = []
  · subst next
    exact ⟨[], token ++ rest, rfl, rfl, behind⟩
  · obtain ⟨a, b, rfl, taken, left⟩ := fresh x behind next
    refine ⟨token ++ a, b, (List.append_assoc _ _ _).symm, ?_, left⟩
    rw [given (List.prefix_append a b), taken]

end Token

/-- A cut of what is read from a state on. Behind a character that has begun the cut is not in front
of what this character gives. -/
theorem exists_cut_from (t : Text) {s : Option Partial} (inner : ∀ p ∈ s, p.Inner) {x y : Text}
    (h : decodeFrom s (bytes t) = x ++ y) (front : s = none ∨ x ≠ []) :
    ∃ a b, t = a ++ b ∧ decodeFrom s (bytes a) = x ∧ decodeFrom none (bytes b) = y := by
  by_cases empty : x = []
  · obtain rfl := front.resolve_right (not_not_intro empty)
    subst empty
    exact ⟨[], t, rfl, rfl, h⟩
  by_cases last : t = []
  · subst last
    obtain ⟨c, x, rfl⟩ := List.exists_cons_of_ne_nil empty
    cases s with
    | none => cases h
    | some p =>
      obtain ⟨rfl, none⟩ := List.cons_eq_cons.mp h
      obtain ⟨rfl, rfl⟩ := List.append_eq_nil_iff.mp none.symm
      exact ⟨[], [], rfl, rfl, rfl⟩
  obtain ⟨token, bs, rest, rfl, first⟩ := exists_token last
  have shorter : rest.length < (token ++ rest).length := by
    have := List.length_pos_iff.mpr first.nonempty
    rw [List.length_append]
    omega
  have step {s : Option Partial} (reads : Reads s bs) {x : Text}
      (h : decodeFrom s (bytes (token ++ rest)) = x ++ y) (front : x ≠ []) :=
    first.cut reads (fun s x inner h front => exists_cut_from rest inner h front) h front
  have whole {s : Option Partial} (reads : Reads s bs)
      (h : decodeFrom s (bytes (token ++ rest)) = x ++ y) :
      ∃ a b, token ++ rest = a ++ b ∧ decodeFrom s (bytes a) = x ∧
        decodeFrom none (bytes b) = y := by
    obtain ⟨a, b, rfl, taken, left⟩ := step reads h empty
    exact ⟨token ++ a, b, (List.append_assoc _ _ _).symm, taken, left⟩
  cases s with
  | none => exact whole first.reads h
  | some p =>
    rcases first.reads_or_refuses (inner p rfl) with reads | refuses
    · exact whole reads h
    · exact first.cut_refused refuses (fun x => step first.reads) h empty
termination_by t.length

/-- A cut of what is read from a text is a cut of the text. -/
theorem exists_cut {t x y : Text} (h : decode t = x ++ y) :
    ∃ a b, t = a ++ b ∧ decode a = x ∧ decode b = y :=
  exists_cut_from (s := none) t nofun h (.inl rfl)

/-- A contiguous piece of what is read from a text is read from a contiguous piece of the text. -/
theorem exists_infix {t u : Text} (h : u <:+: decode t) : ∃ a, a <:+: t ∧ decode a = u := by
  obtain ⟨x, y, whole⟩ := h
  rw [List.append_assoc] at whole
  obtain ⟨a, b, rfl, -, behind⟩ := exists_cut whole.symm
  obtain ⟨b, c, rfl, here, -⟩ := exists_cut behind
  exact ⟨b, ⟨a, c, List.append_assoc a b c⟩, here⟩

end Percent

end UrlRouting
