import UrlRouting.Json.Token

/-!
# The tokens of a value that has been written

A value is written as its tokens, one after the other (`Json.Textual.tokens?_render`). This is said
of values without numbers in which every string writes a text: where a numeral ends depends on what
follows it, and a string with half of a surrogate pair is written as some string of this kind.

A character of a string is written as one unit (`Json.unit`), and the units of a text write that
text again (`Json.unitsText?_map_unit`).
-/

namespace UrlRouting.Json

/-! ## Strings -/

theorem hexValue?_hexDigit : ∀ n < 16, Unicode.hexValue? (hexDigit n) = some n := by decide

theorem fourDigits?_control {n : Nat} (small : n < 0x20) :
    fourDigits? '0' '0' (hexDigit (n / 16)) (hexDigit (n % 16)) = some n := by
  have zero : Unicode.hexValue? '0' = some 0 := rfl
  have value : ((0 * 16 + 0) * 16 + n / 16) * 16 + n % 16 = n := by omega
  rw [fourDigits?, zero, hexValue?_hexDigit _ (by omega), hexValue?_hexDigit _ (by omega)]
  exact congrArg some value

/-- The unit that a character of a string is written as: itself, or its number if it is a control
character without a letter. -/
def unit (c : Char) : StringUnit :=
  if c.toNat < 0x20 ∧ (controlLetters.find? fun (control, _) => control = c).isNone then
    .code c.toNat
  else .char c

theorem stringUnits?_escape {letter c : Char} (ne : letter ≠ 'u') (h : escaped? letter = some c)
    (t : Text) : stringUnits? ('\\' :: letter :: t) =
      (stringUnits? t).map fun (units, rest) => (.char c :: units, rest) := by
  rw [stringUnits?, h]
  · cases stringUnits? t <;> rfl
  · rintro a b c d u eq
    exact absurd eq ne

theorem stringUnits?_code {a b c d : Char} {n : Nat} (h : fourDigits? a b c d = some n)
    (t : Text) : stringUnits? ('\\' :: 'u' :: a :: b :: c :: d :: t) =
      (stringUnits? t).map fun (units, rest) => (.code n :: units, rest) := by
  rw [stringUnits?, h]
  cases stringUnits? t <;> rfl

theorem stringUnits?_plain {c : Char} (plain : ¬ (c = '"' ∨ c = '\\')) (visible : ¬ c.toNat < 0x20)
    (t : Text) : stringUnits? (c :: t) =
      (stringUnits? t).map fun (units, rest) => (.char c :: units, rest) := by
  obtain ⟨quote, slash⟩ := not_or.mp plain
  rw [stringUnits?, if_neg visible]
  · cases stringUnits? t <;> rfl
  · exact quote
  · exact fun _ _ _ _ _ eq => absurd eq slash
  · exact fun _ _ eq => absurd eq slash

theorem escaped?_of_mem_controlLetters :
    ∀ e ∈ controlLetters, e.2 ≠ 'u' ∧ escaped? e.2 = some e.1 := by decide

/-- A character is read as the unit that it is written as. -/
theorem stringUnits?_renderChar (c : Char) (t : Text) :
    stringUnits? (renderChar c ++ t) =
      (stringUnits? t).map fun (units, rest) => (unit c :: units, rest) := by
  unfold renderChar
  split
  next mark =>
    have escaped : escaped? c = some c ∧ c ≠ 'u' ∧ unit c = .char c := by
      rcases mark with rfl | rfl <;> decide
    obtain ⟨escaped, ne, unit⟩ := escaped
    rw [unit]
    exact stringUnits?_escape ne escaped t
  next plain =>
    split
    next control letter found =>
      obtain ⟨ne, escaped⟩ := escaped?_of_mem_controlLetters _ (List.mem_of_find?_eq_some found)
      have same : control = c := by simpa using List.find?_some found
      have unit : unit c = .char c := if_neg fun bare => by
        rw [found] at bare
        cases bare.2
      rw [unit]
      exact stringUnits?_escape ne (same ▸ escaped) t
    next none =>
      split
      next control =>
        have unit : unit c = .code c.toNat := if_pos ⟨control, by rw [none]; rfl⟩
        rw [unit]
        exact stringUnits?_code (fourDigits?_control control) t
      next visible =>
        have unit : unit c = .char c := if_neg fun control => visible control.1
        rw [unit]
        exact stringUnits?_plain plain visible t

/-- A string is read up to its closing quote. -/
theorem stringUnits?_flatMap_renderChar (s t : Text) :
    stringUnits? (s.flatMap renderChar ++ '"' :: t) = some (s.map unit, t) := by
  induction s with
  | nil => rfl
  | cons c s ih =>
    rw [List.flatMap_cons, List.append_assoc, stringUnits?_renderChar, ih]
    rfl

theorem unitsText?_code {n : Nat} (small : n < 0xD800) (units : List StringUnit) :
    unitsText? (.code n :: units) = (unitsText? units).map (Char.ofNat n :: ·) := by
  have high : isHighHalf n = false := by
    rw [isHighHalf, Bool.and_eq_false_iff, decide_eq_false_iff_not]
    exact .inl (by omega)
  have low : isLowHalf n = false := by
    rw [isLowHalf, Bool.and_eq_false_iff, decide_eq_false_iff_not]
    exact .inl (by omega)
  have single : ¬ (isHighHalf n || isLowHalf n) = true := by rw [high, low]; decide
  rw [unitsText?.eq_def]
  split
  next eq => cases eq
  next eq => cases eq
  next eq =>
    cases eq
    rw [high, low]
    rfl
  next eq =>
    cases eq
    exact if_neg single

/-- The units that the characters of a text are written as write the text. -/
theorem unitsText?_map_unit (t : Text) : unitsText? (t.map unit) = some t := by
  induction t with
  | nil => rfl
  | cons c t ih =>
    rw [List.map_cons, unit]
    split
    next control =>
      rw [unitsText?_code (Nat.lt_trans control.1 (by decide)), ih, Char.ofNat_toNat]
      rfl
    next =>
      rw [unitsText?, ih]
      rfl

/-! ## Values -/

/-- A value without numbers, in which every string writes a text. -/
inductive Textual : Json → Prop
  | null : Textual .null
  | bool (b : Bool) : Textual (.bool b)
  | text (t : Text) : Textual (.ofText t)
  | array {items : List Json} : (∀ v ∈ items, Textual v) → Textual (.array items)
  | object {members : List (Option Text × Json)} :
    (∀ m ∈ members, m.1.isSome = true) → (∀ m ∈ members, Textual m.2) → Textual (.object members)

mutual

/-- The tokens of a value. -/
def tokens : Json → List Token
  | null => [.null]
  | bool b => [.bool b]
  | number numeral => [.number numeral]
  | string t => [.string t]
  | array items => .openBracket :: itemTokens items ++ [.closeBracket]
  | object members => .openBrace :: memberTokens members ++ [.closeBrace]

/-- The tokens of the items of a list. -/
def itemTokens : List Json → List Token
  | [] => []
  | [v] => tokens v
  | v :: w :: vs => tokens v ++ .comma :: itemTokens (w :: vs)

/-- The tokens of the members of an object. -/
def memberTokens : List (Option Text × Json) → List Token
  | [] => []
  | [(key, v)] => .string key :: .colon :: tokens v
  | (key, v) :: m :: ms => .string key :: .colon :: tokens v ++ .comma :: memberTokens (m :: ms)

end

/-- What is read as a token from the front of any text is taken apart into this token. -/
theorem tokens?_append {w t : Text} {token : Token} (front : ∃ c ∈ w.head?, isBlank c = false)
    (reads : token? (w ++ t) = some (token, t)) :
    tokens? (w ++ t) = (tokens? t).map (token :: ·) := by
  obtain ⟨c, mem, visible⟩ := front
  obtain ⟨w, rfl⟩ := List.head?_eq_some_iff.mp mem
  have start : (c :: (w ++ t)).dropWhile isBlank = c :: (w ++ t) := by
    rw [List.dropWhile_cons, visible]
    rfl
  have shorter : t.length < (c :: (w ++ t)).length := by
    rw [List.length_cons, List.length_append]
    omega
  rw [List.cons_append] at reads ⊢
  rw [tokens?, start]
  dsimp only
  rw [reads]
  exact dif_pos shorter

theorem tokens?_mark {c : Char} (token : Token) (visible : isBlank c = false)
    (reads : ∀ t, token? (c :: t) = some (token, t)) (t : Text) :
    tokens? (c :: t) = (tokens? t).map (token :: ·) :=
  tokens?_append (w := [c]) ⟨c, rfl, visible⟩ (reads t)

theorem tokens?_renderText (s t : Text) :
    tokens? (renderText s ++ t) = (tokens? t).map (.string (some s) :: ·) := by
  refine tokens?_append ⟨'"', rfl, rfl⟩ ?_
  have body : renderText s ++ t = '"' :: (s.flatMap renderChar ++ '"' :: t) := by
    rw [renderText, List.cons_append, List.cons_append, List.append_assoc]
    rfl
  rw [body, token?, stringUnits?_flatMap_renderChar, Option.map_some]
  dsimp only
  rw [unitsText?_map_unit]

/-- A value is taken apart into its tokens, in front of any other text. -/
def Splits (v : Json) : Prop :=
  ∀ t, tokens? (v.render ++ t) = (tokens? t).map (v.tokens ++ ·)

theorem tokens?_renderItems {items : List Json} (each : ∀ v ∈ items, v.Splits) (t : Text) :
    tokens? (renderItems items ++ t) = (tokens? t).map (itemTokens items ++ ·) := by
  induction items with
  | nil => exact Option.map_id_apply.symm
  | cons v items ih =>
    obtain ⟨first, rest⟩ := List.forall_mem_cons.mp each
    cases items with
    | nil => exact first t
    | cons w items =>
      rw [renderItems, List.append_assoc, first, List.cons_append,
        tokens?_mark .comma rfl (fun _ => rfl), ih rest, itemTokens]
      simp [Function.comp_def]

theorem tokens?_renderMember {key : Option Text} {v : Json} (text : key.isSome = true)
    (value : v.Splits) (t : Text) : tokens? (renderString key ++ ':' :: (v.render ++ t)) =
      (tokens? t).map (.string key :: .colon :: v.tokens ++ ·) := by
  obtain ⟨s, rfl⟩ := Option.isSome_iff_exists.mp text
  rw [renderString, Option.map_some, Option.getD_some, tokens?_renderText,
    tokens?_mark .colon rfl (fun _ => rfl), value]
  simp [Function.comp_def]

theorem tokens?_renderMembers {members : List (Option Text × Json)}
    (texts : ∀ m ∈ members, m.1.isSome = true) (each : ∀ m ∈ members, m.2.Splits) (t : Text) :
    tokens? (renderMembers members ++ t) = (tokens? t).map (memberTokens members ++ ·) := by
  induction members with
  | nil => exact Option.map_id_apply.symm
  | cons m members ih =>
    obtain ⟨key, v⟩ := m
    obtain ⟨text, texts⟩ := List.forall_mem_cons.mp texts
    obtain ⟨value, each⟩ := List.forall_mem_cons.mp each
    cases members with
    | nil =>
      rw [renderMembers, List.append_assoc, List.cons_append]
      exact tokens?_renderMember text value t
    | cons m members =>
      have parts : renderMembers ((key, v) :: m :: members) ++ t =
          renderString key ++ ':' :: (v.render ++ ',' :: (renderMembers (m :: members) ++ t)) := by
        simp [renderMembers]
      rw [parts, tokens?_renderMember text value,
        tokens?_mark .comma rfl (fun _ => rfl), ih texts each, memberTokens]
      simp [Function.comp_def]

/-- What is written for a value is taken apart into its tokens. -/
theorem Textual.splits {v : Json} (textual : v.Textual) : v.Splits := by
  induction textual with
  | null =>
    intro t
    exact tokens?_append ⟨'n', rfl, rfl⟩ rfl
  | bool b =>
    intro t
    cases b with
    | false => exact tokens?_append ⟨'f', rfl, rfl⟩ rfl
    | true => exact tokens?_append ⟨'t', rfl, rfl⟩ rfl
  | text s => exact tokens?_renderText s
  | array _ each =>
    intro t
    rw [render, List.cons_append, List.cons_append, List.append_assoc,
      tokens?_mark .openBracket rfl (fun _ => rfl), tokens?_renderItems each,
      List.singleton_append, tokens?_mark .closeBracket rfl (fun _ => rfl), tokens]
    simp [Function.comp_def]
  | object texts _ each =>
    intro t
    rw [render, List.cons_append, List.cons_append, List.append_assoc,
      tokens?_mark .openBrace rfl (fun _ => rfl), tokens?_renderMembers texts each,
      List.singleton_append, tokens?_mark .closeBrace rfl (fun _ => rfl), tokens]
    simp [Function.comp_def]

end UrlRouting.Json
