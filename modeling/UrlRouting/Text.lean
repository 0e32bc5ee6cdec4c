/-!
# Text

The library works on text as a list of Unicode scalar values. This module holds what every part
shares: the length in bytes by which positions are counted, trimming, and splitting at a
character.

Positions are byte offsets into the UTF-8 form of a text. `Text.byteLength_append` makes the
offset of a suffix the byte length of what precedes it.
-/

namespace UrlRouting

/-- Text is a list of Unicode scalar values. -/
abbrev Text := List Char

namespace Text

/-- The number of bytes that a text takes in UTF-8. -/
def byteLength : Text → Nat
  | [] => 0
  | c :: t => c.utf8Size + byteLength t

@[simp] theorem byteLength_nil : byteLength [] = 0 := rfl

@[simp] theorem byteLength_cons (c : Char) (t : Text) :
    byteLength (c :: t) = c.utf8Size + byteLength t := rfl

@[simp] theorem byteLength_append (s t : Text) :
    byteLength (s ++ t) = byteLength s + byteLength t := by
  induction s with
  | nil => simp
  | cons c s ih => simp [ih, Nat.add_assoc]

/-! ## Trimming -/

/-- The text without the leading characters of a class. -/
def trimStart (p : Char → Bool) (t : Text) : Text := t.dropWhile p

/-- The text without the trailing characters of a class. -/
def trimEnd (p : Char → Bool) (t : Text) : Text := (t.reverse.dropWhile p).reverse

/-- The text without the leading and trailing characters of a class. -/
def trim (p : Char → Bool) (t : Text) : Text := trimEnd p (trimStart p t)

/-! ## Splitting -/

/-- What stands before the first occurrence of a character, and what stands after it if it
occurs. -/
def splitFirst (sep : Char) : Text → Text × Option Text
  | [] => ([], none)
  | c :: t =>
    if c = sep then ([], some t)
    else
      let (before, after) := splitFirst sep t
      (c :: before, after)

/-- The pieces between the occurrences of a character; there is always at least one. -/
def pieces (sep : Char) : Text → List Text
  | [] => [[]]
  | c :: t =>
    if c = sep then [] :: pieces sep t
    else
      match pieces sep t with
      | [] => [[c]]
      | p :: ps => (c :: p) :: ps

/-- The pieces put together again, with a separator between neighbours. -/
def joinWith (sep : Char) : List Text → Text
  | [] => []
  | [p] => p
  | p :: q :: ps => p ++ sep :: joinWith sep (q :: ps)

/-- What follows a given beginning, if the text has it. -/
def dropBeginning : Text → Text → Option Text
  | [], t => some t
  | _ :: _, [] => none
  | b :: bs, c :: t => if b = c then dropBeginning bs t else none

end Text

end UrlRouting
