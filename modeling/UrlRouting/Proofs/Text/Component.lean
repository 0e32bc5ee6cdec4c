import UrlRouting.Proofs.Text.Percent

/-!
# Components

A text that is written as a component consists of a few ASCII characters and of escapes
(`Percent.component_encode`). Both readers, that of escapes and that of forms, undo the writing
(`Percent.component_roundTrip`). They do so in front of any other text, so no escape comes about
where two components meet.
-/

namespace UrlRouting.Percent

/-- The characters that stand for themselves in a component. -/
def unreserved : List Char :=
  "ABCDEFGHIJKLMNOPQRSTUVWXYZabcdefghijklmnopqrstuvwxyz0123456789-_.!~*'()".toList

/-- The digits of escapes. -/
def hexDigits : List Char := "0123456789ABCDEF".toList

/-- A text of unreserved characters and of percent signs with two digits behind each. -/
inductive Component : Text → Prop
  | nil : Component []
  | plain {c : Char} {t : Text} : c ∈ unreserved → Component t → Component (c :: t)
  | escape {h l : Char} {t : Text} : h ∈ hexDigits → l ∈ hexDigits → Component t →
      Component ('%' :: h :: l :: t)

theorem Component.append {s t : Text} (first : Component s) (second : Component t) :
    Component (s ++ t) := by
  induction first with
  | nil => exact second
  | plain known _ ih => exact .plain known ih
  | escape high low _ ih => exact .escape high low ih

theorem toNat_lt_of_isAlphanum {c : Char} (h : c.isAlphanum = true) : c.toNat < 0x80 := by
  have ranges : (decide (c.val ≥ 'A'.val ∧ c.val ≤ 'Z'.val) ||
      decide (c.val ≥ 'a'.val) && decide (c.val ≤ 'z'.val) ||
      decide (c.val ≥ '0'.val) && decide (c.val ≤ '9'.val)) = true := h
  have last : 'Z'.val.toNat = 90 ∧ 'z'.val.toNat = 122 ∧ '9'.val.toNat = 57 := by decide
  have value : c.toNat = c.val.toNat := rfl
  simp only [Bool.or_eq_true, Bool.and_eq_true, decide_eq_true_eq, UInt32.le_iff_toNat_le]
    at ranges
  omega

/-- These are the characters that are written without an escape. -/
theorem mem_unreserved {c : Char} : c ∈ unreserved ↔ isComponentChar c = true := by
  have ascii : ∀ n < 0x80, (Char.ofNat n ∈ unreserved ↔ isComponentChar (Char.ofNat n) = true) := by
    decide +kernel
  by_cases small : c.toNat < 0x80
  · rw [← Char.ofNat_toNat c]
    exact ascii c.toNat small
  · have listed : unreserved.all (fun d => d.toNat < 0x80) = true := by decide
    have marks : componentMarks.all (fun d => d.toNat < 0x80) = true := by decide
    refine iff_of_false (fun mem => ?_) (fun plain => ?_)
    · exact small (of_decide_eq_true (List.all_eq_true.mp listed c mem))
    · rcases Bool.or_eq_true_iff.mp plain with letter | mark
      · exact small (toNat_lt_of_isAlphanum letter)
      · have mem : c ∈ componentMarks := List.contains_iff_mem.mp mark
        exact small (of_decide_eq_true (List.all_eq_true.mp marks c mem))

theorem component_escape (b : UInt8) : Component (escape b) := by
  have digit : ∀ n < 16, hexDigit n ∈ hexDigits := by decide
  have bound : b.toNat < 256 := b.toNat_lt_size
  exact .escape (digit _ (by omega)) (digit _ (by omega)) .nil

/-- What is written for a text is a component. -/
theorem component_encode (t : Text) : Component (encode t) := by
  induction t with
  | nil => exact .nil
  | cons c t ih =>
    rw [encode_cons]
    split
    next plain => exact .plain (mem_unreserved.mpr plain) ih
    next =>
      refine Component.append ?_ ih
      rw [escapeChar]
      induction Utf8.encodeChar c with
      | nil => exact .nil
      | cons b bs ih' =>
        rw [List.flatMap_cons]
        exact (component_escape b).append ih'

/-- A text that is written as a component is read by the reader of escapes and by that of forms,
also where another component stands right behind it. A plus sign between components is a blank for
the reader of forms only. -/
theorem component_roundTrip (s t : Text) :
    Component (encode s) ∧ decode (encode s) = s ∧ Form.decode (encode s) = s ∧
      decode (encode s ++ encode t) = s ++ t ∧ Form.decode (encode s ++ encode t) = s ++ t ∧
      decode (encode s ++ '+' :: encode t) = s ++ '+' :: t ∧
      Form.decode (encode s ++ '+' :: encode t) = s ++ ' ' :: t := by
  refine ⟨component_encode s, decode_encode s, Form.decode_encode s, ?_, ?_, ?_, ?_⟩
  · rw [decode_encode_append, decode_encode]
  · rw [Form.decode_encode_append, Form.decode_encode]
  · have plus : decode ('+' :: encode t) = '+' :: decode (encode t) :=
      decode_append_of_notMem (t := ['+']) (by decide) (encode t)
    rw [decode_encode_append, plus, decode_encode]
  · rw [Form.decode_encode_append, Form.decode_plus, Form.decode_encode]

end UrlRouting.Percent
