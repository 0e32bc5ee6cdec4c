import UrlRouting.Matcher.Expression
import UrlRouting.Proofs.Regex.Escape

/-!
# The names of the matcher's groups

Each placeholder has a group of its own, whose name is made of its index. The names are what readers
of group names accept, and different indices have different names.
-/

namespace UrlRouting.Matcher

open Regex

theorem isNameChar_of_isDigit {c : Char} (h : c.isDigit) : isNameChar c := by
  have ascii : c.toNat < 0x80 := by
    simp only [Char.isDigit, Bool.and_eq_true, decide_eq_true_eq] at h
    have upper : c.val.toNat ≤ 57 := UInt32.le_iff_toNat_le.mp h.2
    exact Nat.lt_of_le_of_lt upper (by decide)
  rw [isNameChar, Unicode.isAlphanumeric, if_pos ascii, Char.isAlphanum, h]
  simp

theorem isNameChar_of_mem_groupName {index : Nat} : ∀ c ∈ groupName index, isNameChar c := by
  intro c mem
  rcases List.mem_append.mp mem with beginning | digits
  · exact List.all_eq_true.mp (by decide : reservedBeginning.all isNameChar) c beginning
  · rw [Nat.toList_repr] at digits
    exact isNameChar_of_isDigit (Nat.isDigit_of_mem_toDigits (by decide) (by decide) digits)

theorem groupName_ne_nil (index : Nat) : groupName index ≠ [] := nofun

theorem groupName_injective {i j : Nat} (h : groupName i = groupName j) : i = j := by
  have digits : i.repr.toList = j.repr.toList := List.append_cancel_left h
  rw [Nat.toList_repr, Nat.toList_repr] at digits
  rw [← Nat.ofDigitChars_ten_toDigits (n := i), digits, Nat.ofDigitChars_ten_toDigits]

/-- The beginning of the group of a placeholder is read as the beginning of a named group. -/
theorem read_groupName (f : Flags) (index : Nat) (t : Text) :
    GroupHead.read f ('?' :: 'P' :: '<' :: (groupName index ++ '>' :: t)) =
      .ok (.named (groupName index), t) := by
  have name : readName '>' (groupName index ++ '>' :: t) = .ok (groupName index, t) :=
    (readName_eq_ok (by decide)).mpr ⟨rfl, groupName_ne_nil index, isNameChar_of_mem_groupName⟩
  rw [GroupHead.read, GroupHead.withName, name]
  rfl

end UrlRouting.Matcher
