import Mathlib.Data.List.Destutter
import UrlRouting.Url.Build
import UrlRouting.Url.Origin

/-!
# Paths with single slashes

A normal path has no two slashes in a row (`single_normalPath`). A text in which no two slashes
stand in a row is a normal path already, up to one at its end (`normalPath_of_single`), and it
begins with no origin (`withoutOrigin_of_single`).
-/

namespace UrlRouting.Url

/-- No two slashes stand in a row. -/
def Single (t : Text) : Prop := t.IsChain fun a b => a = '/' → b ≠ '/'

theorem single_of_not_isInfix {t : Text} (h : ¬ ['/', '/'] <:+: t) : Single t := by
  induction t with
  | nil => exact .nil
  | cons c t ih =>
    rw [List.infix_cons_iff, not_or] at h
    refine List.isChain_cons.mpr ⟨fun d mem slash next => h.1 ?_, ih h.2⟩
    obtain ⟨t, rfl⟩ := List.head?_eq_some_iff.mp (show t.head? = some d from mem)
    rw [slash, next]
    exact ⟨t, rfl⟩

theorem single_of_notMem {t : Text} (free : '/' ∉ t) : Single t := by
  induction t with
  | nil => exact .nil
  | cons c t ih =>
    simp only [List.mem_cons, not_or] at free
    exact List.isChain_cons.mpr ⟨fun d _ slash => absurd slash.symm free.1, ih free.2⟩

theorem Single.append {s t : Text} (left : Single s) (right : Single t)
    (apart : s.getLast? = some '/' → t.head? ≠ some '/') : Single (s ++ t) := by
  refine List.isChain_append.mpr ⟨left, right, fun a last b first slash next => ?_⟩
  rw [slash] at last
  rw [next] at first
  exact apart last first

/-! ## Normal paths -/

/-- Of two slashes in a row the second one is left out. -/
theorem squeeze_eq_destutter (t : Text) :
    squeeze t = t.destutter fun a b => a = '/' → b ≠ '/' := by
  have behind (c : Char) (t : Text) :
      c :: squeezeFrom (c = '/') t = t.destutter' (fun a b => a = '/' → b ≠ '/') c := by
    induction t generalizing c with
    | nil => rfl
    | cons d t ih =>
      by_cases both : d = '/' ∧ c = '/'
      · obtain ⟨rfl, rfl⟩ := both
        exact ih '/'
      · have kept : ¬ (decide (d = '/') && decide (c = '/')) = true := by simpa using both
        rw [squeezeFrom, if_neg kept, List.destutter'_cons_pos t fun slash next =>
          both ⟨next, slash⟩, ih]
  cases t with
  | nil => rfl
  | cons c t =>
    have first : ¬ (decide (c = '/') && false) = true := by simp
    rw [squeeze, squeezeFrom, if_neg first, List.destutter_cons', behind]

theorem single_squeeze (t : Text) : Single (squeeze t) := by
  rw [squeeze_eq_destutter]
  exact List.isChain_destutter _ t

theorem squeeze_of_single {t : Text} (single : Single t) : squeeze t = t := by
  rw [squeeze_eq_destutter]
  exact List.destutter_of_isChain _ t single

/-- What a path loses on the way to its normal form are slashes at most. -/
theorem withoutLastSlash_prefix (t : Text) : withoutLastSlash t <+: t := by
  unfold withoutLastSlash
  split
  next => exact List.dropLast_prefix t
  next => exact List.prefix_rfl

/-- A normal path is a slash, or a part of a path with single slashes. -/
theorem normalPath_cases (slash : Bool) (t : Text) :
    normalPath slash t = ['/'] ∨ normalPath slash t <+: squeeze t := by
  have front : (if slash then squeeze t else withoutLastSlash (squeeze t)) <+: squeeze t := by
    split
    next => exact List.prefix_rfl
    next => exact withoutLastSlash_prefix _
  unfold normalPath
  dsimp only
  generalize (if slash then squeeze t else withoutLastSlash (squeeze t)) = path at front ⊢
  split
  next => exact .inl rfl
  next => exact .inr front

theorem single_normalPath (slash : Bool) (t : Text) : Single (normalPath slash t) := by
  rcases normalPath_cases slash t with same | front
  · rw [same]
    exact .singleton '/'
  · exact List.IsChain.prefix (single_squeeze t) front

theorem mem_normalPath {slash : Bool} {t : Text} {c : Char} (mem : c ∈ normalPath slash t) :
    c ∈ t ∨ c = '/' := by
  rcases normalPath_cases slash t with same | front
  · rw [same] at mem
    exact .inr (List.mem_singleton.mp mem)
  · have kept := front.subset mem
    rw [squeeze_eq_destutter] at kept
    exact .inl ((List.destutter_sublist _ t).subset kept)

/-- A path with single slashes, and none at its end unless it is wanted or all there is, is normal
unless it is empty. -/
theorem normalPath_of_single {t : Text} {slash : Bool} (single : Single t)
    (last : slash = false → t.getLast? = some '/' → t = ['/']) :
    normalPath slash t = if t = [] then ['/'] else t := by
  unfold normalPath
  rw [squeeze_of_single single]
  cases slash with
  | true => rfl
  | false =>
    have kept : withoutLastSlash t = t := by
      refine if_neg fun both => ?_
      have long := both.1
      rw [last rfl both.2] at long
      exact absurd long (by decide)
    rw [if_neg Bool.false_ne_true, kept]

/-! ## Origins -/

theorem splitScheme?_of_single {t : Text} (single : Single t) : splitScheme? t = none := by
  induction t with
  | nil => rfl
  | cons c t ih =>
    obtain ⟨-, rest⟩ := List.isChain_cons.mp single
    rw [splitScheme?.eq_def]
    split
    next eq => cases eq
    next eq =>
      cases eq
      exact absurd rfl ((List.isChain_cons.mp rest).1 '/' rfl rfl)
    next eq =>
      cases eq
      rw [ih rest]
      rfl

theorem withoutOrigin_of_single {t : Text} (single : Single t) : withoutOrigin t = t := by
  rw [withoutOrigin, splitScheme?_of_single single]

end UrlRouting.Url
