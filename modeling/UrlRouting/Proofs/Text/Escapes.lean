import UrlRouting.Text

/-!
# Escapes

A backslash takes the next character with it. `Text.dangles` says that a text ends in a backslash
that has nothing to take, and `Text.unescaped` is what remains of a text without its escapes.

A text that does not dangle can be followed by anything: `dangles_append` and `unescaped_append` let
what comes after it be looked at by itself.
-/

namespace UrlRouting.Text

/-- Whether a text ends in a backslash that escapes nothing. -/
def dangles : Text → Bool
  | [] => false
  | ['\\'] => true
  | '\\' :: _ :: t => dangles t
  | _ :: t => dangles t

/-- The characters of a text that are neither backslashes nor escaped. -/
def unescaped : Text → Text
  | [] => []
  | ['\\'] => []
  | '\\' :: _ :: t => unescaped t
  | c :: t => c :: unescaped t

@[simp] theorem dangles_nil : dangles [] = false := rfl

@[simp] theorem unescaped_nil : unescaped [] = [] := rfl

@[simp] theorem dangles_escape (c : Char) (t : Text) : dangles ('\\' :: c :: t) = dangles t := by
  simp [dangles]

@[simp] theorem unescaped_escape (c : Char) (t : Text) :
    unescaped ('\\' :: c :: t) = unescaped t := by
  simp [unescaped]

theorem dangles_cons {c : Char} (h : c ≠ '\\') (t : Text) : dangles (c :: t) = dangles t := by
  rw [dangles.eq_def]
  split <;> simp_all

theorem unescaped_cons {c : Char} (h : c ≠ '\\') (t : Text) :
    unescaped (c :: t) = c :: unescaped t := by
  rw [unescaped.eq_def]
  split <;> simp_all

/-- An induction over the tokens of a text: escapes and other characters. -/
theorem escapes_induction {P : Text → Prop} (nil : P []) (lone : P ['\\'])
    (escape : ∀ c t, P t → P ('\\' :: c :: t))
    (plain : ∀ c t, c ≠ '\\' → P t → P (c :: t)) (t : Text) : P t := by
  fun_induction dangles t with
  | case1 => exact nil
  | case2 => exact lone
  | case3 c t ih => exact escape c t ih
  | case4 c t alone pair ih =>
    refine plain c t ?_ ih
    rintro rfl
    cases t with
    | nil => exact alone rfl rfl
    | cons d t => exact pair d t rfl rfl

theorem dangles_append {s : Text} (h : dangles s = false) (t : Text) :
    dangles (s ++ t) = dangles t := by
  induction s using escapes_induction with
  | nil => rfl
  | lone => cases h
  | escape c s ih => simpa using ih (by simpa using h)
  | plain c s ne ih =>
    rw [dangles_cons ne] at h
    rw [List.cons_append, dangles_cons ne, ih h]

/-- Behind a character that is no backslash nothing is escaped. -/
theorem dangles_append_cons {c : Char} (h : c ≠ '\\') (s t : Text) :
    dangles (s ++ c :: t) = dangles t := by
  induction s using escapes_induction with
  | nil => exact dangles_cons h t
  | lone => exact dangles_escape c t
  | escape d s ih => simpa using ih
  | plain d s ne ih => rw [List.cons_append, dangles_cons ne, ih]

theorem unescaped_append {s : Text} (h : dangles s = false) (t : Text) :
    unescaped (s ++ t) = unescaped s ++ unescaped t := by
  induction s using escapes_induction with
  | nil => rfl
  | lone => cases h
  | escape c s ih => simpa using ih (by simpa using h)
  | plain c s ne ih =>
    rw [dangles_cons ne] at h
    rw [List.cons_append, unescaped_cons ne, unescaped_cons ne, ih h, List.cons_append]

theorem dangles_of_forall {t : Text} (h : ∀ c ∈ t, c ≠ '\\') : dangles t = false := by
  induction t with
  | nil => rfl
  | cons c t ih =>
    rw [dangles_cons (h c List.mem_cons_self)]
    exact ih fun d mem => h d (List.mem_cons_of_mem c mem)

theorem unescaped_of_forall {t : Text} (h : ∀ c ∈ t, c ≠ '\\') : unescaped t = t := by
  induction t with
  | nil => rfl
  | cons c t ih =>
    rw [unescaped_cons (h c List.mem_cons_self), ih fun d mem => h d (List.mem_cons_of_mem c mem)]

end UrlRouting.Text
