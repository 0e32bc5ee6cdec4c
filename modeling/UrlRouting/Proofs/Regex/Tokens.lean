import UrlRouting.Proofs.Regex.Lexing
import UrlRouting.Proofs.Result
import UrlRouting.Proofs.Text.Escapes
import UrlRouting.Proofs.Unicode.PropertyNames
import UrlRouting.Regex.Parser

/-!
# What readers take

`Taken` relates a text to what is left of it after some whole tokens, and lists the parentheses of
groups among these. Every reader of expressions takes text in this way. This module says so for the
readers of single tokens: escapes, names, and the tokens of classes.

Two facts follow from `Taken` alone. What has been taken never dangles (`Taken.exists_prefix`), and,
where no comments are taken, it is closed and `openings` finds exactly the listed groups
(`Taken.exists_closed`).
-/

namespace UrlRouting.Regex

/-! ## Inert characters -/

/-- Whether a character leaves the lexical state as it is, in a class and outside. -/
def isInert (c : Char) : Bool := !(['\\', '[', ']', '(', ')', '#'].contains c)

theorem isInert_of {p : Char → Bool} (h : ['\\', '[', ']', '(', ')', '#'].all fun c => !p c)
    {c : Char} (holds : p c) : isInert c := by
  cases special : isInert c with
  | true => rfl
  | false =>
    have mem : c ∈ ['\\', '[', ']', '(', ')', '#'] := by
      rw [isInert, Bool.not_eq_false'] at special
      exact List.contains_iff_mem.mp special
    have fails := List.all_eq_true.mp h c mem
    rw [holds] at fails
    cases fails

theorem inert_ne {c : Char} (h : isInert c) :
    c ≠ '\\' ∧ c ≠ '[' ∧ c ≠ ']' ∧ c ≠ '(' ∧ c ≠ ')' ∧ c ≠ '#' := by
  simpa [isInert] using h

theorem isInert_of_isNameChar {c : Char} (h : isNameChar c) : isInert c :=
  isInert_of (by decide) h

theorem isInert_of_isHexDigit {c : Char} (h : isHexDigit c) : isInert c :=
  isInert_of (by decide) h

theorem isInert_of_isDigit {c : Char} (h : c.isDigit) : isInert c :=
  isInert_of (p := Char.isDigit) (by decide) h

theorem isInert_of_isPropertyNameChar {c : Char} (h : Unicode.isPropertyNameChar c) :
    isInert c :=
  isInert_of (by decide) h

/-- A text of inert characters. -/
def Inert (t : Text) : Prop := ∀ c ∈ t, isInert c

theorem Inert.nil : Inert [] := fun _ mem => nomatch mem

theorem Inert.cons {c : Char} {t : Text} (head : isInert c) (tail : Inert t) : Inert (c :: t) := by
  intro d mem
  rcases List.mem_cons.mp mem with rfl | mem
  · exact head
  · exact tail d mem

theorem Inert.append {s t : Text} (left : Inert s) (right : Inert t) : Inert (s ++ t) := by
  intro c mem
  rcases List.mem_append.mp mem with mem | mem
  · exact left c mem
  · exact right c mem

theorem Inert.through {t : Text} (inert : Inert t) (more : Nat) :
    (Lex.inside more).Through t (.inside more) := by
  induction t with
  | nil => rfl
  | cons c t ih =>
    obtain ⟨escape, bracket, close, -⟩ := inert_ne (inert c List.mem_cons_self)
    refine ⟨nofun, ?_⟩
    rw [Lex.step, Lex.within_of_ne escape bracket close]
    exact ih fun d mem => inert d (List.mem_cons_of_mem c mem)

/-! ## Comments -/

/-- The rest of a comment through the parenthesis that ends it. -/
inductive CommentEnd : Text → Prop
  | close : CommentEnd [')']
  | escape {t : Text} (c : Char) : CommentEnd t → CommentEnd ('\\' :: c :: t)
  | char {t : Text} {c : Char} : c ≠ '\\' → CommentEnd t → CommentEnd (c :: t)

theorem CommentEnd.dangles {t : Text} (h : CommentEnd t) : Text.dangles t = false := by
  induction h with
  | close => rfl
  | escape c _ ih => simpa using ih
  | char ne _ ih => rw [Text.dangles_cons ne, ih]

/-! ## Taken text -/

/-- `Taken comments t ws u`: whole tokens at the front of `t` leave `u`. The rests of `t` that begin
with the parenthesis of a group among these tokens are `ws`, in order. Comments may be among the
tokens if `comments` says so. -/
inductive Taken (comments : Bool) : Text → List Text → Text → Prop
  | done (t : Text) : Taken comments t [] t
  | char {c : Char} {t u : Text} {ws : List Text} :
    c ≠ '\\' → c ≠ '[' → c ≠ '(' → Taken comments t ws u → Taken comments (c :: t) ws u
  | escape {s t u : Text} {ws : List Text} (c : Char) :
    Inert s → Taken comments t ws u → Taken comments ('\\' :: c :: (s ++ t)) ws u
  | bracket {s t u : Text} {ws : List Text} :
    Lex.opened.Through s .outside → Text.dangles s = false → Taken comments t ws u →
    Taken comments ('[' :: (s ++ t)) ws u
  | group {t u : Text} {ws : List Text} :
    Taken comments t ws u → Taken comments ('(' :: t) (('(' :: t) :: ws) u
  | comment {s t u : Text} {ws : List Text} :
    comments = true → CommentEnd s → Taken comments t ws u →
    Taken comments ('(' :: '?' :: '#' :: (s ++ t)) ws u
  | line {s t u : Text} {ws : List Text} :
    comments = true → '\n' ∉ s → Taken comments t ws u →
    Taken comments ('#' :: (s ++ '\n' :: t)) ws u
  | lastLine {s : Text} : comments = true → '\n' ∉ s → Taken comments ('#' :: s) [] []

namespace Taken

variable {comments : Bool} {t u v : Text} {ws xs : List Text}

theorem trans (first : Taken comments t ws u) (second : Taken comments u xs v) :
    Taken comments t (ws ++ xs) v := by
  induction first with
  | done => exact second
  | char escape bracket group _ ih => exact .char escape bracket group (ih second)
  | escape c inert _ ih => exact .escape c inert (ih second)
  | bracket through dangles _ ih => exact .bracket through dangles (ih second)
  | group _ ih => exact .group (ih second)
  | comment allowed inner _ ih => exact .comment allowed inner (ih second)
  | line allowed inner _ ih => exact .line allowed inner (ih second)
  | lastLine allowed inner =>
    cases second with
    | done => exact .lastLine allowed inner

theorem of_inert {s : Text} (inert : Inert s) (t : Text) : Taken comments (s ++ t) [] t := by
  induction s with
  | nil => exact .done t
  | cons c s ih =>
    obtain ⟨escape, bracket, -, group, -⟩ := inert_ne (inert c List.mem_cons_self)
    exact .char escape bracket group (ih fun d mem => inert d (List.mem_cons_of_mem c mem))

/-- What has been taken does not end in a backslash that escapes nothing, unless it is all there
was. -/
theorem exists_prefix (taken : Taken comments t ws u) (more : u ≠ []) :
    ∃ s, t = s ++ u ∧ Text.dangles s = false := by
  induction taken with
  | done t => exact ⟨[], rfl, rfl⟩
  | @char c t u ws escape _ _ _ ih =>
    obtain ⟨s, rfl, dangles⟩ := ih more
    exact ⟨c :: s, rfl, by rw [Text.dangles_cons escape, dangles]⟩
  | @escape r t u ws c inert _ ih =>
    obtain ⟨s, rfl, dangles⟩ := ih more
    have plain : Text.dangles r = false :=
      Text.dangles_of_forall fun d mem => (inert_ne (inert d mem)).1
    refine ⟨'\\' :: c :: (r ++ s), by simp, ?_⟩
    rw [Text.dangles_escape, Text.dangles_append plain, dangles]
  | @bracket r t u ws _ plain _ ih =>
    obtain ⟨s, rfl, dangles⟩ := ih more
    refine ⟨'[' :: (r ++ s), by simp, ?_⟩
    rw [Text.dangles_cons (by decide), Text.dangles_append plain, dangles]
  | @group t u ws _ ih =>
    obtain ⟨s, rfl, dangles⟩ := ih more
    exact ⟨'(' :: s, rfl, by rw [Text.dangles_cons (by decide), dangles]⟩
  | @comment r t u ws _ inner _ ih =>
    obtain ⟨s, rfl, dangles⟩ := ih more
    refine ⟨'(' :: '?' :: '#' :: (r ++ s), by simp, ?_⟩
    rw [Text.dangles_cons (by decide), Text.dangles_cons (by decide),
      Text.dangles_cons (by decide), Text.dangles_append inner.dangles, dangles]
  | @line r t u ws _ inner _ ih =>
    obtain ⟨s, rfl, dangles⟩ := ih more
    refine ⟨'#' :: (r ++ '\n' :: s), by simp, ?_⟩
    rw [Text.dangles_cons (by decide), Text.dangles_append_cons (by decide), dangles]
  | lastLine => exact absurd rfl more

theorem closed_escape {r : Text} (c : Char) (inert : Inert r) :
    Lex.Closed ('\\' :: c :: r) := by
  induction r with
  | nil => rfl
  | cons d r ih =>
    obtain ⟨escape, bracket, -⟩ := inert_ne (inert d List.mem_cons_self)
    have rest := ih fun e mem => inert e (List.mem_cons_of_mem d mem)
    change (Lex.outside.step d).run r = .outside
    rw [Lex.step_outside escape bracket]
    exact rest

theorem openings_escape {r : Text} (c : Char) (inert : Inert r) (t : Text) :
    openings ('\\' :: c :: (r ++ t)) = openings t := by
  have skip : openings ('\\' :: c :: (r ++ t)) = openings (r ++ t) := by
    simp [openings, opensGroup, Lex.step, Lex.starts_cons_of_ne]
  rw [skip]
  clear skip
  induction r with
  | nil => rfl
  | cons d r ih =>
    obtain ⟨escape, bracket, -, group, -⟩ := inert_ne (inert d List.mem_cons_self)
    rw [List.cons_append, openings_cons escape bracket group]
    exact ih fun e mem => inert e (List.mem_cons_of_mem d mem)

/-- Where no comment can begin what has been taken is closed, and its groups are those that
`openings` finds. -/
theorem exists_closed (taken : Taken comments t ws u) (free : comments = false ∨ HashFree t) :
    ∃ s, t = s ++ u ∧ Lex.Closed s ∧ openings t = ws ++ openings u := by
  induction taken with
  | done t => exact ⟨[], rfl, rfl, rfl⟩
  | @char c t u ws escape bracket group _ ih =>
    have single := Lex.closed_singleton escape bracket
    obtain ⟨s, rfl, closed, groups⟩ := ih (free.imp_right (HashFree.of_append single))
    refine ⟨c :: s, rfl, single.append closed, ?_⟩
    rw [openings_cons escape bracket group, groups]
  | @escape r t u ws c inert _ ih =>
    have single := closed_escape c inert
    obtain ⟨s, rfl, closed, groups⟩ :=
      ih (free.imp_right fun free => HashFree.of_append single (by simpa using free))
    refine ⟨'\\' :: c :: (r ++ s), by simp, single.append closed, ?_⟩
    rw [openings_escape c inert, groups]
  | @bracket r t u ws through _ _ ih =>
    have single : Lex.Closed ('[' :: r) := through.run
    obtain ⟨s, rfl, closed, groups⟩ :=
      ih (free.imp_right fun free => HashFree.of_append single (by simpa using free))
    refine ⟨'[' :: (r ++ s), by simp, single.append closed, ?_⟩
    rw [← groups, openings, openings, Lex.starts_outside_cons,
      List.filter_cons_of_neg (by simp [opensGroup]),
      ← through.starts_append (s ++ u)]
    rfl
  | @group t u ws _ ih =>
    have single : Lex.Closed ['('] := rfl
    obtain ⟨s, rfl, closed, groups⟩ := ih (free.imp_right (HashFree.of_append single))
    exact ⟨'(' :: s, rfl, closed, by rw [openings_group, groups, List.cons_append]⟩
  | @comment r t u ws allowed _ _ ih =>
    rcases free with none | free
    · cases none.symm.trans allowed
    · have mark : HashFree ('#' :: (r ++ t)) := HashFree.of_append (s := ['(', '?']) rfl free
      exact absurd rfl mark.ne_hash
  | line allowed =>
    rcases free with none | free
    · cases none.symm.trans allowed
    · exact absurd rfl free.ne_hash
  | lastLine allowed =>
    rcases free with none | free
    · cases none.symm.trans allowed
    · exact absurd rfl free.ne_hash

end Taken

end UrlRouting.Regex
