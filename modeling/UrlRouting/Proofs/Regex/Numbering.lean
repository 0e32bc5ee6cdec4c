import UrlRouting.Proofs.Regex.Advancing
import UrlRouting.Proofs.Regex.Language

/-!
# The numbers of groups

Groups are numbered in the order in which they open. So the numbers in what a reader has read lie
above the number of groups before it and reach at most to the number of groups behind it
(`readExpression_numbers`).
-/

namespace UrlRouting.Regex

/-- The numbers of the groups of an expression. -/
def numbers : Regex → List Nat
  | seq r s | alt r s => r.numbers ++ s.numbers
  | group n r => n :: r.numbers
  | loop _ _ _ r | look _ _ r | atomic r => r.numbers
  | empty | set _ | assert _ | backref .. => []

/-- The numbers of an expression lie between two counts of groups. -/
def Numbered (low high : Nat) (r : Regex) : Prop := ∀ n ∈ r.numbers, low < n ∧ n ≤ high

namespace Numbered

variable {low high low' high' : Nat} {r : Regex}

theorem of_nil (none : r.numbers = []) : Numbered low high r := by
  intro n mem
  rw [none] at mem
  cases mem

theorem mono (h : Numbered low high r) (less : low' ≤ low) (more : high ≤ high') :
    Numbered low' high' r := by
  intro n mem
  have := h n mem
  omega

theorem seq {s : Regex} (left : Numbered low high r) (right : Numbered low high s) :
    Numbered low high (seq r s) := by
  intro n mem
  exact (List.mem_append.mp mem).elim (left n) (right n)

end Numbered

/-! ## Sequences and alternatives -/

theorem Numbered.join {low high : Nat} {r : Regex} {rs : List Regex} (first : Numbered low high r)
    (rest : ∀ s ∈ rs, Numbered low high s) : Numbered low high (sequence.join r rs) := by
  induction rs generalizing r with
  | nil => exact first
  | cons s rs ih =>
    have next := ih (rest s List.mem_cons_self) fun x mem => rest x (List.mem_cons_of_mem s mem)
    exact first.seq next

theorem Numbered.sequence {low high : Nat} {rs : List Regex}
    (all : ∀ r ∈ rs, Numbered low high r) : Numbered low high (sequence rs) := by
  have kept : ∀ r ∈ rs.filter (· ≠ empty), Numbered low high r := fun r mem =>
    all r (List.mem_filter.mp mem).1
  unfold Regex.sequence
  split
  next => exact .of_nil rfl
  next r rest eq =>
    rw [eq] at kept
    exact (kept r List.mem_cons_self).join fun s mem => kept s (List.mem_cons_of_mem r mem)

theorem Numbered.alternatives {low high : Nat} {rs : List Regex}
    (all : ∀ r ∈ rs, Numbered low high r) : Numbered low high (alternatives rs) := by
  fun_induction Regex.alternatives rs with
  | case1 => exact .of_nil rfl
  | case2 r => exact all r List.mem_cons_self
  | case3 r r' s =>
    have last := all (alt r' s) (by simp)
    exact Numbered.seq (s := alt r' s) (all r List.mem_cons_self) last
  | case4 r r' rs _ ih =>
    have rest := ih fun s mem => all s (List.mem_cons_of_mem r mem)
    exact Numbered.seq (s := Regex.alternatives (r' :: rs)) (all r List.mem_cons_self) rest

/-! ## Readers -/

variable {s s' : Reading} {r : Regex}

/-- A reader numbers the groups that it opens. -/
def Numbers (read : Reader Regex) : Prop :=
  ∀ ⦃s s' : Reading⦄ ⦃r : Regex⦄, read s = .ok (r, s') →
    s.groups.length ≤ s'.groups.length ∧ Numbered s.groups.length s'.groups.length r

theorem readInnerEscape_ne_expr {c : Char} {t u : Text} :
    readInnerEscape c t ≠ .ok (.expr r, u) := by
  unfold readInnerEscape
  split
  · nofun
  · split <;> nofun

theorem readOuterEscape_numbers {c : Char} {t u : Text}
    (h : readOuterEscape c t = .ok (.expr r, u)) : r.numbers = [] := by
  have named (mark : Char) (t : Text) :
      (readName mark t >>= fun x => .ok (Escape.backref x.1, x.2)) ≠ .ok (.expr r, u) := by
    intro h
    obtain ⟨x, -, h⟩ := bind_eq_ok.mp h
    cases h
  unfold readOuterEscape at h
  split at h
  next r' known =>
    cases h
    unfold expressionEscape? at known
    split at known <;> cases known <;> rfl
  next =>
    split at h
    next =>
      obtain ⟨x, -, h⟩ := bind_eq_ok.mp h
      cases h
      rfl
    next =>
      split at h
      next =>
        split at h
        next => exact absurd h (named '>' _)
        next => exact absurd h (named '\'' _)
        next => cases h
      next => split at h <;> cases h

/-- An escape that stands for an expression holds no groups. -/
theorem readEscape_numbers {caseless inClass : Bool} {t u : Text}
    (h : readEscape caseless inClass t = .ok (.expr r, u)) : r.numbers = [] := by
  have hex (count : Nat) (t : Text) : readEscape.hex count t ≠ .ok (.expr r, u) := by
    intro h
    obtain ⟨x, -, h⟩ := bind_eq_ok.mp h
    cases h
  have property (negated : Bool) (t : Text) :
      readEscape.property caseless negated t ≠ .ok (.expr r, u) := by
    intro h
    obtain ⟨x, -, h⟩ := bind_eq_ok.mp h
    obtain ⟨y, -, h⟩ := bind_eq_ok.mp h
    cases h
  unfold readEscape at h
  split at h
  next => cases h
  next c t =>
    split at h
    next => cases h
    split at h
    next e letter =>
      cases h
      unfold letterEscape? at letter
      split at letter <;> cases letter
    split at h
    next => exact absurd h (hex 2 t)
    split at h
    next => exact absurd h (hex 4 t)
    split at h
    next => exact absurd h (hex 8 t)
    split at h
    next => exact absurd h (property false t)
    split at h
    next => exact absurd h (property true t)
    split at h
    next => exact absurd h readInnerEscape_ne_expr
    next => exact readOuterEscape_numbers h

theorem Moves.groups {mode : Mode} (moves : Moves mode s s') : s'.groups = s.groups := by
  rw [Reading.groups, Reading.groups, moves.opened]

theorem enclosed_numbers {body : Reader Regex} (numbers : Numbers body) :
    Numbers (enclosed body) := by
  intro s s' r h
  obtain ⟨s₁, inner, -, same⟩ := enclosed_eq_ok.mp h
  have known := numbers inner
  have groups : s'.groups = s₁.groups := by rw [same]; rfl
  rwa [groups]

/-- A group has the numbers of its body, and its own if it captures. -/
theorem wrap_numbers {head : GroupHead} {number n : Nat} {r' : Regex}
    (h : head.wrap number r = .ok r') (mem : n ∈ r'.numbers) :
    n ∈ r.numbers ∨ head.kind.captures ∧ n = number := by
  cases head with
  | capturing =>
    cases h
    exact (List.mem_cons.mp mem).elim (fun same => .inr ⟨rfl, same⟩) .inl
  | named name =>
    cases h
    exact (List.mem_cons.mp mem).elim (fun same => .inr ⟨rfl, same⟩) .inl
  | look direction negated =>
    rw [GroupHead.wrap] at h
    split at h
    next => cases h
    next =>
      cases h
      exact .inl mem
  | _ =>
    cases h
    exact .inl mem

theorem readGroup_numbers {body : Reader Regex} (numbers : Numbers body) {head : GroupHead}
    {low : Nat} (below : low ≤ s.groups.length)
    (opens : head.kind.captures → low < s.groups.length)
    (h : readGroup body head s = .ok (r, s')) :
    s.groups.length ≤ s'.groups.length ∧ Numbered low s'.groups.length r := by
  rcases readGroup_eq_ok h with ⟨f, -, rfl, rfl⟩ | ⟨name, -, h⟩ | ⟨-, r', s₁, inner, wrapped, rfl⟩
  · exact ⟨Nat.le_refl _, .of_nil rfl⟩
  · obtain ⟨rfl, n, -, rfl⟩ := reference_eq_ok h
    exact ⟨Nat.le_refl _, .of_nil rfl⟩
  · obtain ⟨more, known⟩ := enclosed_numbers numbers inner
    refine ⟨more, fun n mem => ?_⟩
    rcases wrap_numbers wrapped mem with mem | ⟨captures, rfl⟩
    · exact known.mono below (Nat.le_refl _) n mem
    · exact ⟨opens captures, more⟩

theorem group?_numbers {body : Option (Reader Regex)} (numbers : ∀ b ∈ body, Numbers b)
    (whole : Text) : Numbers (group? body whole) := by
  intro s s' r h
  unfold group? at h
  cases body with
  | none => cases h
  | some body =>
    obtain ⟨s₁, skipped, h⟩ := bind_eq_ok.mp h
    obtain ⟨⟨head, u⟩, -, h⟩ := bind_eq_ok.mp h
    dsimp only at h
    have inner : Numbers body := numbers body rfl
    have same : s₁.groups = s.groups := (skip_moves (Calm.any _) skipped).groups
    generalize pushed : ({ s₁ with rest := u, opened := (head.kind, whole) :: s₁.opened } : Reading)
      = s₂ at h
    have groups : s₂.groups = if head.kind.captures then head.kind :: s.groups else s.groups := by
      rw [← same, ← pushed, Reading.groups, Reading.groups, List.map_cons, List.filter_cons]
    have below : s.groups.length ≤ s₂.groups.length := by
      rw [groups]
      split
      · exact Nat.le_succ _
      · exact Nat.le_refl _
    have opens : head.kind.captures → s.groups.length < s₂.groups.length := by
      intro captures
      rw [groups, if_pos captures]
      exact Nat.lt_succ_self _
    obtain ⟨more, known⟩ := readGroup_numbers inner below opens h
    exact ⟨Nat.le_trans below more, known⟩

/-! ## Expressions -/

theorem readEscaped_numbers : Numbers readEscaped := by
  intro s s' r h
  obtain ⟨⟨e, u⟩, escape, h⟩ := bind_eq_ok.mp h
  cases e with
  | char c folds =>
    cases h
    refine ⟨Nat.le_refl _, .of_nil ?_⟩
    split <;> rfl
  | set cs =>
    cases h
    exact ⟨Nat.le_refl _, .of_nil rfl⟩
  | expr r' =>
    cases h
    exact ⟨Nat.le_refl _, .of_nil (readEscape_numbers escape)⟩
  | backref name =>
    obtain ⟨rfl, n, -, rfl⟩ := reference_eq_ok h
    exact ⟨Nat.le_refl _, .of_nil rfl⟩

theorem readClass_numbers : Numbers readClass := by
  intro s s' r h
  obtain ⟨⟨tokens, u⟩, -, h⟩ := bind_eq_ok.mp h
  dsimp only at h
  split at h
  next =>
    cases h
    exact ⟨Nat.le_refl _, .of_nil rfl⟩
  next => cases h

theorem readAtom_numbers {body : Option (Reader Regex)} (numbers : ∀ b ∈ body, Numbers b) :
    Numbers (readAtom body) := by
  intro s s' r h
  obtain ⟨s₁, skipped, atom⟩ := readAtom_eq_ok h
  have same : s₁.groups = s.groups := (skip_moves (Calm.any _) skipped).groups
  rw [← same]
  cases atom with
  | nothing => exact ⟨Nat.le_refl _, .of_nil rfl⟩
  | char _ _ _ _ _ single =>
    refine ⟨Nat.le_refl _, .of_nil ?_⟩
    rcases single with ⟨cs, rfl⟩ | ⟨a, rfl⟩
    · rfl
    · rfl
  | group _ read =>
    have known := group?_numbers numbers _ read
    exact known
  | escape _ read =>
    have known := readEscaped_numbers read
    exact known
  | bracket _ read =>
    have known := readClass_numbers read
    exact known

theorem repeated_numbers {q : Quantity} {r' : Regex} (h : repeated r q s = .ok (r', s')) :
    r'.numbers = r.numbers := by
  obtain ⟨s₁, -, h⟩ := bind_eq_ok.mp h
  cases h
  rw [apply_ite Regex.numbers]
  exact ite_self _

theorem quantified_numbers (r : Regex) {low : Nat} {r' : Regex}
    (known : Numbered low s.groups.length r) (h : quantified r s = .ok (r', s')) :
    s.groups.length ≤ s'.groups.length ∧ Numbered low s'.groups.length r' := by
  have same := (quantified_moves (Calm.any _) h).groups
  rw [same]
  refine ⟨Nat.le_refl _, ?_⟩
  obtain ⟨s₁, -, h⟩ := bind_eq_ok.mp h
  split at h
  next =>
    cases h
    exact known
  next =>
    split at h
    next => cases h
    split at h
    next => cases h
    intro n mem
    rw [repeated_numbers h] at mem
    exact known n mem

theorem readPiece_numbers {body : Option (Reader Regex)} (numbers : ∀ b ∈ body, Numbers b) :
    Numbers (readPiece body) := by
  intro s s' r h
  obtain ⟨⟨r', s₁⟩, atom, h⟩ := bind_eq_ok.mp h
  obtain ⟨more, known⟩ := readAtom_numbers numbers atom
  obtain ⟨more', known'⟩ := quantified_numbers r' known h
  exact ⟨Nat.le_trans more more', known'⟩

theorem readBranches_numbers {body : Option (Reader Regex)} (numbers : ∀ b ∈ body, Numbers b)
    {branches : List (List Regex)} (h : readBranches body s = .ok (branches, s')) :
    s.groups.length ≤ s'.groups.length ∧
      ∀ rs ∈ branches, ∀ r ∈ rs, Numbered s.groups.length s'.groups.length r := by
  fun_induction readBranches body s generalizing branches s' with
  | case1 => cases h
  | case2 => cases h
  | case3 s r s₁ piece _ last later ih =>
    cases h
    obtain ⟨more, known⟩ := readPiece_numbers numbers piece
    obtain ⟨more', -⟩ := ih later
    refine ⟨Nat.le_trans more more', fun rs mem x mem' => ?_⟩
    obtain rfl := List.mem_singleton.mp mem
    obtain rfl := List.mem_singleton.mp mem'
    exact known.mono (Nat.le_refl _) more'
  | case4 s r s₁ piece _ rs branches' last later ih =>
    cases h
    obtain ⟨more, known⟩ := readPiece_numbers numbers piece
    obtain ⟨more', known'⟩ := ih later
    refine ⟨Nat.le_trans more more', fun ys mem x mem' => ?_⟩
    rcases List.mem_cons.mp mem with rfl | mem
    · rcases List.mem_cons.mp mem' with rfl | mem'
      · exact known.mono (Nat.le_refl _) more'
      · exact (known' rs List.mem_cons_self x mem').mono more (Nat.le_refl _)
    · exact (known' ys (List.mem_cons_of_mem rs mem) x mem').mono more (Nat.le_refl _)
  | case5 => cases h
  | case6 s r s₁ piece _ t rest branches' last later ih =>
    cases h
    obtain ⟨more, known⟩ := ih later
    refine ⟨more, fun rs mem x mem' => ?_⟩
    rcases List.mem_cons.mp mem with rfl | mem
    · cases mem'
    · exact known rs mem x mem'
  | case7 s =>
    cases h
    refine ⟨Nat.le_refl _, fun rs mem x mem' => ?_⟩
    obtain rfl := List.mem_singleton.mp mem
    cases mem'

theorem readExpression_numbers (depth : Nat) : Numbers (readExpression depth) := by
  have step : ∀ {body : Option (Reader Regex)}, (∀ b ∈ body, Numbers b) →
      Numbers fun s => readBranches body s >>= fun x =>
        pure (Regex.alternatives (x.1.map Regex.sequence), x.2) := by
    intro body numbers s s' r h
    obtain ⟨⟨branches, s₁⟩, read, h⟩ := bind_eq_ok.mp h
    cases h
    obtain ⟨more, known⟩ := readBranches_numbers numbers read
    refine ⟨more, .alternatives fun r mem => ?_⟩
    obtain ⟨rs, known', rfl⟩ := List.mem_map.mp mem
    exact .sequence (known rs known')
  induction depth with
  | zero => exact step fun b mem => by cases mem
  | succ depth ih =>
    refine step fun b mem => ?_
    cases mem
    exact ih

end UrlRouting.Regex
