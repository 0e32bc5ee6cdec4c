import UrlRouting.Proofs.Regex.Uncommented

/-!
# What readers of atoms and groups have done

Inversion of the readers that take one of several ways. A reader of atoms reads nothing, one
character, a group, an escape or a class (`readAtom_eq_ok`). A group that is not complete with its
beginning reads a body with some flags and makes an expression of it (`readGroup_open`), so what is
said of groups is said of their bodies and of `GroupHead.wrap`.
-/

namespace UrlRouting.Regex

variable {s s' : Reading} {r : Regex} {head : GroupHead} {body : Reader Regex}

/-! ## References and bodies -/

theorem reference_eq_ok {name : Text} (h : reference name s = .ok (r, s')) :
    s' = s ∧ ∃ n, s.groupNumber? name = some n ∧ r = backref n s.flags.caseless := by
  unfold reference at h
  split at h
  next n known =>
    cases h
    exact ⟨rfl, n, known, rfl⟩
  next => cases h

theorem closeGroup_eq_ok :
    closeGroup s = .ok s' ↔ ∃ t, s.rest = ')' :: t ∧ s' = { s with rest := t } := by
  unfold closeGroup Reading.take
  constructor
  · intro h
    split at h
    next _ eq =>
      split at eq
      next c t rest =>
        split at eq
        next same =>
          cases eq
          cases h
          exact ⟨t, by rw [rest, same], rfl⟩
        next => cases eq
      next => cases eq
    next => cases h
  · rintro ⟨t, rest, rfl⟩
    rw [rest]
    rfl

theorem enclosed_eq_ok : enclosed body s = .ok (r, s') ↔
    ∃ s₁, body s = .ok (r, s₁) ∧ s₁.rest = ')' :: s'.rest ∧ s' = { s₁ with rest := s'.rest } := by
  constructor
  · intro h
    obtain ⟨⟨r', s₁⟩, inner, h⟩ := bind_eq_ok.mp h
    obtain ⟨s₂, close, h⟩ := bind_eq_ok.mp h
    cases h
    obtain ⟨t, rest, rfl⟩ := closeGroup_eq_ok.mp close
    exact ⟨s₁, inner, rest, rfl⟩
  · rintro ⟨s₁, inner, rest, same⟩
    rw [enclosed, inner, ok_bind]
    dsimp only
    rw [closeGroup_eq_ok.mpr ⟨s'.rest, rest, rfl⟩, ok_bind, ← same]
    rfl

/-! ## Groups -/

namespace GroupHead

/-- The flags in the body of a group. -/
def inner (f : Flags) : GroupHead → Flags
  | .scoped g => g
  | _ => f

/-- The flags that come back behind a group which sets them for its body alone. -/
def restored (f : Flags) : GroupHead → Option Flags
  | .scoped _ => some f
  | _ => none

/-- What a group makes of its body. If it captures it has the given number. -/
def wrap (number : Nat) (r : Regex) : GroupHead → Except SyntaxError Regex
  | .capturing | .named _ => pure (group number r)
  | .atomic => pure (Regex.atomic r)
  | .look direction negated =>
    if direction = .behind ∧ r.widths? = none then throw .variableLookBehind
    else pure (Regex.look direction negated r)
  | .scoped _ | .flags _ | .backref _ => pure r

theorem getD_restored (f : Flags) (head : GroupHead) :
    (head.restored f).getD (head.inner f) = f := by
  cases head <;> rfl

theorem inner_eq {f : Flags} (same : ∀ g, head = .scoped g → g = f) : head.inner f = f := by
  cases head with
  | «scoped» g => exact same g rfl
  | _ => rfl

end GroupHead

/-- The beginning of a group with a body. -/
theorem Place.enter_open (incomplete : head.isComplete = false) (f : Flags)
    (outer : List (Option Flags)) :
    Place.enter ⟨f, outer, .outside⟩ head =
      ⟨head.inner f, head.restored f :: outer, .outside⟩ := by
  cases head with
  | flags => cases incomplete
  | backref => cases incomplete
  | _ => rfl

/-- A group with a body reads it, puts the flags back and makes an expression of the body. -/
theorem readGroup_open (incomplete : head.isComplete = false) (body : Reader Regex)
    (s : Reading) :
    readGroup body head s = enclosed body { s with flags := head.inner s.flags } >>= fun x =>
      head.wrap s.groups.length x.1 >>= fun r =>
        pure (r, { x.2 with flags := (head.restored s.flags).getD x.2.flags }) := by
  cases head with
  | flags => cases incomplete
  | backref => cases incomplete
  | look direction negated =>
    refine congrArg (enclosed body s >>= ·) (funext fun x => ?_)
    dsimp only [GroupHead.wrap]
    split <;> rfl
  | _ => rfl

/-- A group sets flags, refers to another one or has a body. -/
theorem readGroup_eq_ok (h : readGroup body head s = .ok (r, s')) :
    (∃ f, head = .flags f ∧ r = empty ∧ s' = { s with flags := f }) ∨
    (∃ name, head = .backref name ∧ reference name s = .ok (r, s')) ∨
    head.isComplete = false ∧ ∃ r' s₁,
      enclosed body { s with flags := head.inner s.flags } = .ok (r', s₁) ∧
      head.wrap s.groups.length r' = .ok r ∧
      s' = { s₁ with flags := (head.restored s.flags).getD s₁.flags } := by
  cases complete : head.isComplete with
  | true =>
    cases head with
    | flags f =>
      cases h
      exact .inl ⟨f, rfl, rfl, rfl⟩
    | backref name => exact .inr (.inl ⟨name, rfl, h⟩)
    | _ => cases complete
  | false =>
    rw [readGroup_open complete] at h
    obtain ⟨⟨r', s₁⟩, inner, h⟩ := bind_eq_ok.mp h
    obtain ⟨r'', wrapped, h⟩ := bind_eq_ok.mp h
    cases h
    exact .inr (.inr ⟨rfl, r', s₁, inner, wrapped, rfl⟩)

/-! ## Atoms -/

/-- What is read as an atom where nothing is ignored. -/
inductive Atom (body : Option (Reader Regex)) (s : Reading) : Regex → Reading → Prop
  | nothing : Atom body s empty s
  | char {c : Char} {t : Text} {r : Regex} (rest : s.rest = c :: t) (escape : c ≠ '\\')
    (bracket : c ≠ '[') (group : c ≠ '(') (close : c ≠ ')')
    (single : (∃ cs, r = set cs) ∨ ∃ a, r = assert a) : Atom body s r { s with rest := t }
  | group {t : Text} {r : Regex} {s' : Reading} (rest : s.rest = '(' :: t)
    (read : group? body ('(' :: t) { s with rest := t } = .ok (r, s')) : Atom body s r s'
  | escape {t : Text} {r : Regex} {s' : Reading} (rest : s.rest = '\\' :: t)
    (read : readEscaped { s with rest := t } = .ok (r, s')) : Atom body s r s'
  | bracket {t : Text} {r : Regex} {s' : Reading} (rest : s.rest = '[' :: t)
    (read : readClass { s with rest := t } = .ok (r, s')) : Atom body s r s'

theorem readAtom_eq_ok {body : Option (Reader Regex)} (h : readAtom body s = .ok (r, s')) :
    ∃ s₁, s.skip = .ok s₁ ∧ Atom body s₁ r s' := by
  obtain ⟨s₁, skipped, h⟩ := bind_eq_ok.mp h
  refine ⟨s₁, skipped, ?_⟩
  clear skipped
  dsimp only at h
  split at h
  next =>
    cases h
    exact .nothing
  next c t rest =>
    split at h
    next =>
      cases h
      exact .char rest (by decide) (by decide) (by decide) (by decide) (.inl ⟨_, rfl⟩)
    next =>
      cases h
      exact .char rest (by decide) (by decide) (by decide) (by decide) (.inr ⟨_, rfl⟩)
    next =>
      cases h
      exact .char rest (by decide) (by decide) (by decide) (by decide) (.inr ⟨_, rfl⟩)
    next => exact .group rest h
    next => exact .escape rest h
    next => exact .bracket rest h
    all_goals cases h
    any_goals exact .nothing
    next group escape bracket _ _ _ _ close =>
      exact .char rest escape bracket group close (.inl ⟨_, rfl⟩)

end UrlRouting.Regex
