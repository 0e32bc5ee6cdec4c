import UrlRouting.Proofs.Regex.Advancing

/-!
# Flags that are in force behind an expression

A group may set flags for what follows it. `setsFlags` finds such groups by their text. A text
without comments that has none, and nothing that may be ignored behind its parentheses, leaves the
flags as they are (`flags_of_readExpression`). Flags for the body of a group alone do no harm.
-/

namespace UrlRouting.Regex

/-! ## Groups that set flags -/

/-- Whether a group sets flags for what follows it, by the text from its parenthesis on: it consists
of flags, with blanks between them where blanks are ignored. -/
def setsFlags : Text → Bool
  | '(' :: '?' :: t =>
    match GroupHead.readFlags { extended := true } false true t with
    | .ok (.flags _, _) => true
    | _ => false
  | _ => false

/-- Which letters name flags does not depend on the flags that are in force. If blanks are ignored
where they are under other flags, this stays so behind a letter. -/
theorem exists_set? {f f' g : Flags} {c : Char} {value : Bool} (known : f.set? c value = some g)
    (blanks : f.extended = true → f'.extended = true) :
    ∃ g', f'.set? c value = some g' ∧ (g.extended = true → g'.extended = true) := by
  unfold Flags.set? at known ⊢
  split at known
  case h_6 =>
    cases value
    · cases known
    · cases known
      exact ⟨f', rfl, blanks⟩
  case h_7 => cases known
  all_goals
    cases known
    exact ⟨_, rfl, by first | exact blanks | exact id⟩

/-- What is read as flags that end with their group is read as such under other flags, if these
ignore blanks where the first do. -/
theorem FlagsRead.exists_flags {f : Flags} {negated bare : Bool} {t u : Text} {head : GroupHead}
    (read : FlagsRead head u f negated bare t) (complete : head.isComplete = true) (f' : Flags)
    (blanks : f.extended = true → f'.extended = true) :
    ∃ g, FlagsRead (.flags g) u f' negated bare t := by
  induction read generalizing f' with
  | close => exact ⟨f', .close rfl⟩
  | colon _ same =>
    rw [same] at complete
    cases complete
  | hyphen _ ih =>
    obtain ⟨g, read⟩ := ih f' blanks
    exact ⟨g, .hyphen read⟩
  | blank extended blank _ ih =>
    obtain ⟨g, read⟩ := ih f' blanks
    exact ⟨g, .blank (blanks extended) blank read⟩
  | letter known _ ih =>
    obtain ⟨f₂, known', blanks'⟩ := exists_set? known blanks
    obtain ⟨g, read⟩ := ih f₂ blanks'
    exact ⟨g, .letter known' read⟩

theorem setsFlags_of_read {f g : Flags} {t u : Text}
    (h : GroupHead.read f t = .ok (.flags g, u)) : setsFlags ('(' :: t) = true := by
  have named {head : Text → GroupHead} {mark : Char} {t : Text}
      (other : ∀ name, head name ≠ .flags g) :
      GroupHead.withName head mark t ≠ .ok (.flags g, u) := by
    intro h
    obtain ⟨name, same⟩ := exists_name_of_withName h
    exact other name same.symm
  unfold GroupHead.read at h
  split at h
  · cases h
  · cases h
  · cases h
  · cases h
  · exact absurd h (named fun name => by simp)
  · exact absurd h (named fun name => by simp)
  · exact absurd h (named fun name => by simp)
  · exact absurd h (named fun name => by simp)
  · cases h
  · cases h
  next t _ _ _ _ _ _ _ _ _ _ =>
    obtain ⟨g', read⟩ :=
      (readFlags_eq_ok.mp h).exists_flags rfl { extended := true } fun _ => rfl
    rw [setsFlags, readFlags_eq_ok.mpr read]
  · cases h

/-! ## Texts that set no flags -/

/-- No group in a text sets flags for what follows it, and nothing that may be ignored stands behind
a parenthesis. -/
def Lasting (t : Text) : Prop := ∀ w ∈ openings t, setsFlags w = false ∧ isVeiled w.tail = false

variable {s s' : Reading} {r : Regex}

/-- What is left of a text sets no flags if the whole does not. -/
theorem Lasting.of_taken {t u : Text} {ws : List Text} (lasting : Lasting t)
    (taken : Taken Mode.hashFree.comments t ws u) : Lasting u := by
  obtain ⟨-, -, -, groups⟩ := taken.exists_closed (.inl rfl)
  intro w mem
  apply lasting w
  rw [groups]
  exact List.mem_append_right _ mem

theorem Lasting.of_advances (lasting : Lasting s.rest) (advances : Advances .hashFree s s') :
    Lasting s'.rest := by
  obtain ⟨new, -, taken, -⟩ := advances.groups
  exact lasting.of_taken taken

/-- A reader leaves the flags as they are on a text that sets none. -/
def Lasts (read : Reader Regex) : Prop :=
  ∀ s s' r, Calm .hashFree s → Lasting s.rest → read s = .ok (r, s') → s'.flags = s.flags

/-! ## Groups -/

/-- Only a group that consists of flags leaves others in force. -/
theorem readGroup_lasts {body : Reader Regex} {head : GroupHead} (lasts : Lasts body)
    (calm : Calm .hashFree s) (lasting : Lasting s.rest) (other : ∀ g, head ≠ .flags g)
    (h : readGroup body head s = .ok (r, s')) : s'.flags = s.flags := by
  rcases readGroup_eq_ok h with ⟨f, same, -⟩ | ⟨name, -, h⟩ | ⟨-, r', s₁, inner, -, rfl⟩
  · exact absurd same (other f)
  · rw [(reference_eq_ok h).1]
  · obtain ⟨s₂, read, -, same⟩ := enclosed_eq_ok.mp inner
    have flags : s₂.flags = head.inner s.flags :=
      lasts { s with flags := head.inner s.flags } s₂ r' calm lasting read
    rw [same]
    dsimp only
    rw [flags]
    exact head.getD_restored s.flags

theorem group?_lasts {body : Option (Reader Regex)} (lasts : ∀ b ∈ body, Lasts b) {u : Text}
    (rest : s.rest = '(' :: u) (calm : Calm .hashFree s) (lasting : Lasting s.rest)
    (h : group? body ('(' :: u) { s with rest := u } = .ok (r, s')) : s'.flags = s.flags := by
  unfold group? at h
  cases body with
  | none => cases h
  | some body =>
    obtain ⟨s₁, skipped, h⟩ := bind_eq_ok.mp h
    obtain ⟨⟨head, v⟩, beginning, h⟩ := bind_eq_ok.mp h
    have moves := skip_moves (calm.inside rest) skipped
    obtain ⟨calm', -⟩ := calm.head rest skipped beginning ((head.kind, '(' :: u) :: s₁.opened)
    have here : '(' :: u ∈ openings s.rest := by
      rw [rest, openings_group]
      exact List.mem_cons_self
    obtain ⟨plain, unveiled⟩ := lasting _ here
    have inside : Lasting u := by
      intro w mem
      apply lasting w
      rw [rest, openings_group]
      exact List.mem_cons_of_mem _ mem
    -- Nothing is ignored behind the parenthesis, so the beginning is what the text shows.
    obtain ⟨w, ignored, same⟩ := Option.map_eq_some_iff.mp (skip_eq_ok.mp skipped)
    have other : ∀ g, head ≠ .flags g := by
      intro g flags
      rcases isVeiled_of_skipIgnored ignored with visible | veiled
      · rw [← same, flags] at beginning
        have sets := setsFlags_of_read beginning
        rw [visible, plain] at sets
        cases sets
      · rw [List.tail_cons, veiled] at unveiled
        cases unveiled
    have behind : Lasting v :=
      (inside.of_taken moves.taken).of_taken (read_taken beginning _)
    rw [readGroup_lasts (lasts body rfl) calm' behind other h]
    exact moves.flags

/-! ## Expressions -/

theorem readAtom_lasts {body : Option (Reader Regex)} (lasts : ∀ b ∈ body, Lasts b)
    (calm : Calm .hashFree s) (lasting : Lasting s.rest) (h : readAtom body s = .ok (r, s')) :
    s'.flags = s.flags := by
  obtain ⟨s₁, skipped, atom⟩ := readAtom_eq_ok h
  have moves := skip_moves calm skipped
  rw [← moves.flags]
  cases atom with
  | nothing => rfl
  | char => rfl
  | group rest read =>
    exact group?_lasts lasts rest (moves.calm calm) (lasting.of_advances moves.advances) read
  | escape rest read =>
    have escape : Moves .any s₁ s' := readEscaped_moves rest read
    exact escape.flags
  | bracket rest read =>
    have bracket : Moves .any s₁ s' := readClass_moves rest read
    exact bracket.flags

theorem readPiece_lasts {body : Option (Reader Regex)} (reads : ∀ b ∈ body, Reads .hashFree b)
    (lasts : ∀ b ∈ body, Lasts b) (calm : Calm .hashFree s) (lasting : Lasting s.rest)
    (h : readPiece body s = .ok (r, s')) : s'.flags = s.flags := by
  obtain ⟨⟨r', s₁⟩, atom, h⟩ := bind_eq_ok.mp h
  have calm₁ := (readAtom_advances reads calm atom).calm calm
  rw [(quantified_moves calm₁ h).flags]
  exact readAtom_lasts lasts calm lasting atom

theorem readBranches_lasts {body : Option (Reader Regex)} (reads : ∀ b ∈ body, Reads .hashFree b)
    (lasts : ∀ b ∈ body, Lasts b) {branches : List (List Regex)} (calm : Calm .hashFree s)
    (lasting : Lasting s.rest) (h : readBranches body s = .ok (branches, s')) :
    s'.flags = s.flags := by
  fun_induction readBranches body s generalizing branches s' with
  | case1 => cases h
  | case2 => cases h
  | case3 s r s₁ piece _ last later ih =>
    cases h
    have first := readPiece_advances reads calm piece
    rw [ih (first.calm calm) (lasting.of_advances first) later]
    exact readPiece_lasts reads lasts calm lasting piece
  | case4 s r s₁ piece _ rs branches' last later ih =>
    cases h
    have first := readPiece_advances reads calm piece
    rw [ih (first.calm calm) (lasting.of_advances first) later]
    exact readPiece_lasts reads lasts calm lasting piece
  | case5 => cases h
  | case6 s r s₁ piece _ t rest branches' last later ih =>
    cases h
    have bar : Moves .hashFree s { s with rest := t } := .mark rest (by decide) (by decide)
    rw [ih (bar.calm calm) (lasting.of_advances bar.advances) later]
  | case7 s =>
    cases h
    rfl

/-- An expression without comments leaves the flags as they are if no group in it sets flags for
what follows. -/
theorem flags_of_readExpression (depth : Nat) : Lasts (readExpression depth) := by
  induction depth with
  | zero =>
    intro s s' r calm lasting h
    obtain ⟨⟨branches, s₁⟩, read, h⟩ := bind_eq_ok.mp h
    cases h
    exact readBranches_lasts (by simp) (by simp) calm lasting read
  | succ depth ih =>
    intro s s' r calm lasting h
    obtain ⟨⟨branches, s₁⟩, read, h⟩ := bind_eq_ok.mp h
    cases h
    refine readBranches_lasts (fun b mem => ?_) (fun b mem => ?_) calm lasting read
    · cases mem
      exact reads_readExpression .hashFree depth
    · cases mem
      exact ih

end UrlRouting.Regex
