import UrlRouting.Pattern.Constraint
import UrlRouting.Proofs.Regex.Escape

/-!
# The beginnings of groups as tokens

The reader of expressions and the scanner of constraints both say which kind of group a parenthesis
opens. They agree where nothing is ignored between the parenthesis and the beginning of the group
(`read_kind`); elsewhere the scanner takes the group for one that captures
(`classify_of_isVeiled`).
-/

namespace UrlRouting.Regex

/-- Whether a blank or a comment comes first, which the reader may ignore. -/
def isVeiled : Text → Bool
  | '(' :: '?' :: '#' :: _ => true
  | c :: _ => [' ', '\t', '\r', '\n', '#'].contains c
  | [] => false

/-- The scanner sees the kind that the reader has seen, also in front of a closing parenthesis, or
something stands before the beginning of the group that the reader may ignore. -/
def Understood (e : GroupKind × Text) : Prop :=
  (Constraint.classify e.2.tail = e.1 ∧ ∀ k, Constraint.classify (e.2.tail ++ ')' :: k) = e.1) ∨
    isVeiled e.2.tail = true

/-- Whether a group is complete with its beginning. -/
def GroupHead.isComplete : GroupHead → Bool
  | flags _ | backref _ => true
  | _ => false

/-- What the beginning of a group takes: inert text, and of a complete group also the parenthesis
that closes it. -/
def GroupHead.Takes (head : GroupHead) (t u : Text) : Prop :=
  ∃ x, Inert x ∧ t = x ++ if head.isComplete then ')' :: u else u

theorem GroupHead.Takes.cons {head : GroupHead} {c : Char} {t u : Text} (inert : isInert c)
    (takes : head.Takes t u) : head.Takes (c :: t) u := by
  obtain ⟨x, all, rfl⟩ := takes
  exact ⟨c :: x, .cons inert all, rfl⟩

/-! ## Flags -/

/-- How flags are read. `FlagsRead head u f negated bare t` says that `t` is read as `head` where the
flags `f` are in force, and that `u` is left behind it; `negated` and `bare` are as in `readFlags`. -/
inductive FlagsRead (head : GroupHead) (u : Text) : Flags → Bool → Bool → Text → Prop
  | close {f : Flags} {negated : Bool} : head = .flags f →
    FlagsRead head u f negated false (')' :: u)
  | colon {f : Flags} {negated bare : Bool} : (bare && negated) = false → head = .scoped f →
    FlagsRead head u f negated bare (':' :: u)
  | hyphen {f : Flags} {bare : Bool} {t : Text} : FlagsRead head u f true bare t →
    FlagsRead head u f false bare ('-' :: t)
  | blank {f : Flags} {negated bare : Bool} {c : Char} {t : Text} : f.extended = true →
    c ∈ [' ', '\t', '\r', '\n'] → FlagsRead head u f negated false t →
    FlagsRead head u f negated bare (c :: t)
  | letter {f g : Flags} {negated bare : Bool} {c : Char} {t : Text} :
    f.set? c (!negated) = some g → FlagsRead head u g negated false t →
    FlagsRead head u f negated bare (c :: t)

/-- The letters that name flags. -/
theorem letter_of_set? {f g : Flags} {c : Char} {value : Bool} (known : f.set? c value = some g) :
    c = 'i' ∨ c = 'm' ∨ c = 's' ∨ c = 'U' ∨ c = 'x' ∨ c = 'u' := by
  rw [Flags.set?.eq_def] at known
  split at known
  case h_7 => cases known
  all_goals simp

section

variable {f : Flags} {negated bare : Bool} {t u : Text} {head : GroupHead}

theorem readFlags_eq_ok :
    GroupHead.readFlags f negated bare t = .ok (head, u) ↔ FlagsRead head u f negated bare t := by
  constructor
  · intro h
    fun_induction GroupHead.readFlags f negated bare t with
    | case3 f negated bare t letters =>
      cases h
      rw [Bool.eq_false_iff.mpr letters]
      exact .close rfl
    | case5 f negated bare t proper =>
      cases h
      exact .colon (Bool.eq_false_iff.mpr proper) rfl
    | case7 f negated bare t first ih =>
      rw [Bool.eq_false_iff.mpr first]
      exact .hyphen (ih h)
    | case9 f negated bare c t _ _ _ _ blank ih =>
      obtain ⟨extended, blank⟩ := Bool.and_eq_true_iff.mp blank
      exact .blank extended (List.contains_iff_mem.mp blank) (ih h)
    | case11 f negated bare c t _ _ _ _ _ _ g known ih => exact .letter known (ih h)
    | _ => cases h
  · intro read
    induction read with
    | close same =>
      rw [same]
      rfl
    | colon proper same => rw [GroupHead.readFlags, if_neg (Bool.eq_false_iff.mp proper), same]
    | hyphen _ ih => exact ih
    | blank extended blank _ ih =>
      simp only [List.mem_cons, List.not_mem_nil, or_false] at blank
      rcases blank with rfl | rfl | rfl | rfl <;> simp [GroupHead.readFlags, extended, ih]
    | letter known _ ih =>
      rcases letter_of_set? known with rfl | rfl | rfl | rfl | rfl | rfl <;>
        simp [GroupHead.readFlags, known, ih]

theorem FlagsRead.takes (read : FlagsRead head u f negated bare t) : head.Takes t u := by
  induction read with
  | close same =>
    rw [same]
    exact ⟨[], .nil, rfl⟩
  | colon _ same =>
    rw [same]
    exact ⟨[':'], .cons rfl .nil, rfl⟩
  | hyphen _ ih => exact ih.cons rfl
  | blank _ blank _ ih =>
    refine ih.cons (isInert_of (p := [' ', '\t', '\r', '\n'].contains) (by decide) ?_)
    exact List.contains_iff_mem.mpr blank
  | letter known _ ih =>
    refine ih.cons ?_
    rcases letter_of_set? known with rfl | rfl | rfl | rfl | rfl | rfl <;> rfl

theorem FlagsRead.kind (read : FlagsRead head u f negated bare t) :
    head.kind = .nonCapturing := by
  induction read with
  | close same =>
    rw [same]
    rfl
  | colon _ same =>
    rw [same]
    rfl
  | hyphen _ ih => exact ih
  | blank _ _ _ ih => exact ih
  | letter _ _ ih => exact ih

/-- What flags are read as does not depend on what follows them. -/
theorem FlagsRead.exists_text (read : FlagsRead head u f negated bare t) :
    ∃ s, t = s ++ u ∧ ∀ v, FlagsRead head v f negated bare (s ++ v) := by
  induction read with
  | close same => exact ⟨[')'], rfl, fun v => .close same⟩
  | colon proper same => exact ⟨[':'], rfl, fun v => .colon proper same⟩
  | hyphen _ ih =>
    obtain ⟨s, rfl, reads⟩ := ih
    exact ⟨'-' :: s, rfl, fun v => .hyphen (reads v)⟩
  | @blank _ _ _ c _ extended blank _ ih =>
    obtain ⟨s, rfl, reads⟩ := ih
    exact ⟨c :: s, rfl, fun v => .blank extended blank (reads v)⟩
  | @letter _ _ _ _ c _ known _ ih =>
    obtain ⟨s, rfl, reads⟩ := ih
    exact ⟨c :: s, rfl, fun v => .letter known (reads v)⟩

/-- Flags do not begin like another group. -/
theorem FlagsRead.first {c : Char} (read : FlagsRead head u f negated bare (c :: t)) :
    c ∉ ['=', '!', '<', '\'', 'P', '>', '('] := by
  cases read with
  | close => decide
  | colon => decide
  | hyphen => decide
  | blank _ blank =>
    simp only [List.mem_cons, List.not_mem_nil, or_false] at blank
    rcases blank with rfl | rfl | rfl | rfl <;> decide
  | letter known =>
    rcases letter_of_set? known with rfl | rfl | rfl | rfl | rfl | rfl <;> decide

end

/-! ## Names -/

theorem exists_name_of_withName {head : Text → GroupHead} {mark : Char} {t u : Text} {g : GroupHead}
    (h : GroupHead.withName head mark t = .ok (g, u)) : ∃ name, g = head name := by
  obtain ⟨⟨name, v⟩, -, result⟩ := bind_eq_ok.mp h
  cases result
  exact ⟨name, rfl⟩

theorem withName_takes {head : Text → GroupHead} {mark : Char} (ends : isNameChar mark = false)
    {t u : Text} {g : GroupHead} (h : GroupHead.withName head mark t = .ok (g, u)) :
    ∃ name, g = head name ∧ t = name ++ mark :: u ∧ Inert name := by
  obtain ⟨⟨name, v⟩, read, result⟩ := bind_eq_ok.mp h
  cases result
  obtain ⟨rfl, -, run⟩ := (readName_eq_ok ends).mp read
  exact ⟨name, rfl, rfl, inert_of_names run⟩

/-- The scanner finds the name of a group that the reader has read. -/
theorem namedUpTo_of_withName {mark : Char} (ends : isNameChar mark = false) {t u : Text}
    {g : GroupHead} (h : GroupHead.withName .named mark t = .ok (g, u)) :
    Constraint.namedUpTo mark t = g.kind := by
  obtain ⟨⟨name, v⟩, read, result⟩ := bind_eq_ok.mp h
  cases result
  obtain ⟨rfl, -, run⟩ := (readName_eq_ok ends).mp read
  have free : mark ∉ name := by
    intro mem
    have := run mark mem
    rw [ends] at this
    cases this
  rw [Constraint.namedUpTo, Text.splitFirst_append free]
  rfl

/-! ## Beginnings -/

theorem read_takes {f : Flags} {t u : Text} {head : GroupHead}
    (h : GroupHead.read f t = .ok (head, u)) : head.Takes t u := by
  have named : ∀ {mark : Char} {t : Text}, isInert mark → isNameChar mark = false →
      GroupHead.withName .named mark t = .ok (head, u) → head.Takes t u := by
    intro mark t inert ends h
    obtain ⟨name, rfl, rfl, all⟩ := withName_takes ends h
    exact ⟨name ++ [mark], all.append (.cons inert .nil), by simp [GroupHead.isComplete]⟩
  unfold GroupHead.read at h
  split at h
  · cases h
    exact ⟨['?', '='], List.all_eq_true.mp rfl, rfl⟩
  · cases h
    exact ⟨['?', '!'], List.all_eq_true.mp rfl, rfl⟩
  · cases h
    exact ⟨['?', '<', '='], List.all_eq_true.mp rfl, rfl⟩
  · cases h
    exact ⟨['?', '<', '!'], List.all_eq_true.mp rfl, rfl⟩
  · exact ((named rfl (by decide) h).cons rfl).cons rfl
  · exact ((named rfl (by decide) h).cons rfl).cons rfl
  · exact (((named rfl (by decide) h).cons rfl).cons rfl).cons rfl
  · obtain ⟨name, rfl, rfl, all⟩ := withName_takes (by decide) h
    exact ⟨'?' :: 'P' :: '=' :: name, .cons rfl (.cons rfl (.cons rfl all)), rfl⟩
  · cases h
    exact ⟨['?', '>'], List.all_eq_true.mp rfl, rfl⟩
  · cases h
  · exact (readFlags_eq_ok.mp h).takes.cons rfl
  · cases h
    exact ⟨[], .nil, rfl⟩

theorem read_taken {f : Flags} {t u : Text} {head : GroupHead}
    (h : GroupHead.read f t = .ok (head, u)) (comments : Bool) : Taken comments t [] u := by
  obtain ⟨x, inert, rfl⟩ := read_takes h
  have first {v : Text} : Taken comments (x ++ v) [] v := .of_inert inert v
  refine first.trans ?_
  split
  · exact .char (by decide) (by decide) (by decide) (.done u)
  · exact .done u

/-- What begins neither with a question mark nor with an asterisk captures. -/
theorem classify_capturing {c : Char} {t : Text} (mark : c ≠ '?') (star : c ≠ '*') :
    Constraint.classify (c :: t) = .capturing := by
  have ne : ∀ {d : Char} {u v : Text}, c ≠ d → c :: u = d :: v → False :=
    fun ne eq => ne (List.cons.inj eq).1
  exact Constraint.classify.eq_8 _ (fun _ => ne mark) (fun _ => ne mark) (fun _ => ne mark)
    (fun _ => ne mark) (fun _ => ne mark) (fun _ => ne mark) (fun _ => ne star)

/-- The scanner takes a group for one that captures where something may be ignored. -/
theorem classify_of_isVeiled {t : Text} (veiled : isVeiled t = true) :
    Constraint.classify t = .capturing := by
  unfold isVeiled at veiled
  split at veiled
  next => rfl
  next c t _ =>
    apply classify_capturing
    · intro mark
      rw [mark] at veiled
      cases veiled
    · intro star
      rw [star] at veiled
      cases veiled
  next => cases veiled

/-- What begins with a question mark does not capture without a name. -/
theorem classify_mark (t : Text) : Constraint.classify ('?' :: t) ≠ .capturing := by
  have named : ∀ (mark : Char) (u : Text), Constraint.namedUpTo mark u ≠ .capturing := by
    intro mark u
    unfold Constraint.namedUpTo
    split <;> nofun
  rw [Constraint.classify.eq_def]
  split
  · exact named '>' _
  · nofun
  · nofun
  · exact named '>' _
  · exact named '\'' _
  · nofun
  · nofun
  next other _ => exact absurd rfl (other t)

/-- The scanner and the reader agree on the kind of a group, unless it begins with an asterisk. -/
theorem read_kind {f : Flags} {t u : Text} {head : GroupHead}
    (h : GroupHead.read f t = .ok (head, u)) (star : t.head? ≠ some '*') :
    Constraint.classify t = head.kind := by
  have angle : isNameChar '>' = false := by decide
  have quote : isNameChar '\'' = false := by decide
  unfold GroupHead.read at h
  split at h
  · cases h
    rfl
  · cases h
    rfl
  · cases h
    rfl
  · cases h
    rfl
  next t ahead behind =>
    exact (Constraint.classify.eq_4 t ahead behind).trans (namedUpTo_of_withName angle h)
  next t => exact (namedUpTo_of_withName quote h)
  next t => exact (namedUpTo_of_withName angle h)
  next t =>
    obtain ⟨name, rfl⟩ := exists_name_of_withName h
    rfl
  · cases h
    rfl
  · cases h
  next t _ _ behind behindNot angle quote named _ _ _ =>
    have other := Constraint.classify.eq_6 t named behind behindNot angle quote
    exact other.trans (readFlags_eq_ok.mp h).kind.symm
  next plain =>
    cases h
    cases t with
    | nil => rfl
    | cons c t =>
      refine classify_capturing (fun eq => plain t (by rw [eq])) fun eq => star ?_
      rw [eq]
      rfl

/-! ## In front of other text -/

theorem withName_local {head : Text → GroupHead} {mark : Char} (ends : isNameChar mark = false)
    {t u : Text} {g : GroupHead} (h : GroupHead.withName head mark t = .ok (g, u)) :
    ∃ s, t = s ++ u ∧ ∀ v, GroupHead.withName head mark (s ++ v) = .ok (g, v) := by
  obtain ⟨⟨name, u⟩, read, result⟩ := bind_eq_ok.mp h
  cases result
  obtain ⟨rfl, nonempty, run⟩ := (readName_eq_ok ends).mp read
  refine ⟨name ++ [mark], by simp, fun v => ?_⟩
  rw [GroupHead.withName,
    (readName_eq_ok ends).mpr ⟨List.append_assoc name [mark] v, nonempty, run⟩]
  rfl

theorem read_capturing (f : Flags) {t : Text} (h : ∀ u, t ≠ '?' :: u) :
    GroupHead.read f t = .ok (.capturing, t) := by
  rw [GroupHead.read.eq_def]
  split <;> first | exact absurd rfl (h _) | rfl

/-- What the beginning of a group is read as does not depend on what follows it, except that a group
which captures without a name begins with no question mark. -/
theorem read_local {f : Flags} {t u : Text} {head : GroupHead}
    (h : GroupHead.read f t = .ok (head, u)) :
    (head = .capturing ∧ t = u ∧ ∀ v, t ≠ '?' :: v) ∨ ∃ s, t = '?' :: (s ++ u) ∧
      ∀ v, GroupHead.read f ('?' :: (s ++ v)) = .ok (head, v) := by
  have angle : isNameChar '>' = false := by decide
  have quote : isNameChar '\'' = false := by decide
  have close : isNameChar ')' = false := by decide
  unfold GroupHead.read at h
  split at h
  · cases h
    exact .inr ⟨['='], rfl, fun v => rfl⟩
  · cases h
    exact .inr ⟨['!'], rfl, fun v => rfl⟩
  · cases h
    exact .inr ⟨['<', '='], rfl, fun v => rfl⟩
  · cases h
    exact .inr ⟨['<', '!'], rfl, fun v => rfl⟩
  next t ahead behind =>
    obtain ⟨s, rfl, reads⟩ := withName_local angle h
    refine .inr ⟨'<' :: s, rfl, fun v => ?_⟩
    rw [← reads v, List.cons_append]
    cases s with
    | nil =>
      have impossible := reads []
      cases impossible
    | cons c s =>
      refine GroupHead.read.eq_5 f _ (fun w eq => ?_) fun w eq => ?_
      · cases eq
        exact ahead _ rfl
      · cases eq
        exact behind _ rfl
  · obtain ⟨s, rfl, reads⟩ := withName_local quote h
    exact .inr ⟨'\'' :: s, rfl, fun v => reads v⟩
  · obtain ⟨s, rfl, reads⟩ := withName_local angle h
    exact .inr ⟨'P' :: '<' :: s, rfl, fun v => reads v⟩
  · obtain ⟨s, rfl, reads⟩ := withName_local close h
    exact .inr ⟨'P' :: '=' :: s, rfl, fun v => reads v⟩
  · cases h
    exact .inr ⟨['>'], rfl, fun v => rfl⟩
  · cases h
  next =>
    have flags := readFlags_eq_ok.mp h
    obtain ⟨s, rfl, reads⟩ := flags.exists_text
    refine .inr ⟨s, rfl, fun v => ?_⟩
    rw [← readFlags_eq_ok.mpr (reads v)]
    cases s with
    | nil => cases reads []
    | cons c s =>
      have other : ∀ {d : Char} {v w : Text}, d ∈ ['=', '!', '<', '\'', 'P', '>', '('] →
          c :: v = d :: w → False := by
        intro d v w mem eq
        have first := flags.first
        rw [(List.cons.inj eq).1] at first
        exact first mem
      exact GroupHead.read.eq_11 f _ (fun _ => other (by simp)) (fun _ => other (by simp))
        (fun _ => other (by simp)) (fun _ => other (by simp)) (fun _ => other (by simp))
        (fun _ => other (by simp)) (fun _ => other (by simp)) (fun _ => other (by simp))
        (fun _ => other (by simp)) (fun _ => other (by simp))
  next plain =>
    cases h
    exact .inl ⟨rfl, rfl, fun v eq => plain v eq⟩

theorem read_append {f : Flags} {t u : Text} {head : GroupHead}
    (h : GroupHead.read f t = .ok (head, u)) (k : Text) :
    GroupHead.read f (t ++ ')' :: k) = .ok (head, u ++ ')' :: k) := by
  rcases read_local h with ⟨rfl, rfl, plain⟩ | ⟨s, rfl, reads⟩
  · refine read_capturing f fun u eq => ?_
    cases t with
    | nil => cases eq
    | cons c t =>
      cases eq
      exact plain t rfl
  · rw [← reads (u ++ ')' :: k), List.cons_append, List.append_assoc]

/-- The scanner and the reader agree on a group that does not begin with an asterisk, also in front
of a closing parenthesis. -/
theorem read_understood {f : Flags} {t u : Text} {head : GroupHead}
    (h : GroupHead.read f t = .ok (head, u)) (star : t.head? ≠ some '*') :
    Constraint.classify t = head.kind ∧ ∀ k, Constraint.classify (t ++ ')' :: k) = head.kind := by
  constructor
  · exact read_kind h star
  · intro k
    refine read_kind (read_append h k) ?_
    cases t with
    | nil => simp
    | cons c t => exact star

/-! ## Tame groups -/

/-- Whether a group is no comment and sets no flags, by the text from its parenthesis on. -/
def isTame : Text → Bool
  | '(' :: '?' :: c :: _ => !(['#', '-', 'i', 'm', 's', 'U', 'x', 'u'].contains c)
  | _ => true

/-- A tame group that begins like flags sets none for its body, unless blanks are ignored. -/
theorem FlagsRead.tame {f : Flags} {t u : Text} {head : GroupHead} (blanks : f.extended = false)
    (read : FlagsRead head u f false true t) (tame : isTame ('(' :: '?' :: t)) :
    head = .scoped f := by
  cases read with
  | colon _ same => exact same
  | hyphen => cases tame
  | blank extended =>
    rw [blanks] at extended
    cases extended
  | letter known =>
    -- A letter that names a flag is not tame.
    rcases letter_of_set? known with rfl | rfl | rfl | rfl | rfl | rfl <;> cases tame

/-- A tame group leaves the flags as they are, unless blanks are ignored. -/
theorem read_tame {f : Flags} {t u : Text} {head : GroupHead} (blanks : f.extended = false)
    (h : GroupHead.read f t = .ok (head, u)) (tame : isTame ('(' :: t)) :
    (∀ g, head ≠ .flags g) ∧ ∀ g, head = .scoped g → g = f := by
  unfold GroupHead.read at h
  split at h
  · cases h
    exact ⟨nofun, nofun⟩
  · cases h
    exact ⟨nofun, nofun⟩
  · cases h
    exact ⟨nofun, nofun⟩
  · cases h
    exact ⟨nofun, nofun⟩
  · obtain ⟨name, rfl⟩ := exists_name_of_withName h
    exact ⟨nofun, nofun⟩
  · obtain ⟨name, rfl⟩ := exists_name_of_withName h
    exact ⟨nofun, nofun⟩
  · obtain ⟨name, rfl⟩ := exists_name_of_withName h
    exact ⟨nofun, nofun⟩
  · obtain ⟨name, rfl⟩ := exists_name_of_withName h
    exact ⟨nofun, nofun⟩
  · cases h
    exact ⟨nofun, nofun⟩
  · cases h
  · obtain rfl := (readFlags_eq_ok.mp h).tame blanks tame
    exact ⟨nofun, fun g same => (GroupHead.scoped.inj same).symm⟩
  · cases h
    exact ⟨nofun, nofun⟩

end UrlRouting.Regex
