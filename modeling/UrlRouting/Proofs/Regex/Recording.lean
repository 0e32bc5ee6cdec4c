import UrlRouting.Proofs.Regex.Numbering
import UrlRouting.Regex.Program

/-!
# What a match records

`Recording r c d` says that a match of `r` that begins with the captures `c` may end with `d`. It
leaves open where the match stands, and so it covers look-around, atomic groups and back-references
as well. Captures of a branch that has been given up do not appear in `d`.

Both matchers keep to it. What the solver gives records what its expression may record
(`solve_grows`), and a trial that succeeds has gone on with captures that its expression may have
recorded, whatever has been tried before (`attempt_grows`). So it holds of all that a program finds
(`recording_of_match?`).
-/

namespace UrlRouting.Regex

/-- How captures grow. -/
abbrev Growth := Captures → Captures → Prop

/-- So many steps of one kind. -/
def Growth.times (step : Growth) : Nat → Growth
  | 0 => fun c d => d = c
  | n + 1 => fun c d => ∃ e, step c e ∧ step.times n e d

/-- What a match of an expression may record. -/
def Recording : Regex → Growth
  | empty | set _ | assert _ | backref .. => fun c d => d = c
  | seq r s => fun c d => ∃ e, Recording r c e ∧ Recording s e d
  | alt r s => fun c d => Recording r c d ∨ Recording s c d
  | group number r => fun c d => ∃ e p q, Recording r c e ∧ d = (number, p, q) :: e
  | loop least most _ r => fun c d =>
    ∃ n, least ≤ n ∧ (∀ m ∈ most, n ≤ max least m) ∧ (Recording r).times n c d
  | look _ negated r => fun c d => if negated then d = c else Recording r c d
  | atomic r => Recording r

/-! ## Groups -/

variable {c d : Captures}

theorem Growth.times_add {step : Growth} (m n : Nat) {e : Captures} (first : step.times m c e)
    (second : step.times n e d) : step.times (m + n) c d := by
  induction m generalizing c with
  | zero =>
    cases first
    rwa [Nat.zero_add]
  | succ m ih =>
    obtain ⟨k, here, more⟩ := first
    rw [Nat.succ_add]
    exact ⟨k, here, ih more⟩

/-- What a loop may record: so much as it must, and no more than it may. -/
theorem Recording.of_times {least n : Nat} {most : Option Nat} {greedy : Bool} {r : Regex}
    {e : Captures} (few : ∀ m ∈ most, n ≤ m - least) (must : (Recording r).times least c e)
    (more : (Recording r).times n e d) : Recording (loop least most greedy r) c d := by
  refine ⟨least + n, Nat.le_add_right _ _, fun m mem => ?_, Growth.times_add least n must more⟩
  have := few m mem
  omega

/-- What keeps to some numbers in each step keeps to them in all. -/
theorem Growth.times_captures {step : Growth} {ns : List Nat}
    (each : ∀ c d, step c d → ∃ new, d = new ++ c ∧ ∀ e ∈ new, e.1 ∈ ns) {n : Nat}
    (all : step.times n c d) : ∃ new, d = new ++ c ∧ ∀ e ∈ new, e.1 ∈ ns := by
  induction n generalizing c with
  | zero => exact ⟨[], all, nofun⟩
  | succ n ih =>
    obtain ⟨e, here, more⟩ := all
    obtain ⟨new, rfl, known⟩ := each c e here
    obtain ⟨new', rfl, known'⟩ := ih more
    refine ⟨new' ++ new, (List.append_assoc _ _ _).symm, fun x mem => ?_⟩
    exact (List.mem_append.mp mem).elim (known' x) (known x)

/-- A match records groups of its expression only. -/
theorem Recording.captures {r : Regex} (recording : Recording r c d) :
    ∃ new, d = new ++ c ∧ ∀ e ∈ new, e.1 ∈ r.numbers := by
  induction r generalizing c d with
  | empty | set | assert | backref => exact ⟨[], recording, nofun⟩
  | seq r s ihr ihs =>
    obtain ⟨e, before, after⟩ := recording
    obtain ⟨new, rfl, known⟩ := ihr before
    obtain ⟨new', rfl, known'⟩ := ihs after
    refine ⟨new' ++ new, (List.append_assoc _ _ _).symm, fun x mem => ?_⟩
    rcases List.mem_append.mp mem with mem | mem
    · exact List.mem_append_right _ (known' x mem)
    · exact List.mem_append_left _ (known x mem)
  | alt r s ihr ihs =>
    rcases recording with recording | recording
    · obtain ⟨new, rfl, known⟩ := ihr recording
      exact ⟨new, rfl, fun x mem => List.mem_append_left _ (known x mem)⟩
    · obtain ⟨new, rfl, known⟩ := ihs recording
      exact ⟨new, rfl, fun x mem => List.mem_append_right _ (known x mem)⟩
  | group number r ih =>
    obtain ⟨e, p, q, inside, rfl⟩ := recording
    obtain ⟨new, rfl, known⟩ := ih inside
    refine ⟨(number, p, q) :: new, rfl, fun x mem => ?_⟩
    rcases List.mem_cons.mp mem with rfl | mem
    · exact List.mem_cons_self
    · exact List.mem_cons_of_mem _ (known x mem)
  | loop least most greedy r ih =>
    obtain ⟨n, -, -, all⟩ := recording
    exact Growth.times_captures (fun _ _ => ih) all
  | look direction negated r ih =>
    cases negated with
    | true => exact ⟨[], recording, nofun⟩
    | false => exact ih recording
  | atomic r ih => exact ih recording

/-- An expression without groups records nothing. -/
theorem Recording.eq_of_numbers {r : Regex} (none : r.numbers = []) (recording : Recording r c d) :
    d = c := by
  obtain ⟨new, rfl, known⟩ := recording.captures
  rw [none] at known
  rw [List.eq_nil_iff_forall_not_mem.mpr fun e mem => List.not_mem_nil (known e mem)]
  rfl

/-! ## One expression after the other -/

/-- What a match of several expressions may record, one after the other. -/
def Recordings : List Regex → Growth
  | [] => fun c d => d = c
  | r :: rs => fun c d => ∃ e, Recording r c e ∧ Recordings rs e d

theorem recordings_of_join {r : Regex} {rs : List Regex}
    (recording : Recording (sequence.join r rs) c d) : Recordings (r :: rs) c d := by
  induction rs generalizing r c with
  | nil => exact ⟨d, recording, rfl⟩
  | cons s rs ih =>
    obtain ⟨e, here, more⟩ := recording
    exact ⟨e, here, ih more⟩

/-- Empty expressions record nothing. -/
theorem recordings_of_filter {rs : List Regex}
    (recordings : Recordings (rs.filter (· ≠ empty)) c d) : Recordings rs c d := by
  induction rs generalizing c with
  | nil => exact recordings
  | cons r rs ih =>
    by_cases none : r = empty
    · rw [List.filter_cons_of_neg (by simpa using none)] at recordings
      refine ⟨c, ?_, ih recordings⟩
      rw [none]
      rfl
    · rw [List.filter_cons_of_pos (by simpa using none)] at recordings
      obtain ⟨e, here, more⟩ := recordings
      exact ⟨e, here, ih more⟩

theorem recordings_of_sequence {rs : List Regex} (recording : Recording (sequence rs) c d) :
    Recordings rs c d := by
  apply recordings_of_filter
  unfold sequence at recording
  split at recording
  next none =>
    rw [none]
    exact recording
  next r rest eq =>
    rw [eq]
    exact recordings_of_join recording

/-! ## Ways -/

theorem Leads.times_grows {leads : Leads} {step : Growth}
    (each : ∀ ⦃p c q d⦄, leads p c q d → step c d) {n p q : Nat} (all : leads.times n p c q d) :
    step.times n c d := by
  induction n generalizing p c with
  | zero => exact all.2
  | succ n ih =>
    obtain ⟨k, e, here, more⟩ := all
    exact ⟨e, each here, ih more⟩

/-- A way records what its expression may record. -/
theorem Way.recording {input : Array Char} {r : Regex} {p q : Nat} (way : Way input r p c q d) :
    Recording r c d := by
  induction r generalizing p c q d with
  | empty => exact way.2
  | set cs => exact way.2.2
  | assert a => exact way.2.2
  | seq r s ihr ihs =>
    obtain ⟨k, e, before, after⟩ := way
    exact ⟨e, ihr before, ihs after⟩
  | alt r s ihr ihs => exact way.imp ihr ihs
  | group number r ih =>
    obtain ⟨e, inside, rfl⟩ := way
    exact ⟨e, p, q, ih inside, rfl⟩
  | loop least most greedy r ih =>
    obtain ⟨n, many, few, all⟩ := way
    exact ⟨n, many, few, Leads.times_grows (fun _ _ _ _ step => ih step) all⟩
  | look => exact way.elim
  | atomic => exact way.elim
  | backref => exact way.elim

/-- A way records groups of its expression only. -/
theorem Way.captures {input : Array Char} {r : Regex} {p q : Nat} (way : Way input r p c q d) :
    ∃ new, d = new ++ c ∧ ∀ e ∈ new, e.1 ∈ r.numbers :=
  way.recording.captures

/-! ## Solutions -/

/-- The ways that a solution gives record in a certain way. -/
def Solution.Grows (sol : Solution) (step : Growth) : Prop :=
  ∀ p c q d, sol.way p c = some (q, d) → step c d

section

variable {step step' : Growth} {first second others : Solution} {body : Positions → Solution}

theorem Solution.here_grows (ends : Positions) :
    (Solution.here ends).Grows fun c d => d = c := by
  intro p c q d way
  unfold Solution.here at way
  dsimp only at way
  split at way
  next =>
    cases way
    rfl
  next => cases way

theorem Solution.Grows.andThen (left : first.Grows step) (right : second.Grows step') :
    (first.andThen second).Grows fun c d => ∃ e, step c e ∧ step' e d := by
  intro p c q d way
  unfold Solution.andThen at way
  dsimp only at way
  split at way
  next k e before => exact ⟨e, left p c k e before, right k e q d way⟩
  next => cases way

theorem Solution.Grows.orElse (left : first.Grows step) (right : second.Grows step') :
    (first.orElse second).Grows fun c d => step c d ∨ step' c d := by
  intro p c q d way
  unfold Solution.orElse at way
  dsimp only at way
  split at way
  next => exact .inl (left p c q d way)
  next => exact .inr (right p c q d way)

theorem Solution.Grows.prefer (greedy : Bool) (left : first.Grows step)
    (right : second.Grows step') :
    (Solution.prefer greedy first second).Grows fun c d => step c d ∨ step' c d := by
  cases greedy with
  | true => exact left.orElse right
  | false => exact fun p c q d way => (right.orElse left p c q d way).symm

theorem copies_grows (grows : ∀ ends, (body ends).Grows step) (behind : others.Grows step')
    (n : Nat) : (copies body others n).Grows fun c d => ∃ e, step.times n c e ∧ step' e d := by
  induction n with
  | zero => exact fun p c q d way => ⟨c, rfl, behind p c q d way⟩
  | succ n ih =>
    intro p c q d way
    obtain ⟨e, here, f, more, last⟩ := (grows _).andThen ih p c q d way
    exact ⟨f, ⟨e, here, more⟩, last⟩

theorem atMostCopies_grows (grows : ∀ ends, (body ends).Grows step) (greedy : Bool)
    (ends : Positions) (n : Nat) :
    (atMostCopies body greedy (.here ends) n).Grows fun c d =>
      ∃ m, m ≤ n ∧ step.times m c d := by
  induction n with
  | zero =>
    intro p c q d way
    exact ⟨0, Nat.le_refl 0, Solution.here_grows ends p c q d way⟩
  | succ n ih =>
    intro p c q d way
    rcases ((grows _).andThen ih).prefer greedy (Solution.here_grows ends) p c q d way with
      ⟨e, here, m, few, more⟩ | same
    · exact ⟨m + 1, Nat.succ_le_succ few, e, here, more⟩
    · exact ⟨0, Nat.zero_le _, same⟩

/-- What is preferred is one of two. -/
theorem or_of_prefer {α : Type} {greedy : Bool} {go stop : Option α} {x : α}
    (h : (if greedy then go.or stop else stop.or go) = some x) : go = some x ∨ stop = some x := by
  split at h
  · exact (Option.or_eq_some_iff.mp h).imp_right And.right
  · exact (Option.or_eq_some_iff.mp h).symm.imp_left And.right

theorem walk_grows (grows : ∀ ends, (body ends).Grows step) (once : first.Grows step)
    (greedy : Bool) (ends starts : Positions) {fuel p q : Nat} {c d : Captures}
    (way : walk body greedy ends starts first fuel p c = some (q, d)) :
    ∃ n, step.times n c d := by
  induction fuel generalizing p c with
  | zero => cases way
  | succ fuel ih =>
    rcases or_of_prefer way with go | stop
    · split at go
      next => cases go
      next k e found =>
        have here := once p c k e found
        split at go
        next =>
          obtain ⟨n, more⟩ := ih go
          exact ⟨n + 1, e, here, more⟩
        split at go
        next =>
          cases go
          exact ⟨1, d, here, rfl⟩
        split at go
        next => cases go
        next l f leaving =>
          obtain ⟨n, more⟩ := ih go
          exact ⟨n + 1, f, grows _ p c l f leaving, more⟩
    · split at stop
      next =>
        cases stop
        exact ⟨0, rfl⟩
      next => cases stop

end

/-- The solver records what its expression may record. -/
theorem solve_grows (input : Array Char) (r : Regex) (ends : Positions) :
    (solve input r ends).Grows (Recording r) := by
  induction r generalizing ends with
  | empty => exact Solution.here_grows ends
  | set cs =>
    intro p c q d way
    unfold solve at way
    dsimp only at way
    split at way
    next =>
      cases way
      rfl
    next => cases way
  | assert a => exact Solution.here_grows _
  | seq r s ihr ihs => exact (ihr _).andThen (ihs ends)
  | alt r s ihr ihs => exact (ihr ends).orElse (ihs ends)
  | group number r ih =>
    intro p c q d way
    obtain ⟨⟨k, e⟩, inside, same⟩ := Option.map_eq_some_iff.mp way
    cases same
    exact ⟨e, p, q, ih ends p c q e inside, rfl⟩
  | loop least most greedy r ih =>
    intro p c q d way
    cases most with
    | none =>
      have any : (anyCopies input.size (solve input r) greedy ends).Grows fun c d =>
          ∃ n, (Recording r).times n c d := fun p c q d way => walk_grows ih (ih _) greedy _ _ way
      obtain ⟨e, many, n, more⟩ := copies_grows ih any least p c q d way
      exact .of_times (by simp) many more
    | some most =>
      have few := atMostCopies_grows ih greedy ends (most - least)
      obtain ⟨e, many, n, few, more⟩ := copies_grows ih few least p c q d way
      exact .of_times (by simpa using few) many more
  | look => exact nofun
  | atomic => exact nofun
  | backref => exact nofun

/-! ## Trials -/

/-- A trial that succeeds has gone on with captures that have grown in a certain way. -/
def Trial.Grows (run : Trial) (step : Growth) : Prop :=
  ∀ ⦃i : Nat⦄ ⦃c : Captures⦄ ⦃left : Nat⦄ ⦃next : Attempt⦄ ⦃j : Nat⦄ ⦃d : Captures⦄ ⦃l : Nat⦄,
    run i c left next = .found j d l →
      ∃ i' e left', step c e ∧ next i' e left' = .found j d l

variable {run : Trial} {step : Growth} {j l left : Nat}

/-- What has been found in one of two ways. -/
theorem Outcome.orElse_eq_found {first : Outcome} {second : Nat → Outcome}
    (h : first.orElse second = .found j d l) :
    first = .found j d l ∨ ∃ left, second left = .found j d l := by
  unfold Outcome.orElse at h
  split at h
  next left => exact .inr ⟨left, h⟩
  next => cases h
  next => exact .inl h

theorem tryBoth_eq_found {greedy : Bool} {first second : Nat → Outcome}
    (h : tryBoth greedy left first second = .found j d l) :
    (∃ left, first left = .found j d l) ∨ ∃ left, second left = .found j d l := by
  unfold tryBoth at h
  split at h
  · exact (Outcome.orElse_eq_found h).imp_left fun found => ⟨left, found⟩
  · exact (Outcome.orElse_eq_found h).symm.imp_right fun found => ⟨left, found⟩

theorem tryCopies_grows (grows : run.Grows step) (n : Nat) :
    Trial.Grows (tryCopies run n) (step.times n) := by
  induction n with
  | zero =>
    intro i c left next j d l h
    exact ⟨i, c, left, rfl, h⟩
  | succ n ih =>
    intro i c left next j d l h
    obtain ⟨i', e, left', here, h⟩ := grows h
    obtain ⟨i'', f, left'', more, h⟩ := ih h
    exact ⟨i'', f, left'', ⟨e, here, more⟩, h⟩

theorem tryAtMost_grows (grows : run.Grows step) (greedy : Bool) (n : Nat) :
    Trial.Grows (tryAtMost run greedy n) fun c d => ∃ m, m ≤ n ∧ step.times m c d := by
  induction n with
  | zero =>
    intro i c left next j d l h
    exact ⟨i, c, left, ⟨0, Nat.le_refl 0, rfl⟩, h⟩
  | succ n ih =>
    intro i c left next j d l h
    rcases tryBoth_eq_found h with ⟨left, h⟩ | ⟨left, h⟩
    · obtain ⟨i', e, left', here, h⟩ := grows h
      obtain ⟨i'', f, left'', ⟨m, few, more⟩, h⟩ := ih h
      exact ⟨i'', f, left'', ⟨m + 1, Nat.succ_le_succ few, e, here, more⟩, h⟩
    · exact ⟨i, c, left, ⟨0, Nat.zero_le _, rfl⟩, h⟩

theorem tryAny_grows (grows : run.Grows step) (greedy : Bool) (fuel : Nat) :
    Trial.Grows (tryAny run greedy fuel) fun c d => ∃ m, step.times m c d := by
  induction fuel with
  | zero =>
    intro i c left next j d l h
    exact ⟨i, c, left, ⟨0, rfl⟩, h⟩
  | succ fuel ih =>
    intro i c left next j d l h
    rcases tryBoth_eq_found h with ⟨left, h⟩ | ⟨left, h⟩
    · obtain ⟨i', e, left', here, h⟩ := grows h
      split at h
      next => cases h
      next =>
        obtain ⟨i'', f, left'', ⟨m, more⟩, h⟩ := ih h
        exact ⟨i'', f, left'', ⟨m + 1, e, here, more⟩, h⟩
    · exact ⟨i, c, left, ⟨0, rfl⟩, h⟩

variable {input : Array Char} {r : Regex} {i : Nat}

/-- The first way through a body, whichever matcher looks for it. -/
theorem firstOutcome_recording (grows : run.Grows (Recording r))
    (h : firstOutcome input r run i c left = .found j d l) : Recording r c d := by
  unfold firstOutcome at h
  split at h
  next =>
    split at h
    next q e first =>
      cases h
      exact solve_grows input r _ i c _ _ first
    next => cases h
  next =>
    obtain ⟨i', e, left', recording, same⟩ := grows h
    cases same
    exact recording

theorem firstBehind_recording (grows : run.Grows (Recording r)) {widths : List Nat}
    (h : firstBehind input r run widths i c left = .found j d l) : Recording r c d := by
  induction widths generalizing left with
  | nil => cases h
  | cons w ws ih =>
    unfold firstBehind at h
    dsimp only at h
    split at h
    next => exact ih h
    split at h
    next =>
      split at h
      next q e way =>
        cases h
        exact solve_grows input r _ _ c _ _ way
      next => exact ih h
    next =>
      rcases Outcome.orElse_eq_found h with first | ⟨left, later⟩
      · obtain ⟨i', e, left', recording, same⟩ := grows first
        split at same
        next =>
          cases same
          exact recording
        next => cases same
      · exact ih later

/-- Behind a look-around the captures are those of its body, unless the body must not match. -/
theorem afterLook_eq_found {negated : Bool} {next : Attempt} {outcome : Outcome}
    (recording : ∀ j d l, outcome = .found j d l → Recording r c d)
    (h : afterLook negated i c next outcome = .found j d l) :
    ∃ e left, (if negated then e = c else Recording r c e) ∧ next i e left = .found j d l := by
  cases outcome with
  | found k e left =>
    cases negated with
    | true => cases h
    | false => exact ⟨e, left, recording k e left rfl, h⟩
  | failed left =>
    cases negated with
    | true => exact ⟨c, left, rfl, h⟩
    | false => cases h
  | exhausted => cases h

/-- A trial goes on with what its expression may have recorded. -/
theorem attempt_grows (input : Array Char) (r : Regex) :
    Trial.Grows (attempt input r) (Recording r) := by
  induction r with
  | empty =>
    intro i c left next j d l h
    exact ⟨i, c, left, rfl, h⟩
  | set cs =>
    intro i c left next j d l h
    unfold attempt at h
    split at h
    next => exact ⟨i + 1, c, left, rfl, h⟩
    next => cases h
  | assert a =>
    intro i c left next j d l h
    unfold attempt at h
    split at h
    next => exact ⟨i, c, left, rfl, h⟩
    next => cases h
  | seq r s ihr ihs =>
    intro i c left next j d l h
    obtain ⟨i', e, left', before, h⟩ := ihr h
    obtain ⟨i'', f, left'', after, h⟩ := ihs h
    exact ⟨i'', f, left'', ⟨e, before, after⟩, h⟩
  | alt r s ihr ihs =>
    intro i c left next j d l h
    rcases Outcome.orElse_eq_found h with h | ⟨left, h⟩
    · obtain ⟨i', e, left', recording, h⟩ := ihr h
      exact ⟨i', e, left', .inl recording, h⟩
    · obtain ⟨i', e, left', recording, h⟩ := ihs h
      exact ⟨i', e, left', .inr recording, h⟩
  | group number r ih =>
    intro i c left next j d l h
    obtain ⟨i', e, left', inside, h⟩ := ih h
    exact ⟨i', _, left', ⟨e, i, i', inside, rfl⟩, h⟩
  | loop least most greedy r ih =>
    intro i c left next j d l h
    obtain ⟨i', e, left', many, h⟩ := tryCopies_grows ih least h
    cases most with
    | none =>
      obtain ⟨i'', f, left'', ⟨n, more⟩, h⟩ := tryAny_grows ih greedy _ h
      exact ⟨i'', f, left'', .of_times (by simp) many more, h⟩
    | some most =>
      obtain ⟨i'', f, left'', ⟨n, few, more⟩, h⟩ := tryAtMost_grows ih greedy _ h
      exact ⟨i'', f, left'', .of_times (by simpa using few) many more, h⟩
  | look direction negated r ih =>
    intro i c left next j d l h
    cases direction with
    | ahead =>
      obtain ⟨e, left', recording, h⟩ :=
        afterLook_eq_found (fun j d l => firstOutcome_recording ih) h
      exact ⟨i, e, left', recording, h⟩
    | behind =>
      obtain ⟨e, left', recording, h⟩ :=
        afterLook_eq_found (fun j d l => firstBehind_recording ih) h
      exact ⟨i, e, left', recording, h⟩
  | atomic r ih =>
    intro i c left next j d l h
    unfold attempt at h
    split at h
    next k e left' first =>
      have inside : Recording r c e := firstOutcome_recording ih first
      exact ⟨k, e, left', inside, h⟩
    next other => exact absurd h (other j d l)
  | backref number caseless =>
    intro i c left next j d l h
    unfold attempt at h
    split at h
    next =>
      split at h
      next => exact ⟨_, c, left, rfl, h⟩
      next => cases h
    next => cases h

/-- What a program finds its expression may record. -/
theorem recording_of_match? {program : Program} {caps : Captures}
    (h : program.match? input = some caps) : Recording program.regex [] caps := by
  unfold Program.match? at h
  split at h
  next =>
    obtain ⟨⟨q, d⟩, first, rfl⟩ := Option.map_eq_some_iff.mp h
    exact solve_grows input _ _ 0 [] q d first
  next =>
    split at h
    next k e left found =>
      cases h
      obtain ⟨i', f, left', recording, same⟩ := attempt_grows input _ found
      cases same
      exact recording
    next => cases h

end UrlRouting.Regex
