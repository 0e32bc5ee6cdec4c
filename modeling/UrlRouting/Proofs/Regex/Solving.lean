import UrlRouting.Proofs.Regex.Ways

/-!
# What the solver finds

`Solves` relates a solution to the steps that it stands for: it starts exactly where a step leads to
one of the given positions, and the way it gives is such a step. Each way of putting solutions
together puts steps together, so `solve` finds a way through an expression if and only if there is
one (`solve_solves`).

A loop without a bound starts where a chain of iterations can begin. `closure` collects these
positions until there are no new ones, and `walk` takes iterations as long as they move on; what is
left of the input bounds both.
-/

namespace UrlRouting.Regex

/-! ## Positions -/

namespace Positions

/-- Positions in increasing order, without repetition. -/
abbrev Sorted (ps : Positions) : Prop := ps.Pairwise (· < ·)

theorem mem_merge {ps qs : Positions} {p : Nat} : p ∈ ps.merge qs ↔ p ∈ ps ∨ p ∈ qs := by
  fun_induction merge ps qs with
  | case1 qs => simp
  | case2 a ps => simp
  | case3 a ps b qs less ih => grind
  | case4 a ps b qs _ less ih => grind
  | case5 a ps b qs notLess notMore ih =>
    obtain rfl : a = b := by omega
    grind

theorem sorted_merge {ps qs : Positions} (left : Sorted ps) (right : Sorted qs) :
    Sorted (ps.merge qs) := by
  fun_induction merge ps qs with
  | case1 qs => exact right
  | case2 a ps => exact left
  | case3 a ps b qs less ih =>
    obtain ⟨least, left⟩ := List.pairwise_cons.mp left
    refine List.pairwise_cons.mpr ⟨fun x mem => ?_, ih left right⟩
    rcases mem_merge.mp mem with mem | mem
    · exact least x mem
    · rcases List.mem_cons.mp mem with rfl | mem
      · exact less
      · exact Nat.lt_trans less (List.rel_of_pairwise_cons right mem)
  | case4 a ps b qs _ less ih =>
    obtain ⟨least, right⟩ := List.pairwise_cons.mp right
    refine List.pairwise_cons.mpr ⟨fun x mem => ?_, ih left right⟩
    rcases mem_merge.mp mem with mem | mem
    · rcases List.mem_cons.mp mem with rfl | mem
      · exact less
      · exact Nat.lt_trans less (List.rel_of_pairwise_cons left mem)
    · exact least x mem
  | case5 a ps b qs notLess notMore ih =>
    obtain rfl : a = b := by omega
    obtain ⟨least, left⟩ := List.pairwise_cons.mp left
    obtain ⟨least', right⟩ := List.pairwise_cons.mp right
    refine List.pairwise_cons.mpr ⟨fun x mem => ?_, ih left right⟩
    exact (mem_merge.mp mem).elim (least x) (least' x)

theorem has_iff {ps : Positions} (sorted : Sorted ps) {p : Nat} : ps.has p = true ↔ p ∈ ps := by
  induction ps with
  | nil => simp [has]
  | cons q ps ih =>
    obtain ⟨least, sorted⟩ := List.pairwise_cons.mp sorted
    rw [has]
    split
    next less =>
      rw [ih sorted, List.mem_cons]
      have : p ≠ q := by omega
      simp [this]
    next notLess =>
      rw [beq_iff_eq, List.mem_cons]
      constructor
      · exact fun eq => .inl eq.symm
      · rintro (rfl | mem)
        · rfl
        · exact absurd (least p mem) notLess

theorem length_merge {ps qs : Positions} (apart : ∀ p ∈ qs, p ∉ ps) :
    (ps.merge qs).length = ps.length + qs.length := by
  fun_induction merge ps qs with
  | case1 qs => simp
  | case2 a ps => simp
  | case3 a ps b qs less ih =>
    have := ih fun p mem mem' => apart p mem (List.mem_cons_of_mem _ mem')
    simp only [List.length_cons] at this ⊢
    omega
  | case4 a ps b qs _ less ih =>
    have := ih fun p mem => apart p (List.mem_cons_of_mem _ mem)
    simp only [List.length_cons] at this ⊢
    omega
  | case5 a ps b qs notLess notMore ih =>
    obtain rfl : a = b := by omega
    exact absurd List.mem_cons_self (apart a List.mem_cons_self)

/-- Only so many positions fit between two bounds. -/
theorem length_le {ps : Positions} (sorted : Sorted ps) {low size : Nat}
    (bound : ∀ p ∈ ps, low ≤ p ∧ p ≤ size) : ps = [] ∨ ps.length + low ≤ size + 1 := by
  induction ps generalizing low with
  | nil => exact .inl rfl
  | cons q ps ih =>
    obtain ⟨least, sorted⟩ := List.pairwise_cons.mp sorted
    have here := bound q List.mem_cons_self
    have rest := ih sorted fun p mem =>
      ⟨least p mem, (bound p (List.mem_cons_of_mem q mem)).2⟩
    right
    rw [List.length_cons]
    rcases rest with rfl | rest
    · rw [List.length_nil]
      omega
    · omega

end Positions

open Positions (Sorted)

/-! ## Solutions -/

/-- A solution starts where steps lead to one of the given positions, and its way is such a step. -/
structure Solves (leads : Leads) (ends : Positions) (sol : Solution) : Prop where
  sorted : Sorted sol.starts
  complete : ∀ p c q d, q ∈ ends → leads p c q d → p ∈ sol.starts
  sound : ∀ p c q d, sol.way p c = some (q, d) → q ∈ ends ∧ leads p c q d
  total : ∀ p ∈ sol.starts, ∀ c, ∃ x, sol.way p c = some x

namespace Solves

variable {leads leads' : Leads} {ends : Positions} {first second sol : Solution}

theorem congr (solves : Solves leads ends sol)
    (same : ∀ p c q d, leads p c q d ↔ leads' p c q d) : Solves leads' ends sol where
  sorted := solves.sorted
  complete p c q d mem way := solves.complete p c q d mem ((same p c q d).mpr way)
  sound p c q d way := by
    obtain ⟨mem, way⟩ := solves.sound p c q d way
    exact ⟨mem, (same p c q d).mp way⟩
  total := solves.total

/-- From each start there is a step to one of the given positions. -/
theorem exists_step (solves : Solves leads ends sol) {p : Nat} (mem : p ∈ sol.starts)
    (c : Captures) : ∃ q d, q ∈ ends ∧ leads p c q d := by
  obtain ⟨⟨q, d⟩, way⟩ := solves.total p mem c
  obtain ⟨mem, way⟩ := solves.sound p c q d way
  exact ⟨q, d, mem, way⟩

/-- Steps that never lead back start within every bound on where they end. -/
theorem bound (solves : Solves leads ends sol) (forward : leads.Forward) {size : Nat}
    (bound : ∀ q ∈ ends, q ≤ size) : ∀ p ∈ sol.starts, p ≤ size := by
  intro p mem
  obtain ⟨q, d, mem, way⟩ := solves.exists_step mem []
  have := bound q mem
  have := forward p [] q d way
  omega

theorem here (sorted : Sorted ends) :
    Solves (fun p c q d => q = p ∧ d = c) ends (Solution.here ends) where
  sorted := sorted
  complete p c q d mem way := by
    obtain ⟨rfl, -⟩ := way
    exact mem
  sound p c q d way := by
    unfold Solution.here at way
    dsimp only at way
    split at way
    next mem =>
      cases way
      exact ⟨(Positions.has_iff sorted).mp mem, rfl, rfl⟩
    next => cases way
  total p mem c := ⟨(p, c), if_pos ((Positions.has_iff sorted).mpr mem)⟩

theorem andThen (left : Solves leads second.starts first) (right : Solves leads' ends second) :
    Solves (leads.andThen leads') ends (first.andThen second) where
  sorted := left.sorted
  complete p c q d mem way := by
    obtain ⟨k, e, before, after⟩ := way
    exact left.complete p c k e (right.complete k e q d mem after) before
  sound p c q d way := by
    unfold Solution.andThen at way
    dsimp only at way
    split at way
    next k e before =>
      obtain ⟨-, before⟩ := left.sound p c k e before
      obtain ⟨mem, after⟩ := right.sound k e q d way
      exact ⟨mem, k, e, before, after⟩
    next => cases way
  total p mem c := by
    obtain ⟨⟨k, e⟩, before⟩ := left.total p mem c
    obtain ⟨mem, -⟩ := left.sound p c k e before
    obtain ⟨x, after⟩ := right.total k mem e
    refine ⟨x, ?_⟩
    unfold Solution.andThen
    dsimp only
    rw [before]
    exact after

theorem orElse (left : Solves leads ends first) (right : Solves leads' ends second) :
    Solves (fun p c q d => leads p c q d ∨ leads' p c q d) ends (first.orElse second) where
  sorted := Positions.sorted_merge left.sorted right.sorted
  complete p c q d mem way := by
    refine Positions.mem_merge.mpr ?_
    rcases way with way | way
    · exact .inl (left.complete p c q d mem way)
    · exact .inr (right.complete p c q d mem way)
  sound p c q d way := by
    unfold Solution.orElse at way
    dsimp only at way
    split at way
    · obtain ⟨mem, way⟩ := left.sound p c q d way
      exact ⟨mem, .inl way⟩
    · obtain ⟨mem, way⟩ := right.sound p c q d way
      exact ⟨mem, .inr way⟩
  total p mem c := by
    unfold Solution.orElse
    dsimp only
    split
    next here => exact left.total p ((Positions.has_iff left.sorted).mp here) c
    next elsewhere =>
      rcases Positions.mem_merge.mp mem with mem | mem
      · exact absurd ((Positions.has_iff left.sorted).mpr mem) elsewhere
      · exact right.total p mem c

theorem prefer (greedy : Bool) (left : Solves leads ends first)
    (right : Solves leads' ends second) :
    Solves (fun p c q d => leads p c q d ∨ leads' p c q d) ends
      (Solution.prefer greedy first second) := by
  cases greedy with
  | true => exact left.orElse right
  | false => exact (right.orElse left).congr fun p c q d => Or.comm

end Solves

/-! ## Bounded loops -/

variable {leads rest : Leads} {body : Positions → Solution} {size : Nat}

/-- Positions that are sorted and lie within an input. -/
structure Within (size : Nat) (ends : Positions) : Prop where
  sorted : Sorted ends
  bound : ∀ q ∈ ends, q ≤ size

theorem Solves.within {ends : Positions} {sol : Solution} (solves : Solves leads ends sol)
    (forward : leads.Forward) (within : Within size ends) : Within size sol.starts :=
  ⟨solves.sorted, solves.bound forward within.bound⟩

theorem copies_solves (solves : ∀ ends, Within size ends → Solves leads ends (body ends))
    (forward : leads.Forward) (forward' : rest.Forward) {ends : Positions}
    (within : Within size ends) {others : Solution} (behind : Solves rest ends others) (n : Nat) :
    Solves ((leads.times n).andThen rest) ends (copies body others n) := by
  induction n with
  | zero => exact behind.congr fun p c q d => Leads.stay_andThen.symm
  | succ n ih =>
    have starts := ih.within ((forward.times n).andThen forward') within
    exact ((solves _ starts).andThen ih).congr fun p c q d => Leads.andThen_assoc.symm

theorem atMostCopies_solves (solves : ∀ ends, Within size ends → Solves leads ends (body ends))
    (forward : leads.Forward) {ends : Positions} (within : Within size ends) (greedy : Bool)
    (n : Nat) : Solves (fun p c q d => ∃ m, m ≤ n ∧ leads.times m p c q d) ends
      (atMostCopies body greedy (.here ends) n) := by
  have stop := Solves.here within.sorted
  induction n with
  | zero =>
    refine stop.congr fun p c q d => ?_
    constructor
    · exact fun way => ⟨0, Nat.le_refl _, way⟩
    · rintro ⟨m, none, way⟩
      obtain rfl : m = 0 := by omega
      exact way
  | succ n ih =>
    have forward' : Leads.Forward fun p c q d => ∃ m, m ≤ n ∧ leads.times m p c q d := by
      rintro p c q d ⟨m, -, way⟩
      exact forward.times m p c q d way
    have starts := ih.within forward' within
    refine (((solves _ starts).andThen ih).prefer greedy stop).congr fun p c q d => ?_
    constructor
    · rintro (⟨k, e, here, m, few, more⟩ | way)
      · exact ⟨m + 1, by omega, k, e, here, more⟩
      · exact ⟨0, by omega, way⟩
    · rintro ⟨m, few, way⟩
      cases m with
      | zero => exact .inr way
      | succ m =>
        obtain ⟨k, e, here, more⟩ := way
        exact .inl ⟨k, e, here, m, by omega, more⟩

/-! ## Loops without a bound -/

/-- What is known while positions are collected: from each of them a chain of steps leads to `ends`,
and where a step leads to one of them it starts at one, unless it leads to a fresh one. -/
structure Collected (leads : Leads) (size : Nat) (ends known fresh : Positions) : Prop where
  within : Within size known
  within_fresh : Within size fresh
  ends_mem : ∀ q ∈ ends, q ∈ known
  fresh_mem : ∀ q ∈ fresh, q ∈ known
  reach : ∀ p ∈ known, ∀ c, ∃ n q d, q ∈ ends ∧ leads.times n p c q d
  closed : ∀ p c q d, q ∈ known → q ∉ fresh → leads p c q d → p ∈ known

namespace Collected

variable {ends known fresh : Positions}

theorem start (within : Within size ends) : Collected leads size ends ends ends where
  within := within
  within_fresh := within
  ends_mem _ mem := mem
  fresh_mem _ mem := mem
  reach p mem c := ⟨0, p, c, mem, rfl, rfl⟩
  closed _ _ _ _ mem absent := absurd mem absent

/-- Where no new positions are found none are missing. -/
theorem finish (collected : Collected leads size ends known fresh)
    (solves : Solves leads fresh (body fresh)) (old : ∀ p ∈ (body fresh).starts, p ∈ known) :
    Collected leads size ends known [] where
  within := collected.within
  within_fresh := ⟨.nil, nofun⟩
  ends_mem := collected.ends_mem
  fresh_mem := nofun
  reach := collected.reach
  closed p c q d mem _ step := by
    by_cases new : q ∈ fresh
    · exact old p (solves.complete p c q d new step)
    · exact collected.closed p c q d mem new step

theorem merge (collected : Collected leads size ends known fresh) (forward : leads.Forward)
    (solves : Solves leads fresh (body fresh)) {new : Positions}
    (eq : (body fresh).starts.filter (fun p => !known.has p) = new) :
    Collected leads size ends (known.merge new) new := by
  have mem_new : ∀ {p}, p ∈ new ↔ p ∈ (body fresh).starts ∧ p ∉ known := by
    intro p
    rw [← eq, List.mem_filter, Bool.not_eq_true', ← Bool.not_eq_true,
      Positions.has_iff collected.within.sorted]
  have starts := solves.within forward collected.within_fresh
  have within : Within size new := by
    rw [← eq]
    exact ⟨starts.sorted.sublist List.filter_sublist,
      fun p mem => starts.bound p (List.mem_filter.mp mem).1⟩
  refine ⟨⟨?_, ?_⟩, within, ?_, ?_, ?_, ?_⟩
  · exact Positions.sorted_merge collected.within.sorted within.sorted
  · intro p mem
    exact (Positions.mem_merge.mp mem).elim (collected.within.bound p) (within.bound p)
  · exact fun q mem => Positions.mem_merge.mpr (.inl (collected.ends_mem q mem))
  · exact fun q mem => Positions.mem_merge.mpr (.inr mem)
  · intro p mem c
    rcases Positions.mem_merge.mp mem with mem | mem
    · exact collected.reach p mem c
    · obtain ⟨k, e, mem, here⟩ := solves.exists_step (mem_new.mp mem).1 c
      obtain ⟨n, q, d, last, more⟩ := collected.reach k (collected.fresh_mem k mem) e
      exact ⟨n + 1, q, d, last, k, e, here, more⟩
  · intro p c q d mem old step
    have known' : q ∈ known := (Positions.mem_merge.mp mem).resolve_right old
    by_cases fresh' : q ∈ fresh
    · have start := solves.complete p c q d fresh' step
      by_cases here : p ∈ known
      · exact Positions.mem_merge.mpr (.inl here)
      · exact Positions.mem_merge.mpr (.inr (mem_new.mpr ⟨start, here⟩))
    · exact Positions.mem_merge.mpr (.inl (collected.closed p c q d known' fresh' step))

end Collected

/-- The collection ends before the fuel does, since positions fit the input. -/
theorem closure_collected (solves : ∀ ends, Within size ends → Solves leads ends (body ends))
    (forward : leads.Forward) {ends known fresh : Positions} {fuel : Nat}
    (collected : Collected leads size ends known fresh)
    (enough : known = [] ∨ size + 2 ≤ fuel + known.length) :
    Collected leads size ends (closure body fuel known fresh) [] := by
  induction fuel generalizing known fresh with
  | zero =>
    have bound : ∀ p ∈ known, 0 ≤ p ∧ p ≤ size := fun p mem =>
      ⟨Nat.zero_le p, collected.within.bound p mem⟩
    have few := Positions.length_le collected.within.sorted bound
    have none : known = [] := by
      rcases enough with none | enough
      · exact none
      · rcases few with none | few
        · exact none
        · omega
    subst none
    refine ⟨collected.within, ⟨.nil, nofun⟩, collected.ends_mem, nofun, collected.reach, ?_⟩
    exact fun p c q d mem => nomatch mem
  | succ fuel ih =>
    have here := solves fresh collected.within_fresh
    rw [closure]
    split
    next old =>
      refine collected.finish here fun p mem => ?_
      by_cases known' : p ∈ known
      · exact known'
      · have new : p ∈ (body fresh).starts.filter fun p => !known.has p := by
          rw [List.mem_filter, Bool.not_eq_true', ← Bool.not_eq_true,
            Positions.has_iff collected.within.sorted]
          exact ⟨mem, known'⟩
        rw [old] at new
        cases new
    next p ps new =>
      refine ih (collected.merge forward here new) (.inr ?_)
      have apart : ∀ q ∈ p :: ps, q ∉ known := by
        intro q mem
        rw [← new, List.mem_filter, Bool.not_eq_true', ← Bool.not_eq_true,
          Positions.has_iff collected.within.sorted] at mem
        exact mem.2
      rw [Positions.length_merge apart, List.length_cons]
      rcases enough with rfl | enough
      · have start : p ∈ (body fresh).starts := by
          have mem : p ∈ p :: ps := List.mem_cons_self
          rw [← new] at mem
          exact (List.mem_filter.mp mem).1
        obtain ⟨q, d, mem, -⟩ := here.exists_step start []
        cases collected.fresh_mem q mem
      · omega

namespace Collected

variable {ends starts : Positions} {p q n : Nat} {c d : Captures}

theorem mem_of_times (collected : Collected leads size ends starts [])
    (way : leads.times n p c q d) (mem : q ∈ starts) : p ∈ starts := by
  induction n generalizing p c with
  | zero =>
    obtain ⟨rfl, -⟩ := way
    exact mem
  | succ n ih =>
    obtain ⟨k, e, here, more⟩ := way
    exact collected.closed p c k e (ih more) nofun here

/-- From a start that is no end a step leads on. -/
theorem exists_leaving (collected : Collected leads size ends starts [])
    (way : leads.times n p c q d) (mem : q ∈ ends) (outside : p ∉ ends) :
    ∃ k ∈ starts, k ≠ p ∧ ∃ c e, leads p c k e := by
  induction n generalizing c with
  | zero =>
    obtain ⟨rfl, -⟩ := way
    exact absurd mem outside
  | succ n ih =>
    obtain ⟨k, e, here, more⟩ := way
    by_cases same : k = p
    · subst same
      exact ih more
    · exact ⟨k, collected.mem_of_times more (collected.ends_mem q mem), same, c, e, here⟩

end Collected

theorem prefer_or {α : Type} {greedy : Bool} {go stop : Option α} {x : α}
    (h : (if greedy then go.or stop else stop.or go) = some x) : go = some x ∨ stop = some x := by
  split at h
  · exact (Option.or_eq_some_iff.mp h).imp_right And.right
  · exact ((Option.or_eq_some_iff.mp h).imp_right And.right).symm

theorem exists_prefer {α : Type} {greedy : Bool} {go stop : Option α}
    (h : (∃ x, go = some x) ∨ ∃ x, stop = some x) :
    ∃ x, (if greedy then go.or stop else stop.or go) = some x := by
  rcases h with ⟨x, rfl⟩ | ⟨x, rfl⟩
  · cases greedy with
    | true => exact ⟨x, rfl⟩
    | false => cases stop <;> simp
  · cases greedy with
    | true => cases go <;> simp
    | false => exact ⟨x, rfl⟩

section Walk

variable {ends starts : Positions} {greedy : Bool} {once : Solution}

theorem walk_sound (solves : ∀ ends, Within size ends → Solves leads ends (body ends))
    (within : Within size ends) (collected : Collected leads size ends starts [])
    (here : Solves leads starts once) {fuel p q : Nat} {c d : Captures}
    (h : walk body greedy ends starts once fuel p c = some (q, d)) :
    q ∈ ends ∧ ∃ n, leads.times n p c q d := by
  induction fuel generalizing p c with
  | zero => cases h
  | succ fuel ih =>
    unfold walk at h
    rcases prefer_or h with go | stop
    · split at go
      next => cases go
      next k e first =>
        obtain ⟨-, step⟩ := here.sound p c k e first
        split at go
        next =>
          obtain ⟨mem, n, more⟩ := ih go
          exact ⟨mem, n + 1, k, e, step, more⟩
        next stays =>
          obtain rfl : k = p := Classical.not_not.mp stays
          split at go
          next last =>
            cases go
            exact ⟨(Positions.has_iff within.sorted).mp last, 1, _, _, step, rfl, rfl⟩
          next =>
            split at go
            next => cases go
            next l f leaving =>
              have others : Within size (starts.filter (· ≠ k)) :=
                ⟨collected.within.sorted.sublist List.filter_sublist,
                  fun x mem => collected.within.bound x (List.mem_filter.mp mem).1⟩
              obtain ⟨-, step'⟩ := (solves _ others).sound k c l f leaving
              obtain ⟨mem, n, more⟩ := ih go
              exact ⟨mem, n + 1, l, f, step', more⟩
    · split at stop
      next last =>
        cases stop
        exact ⟨(Positions.has_iff within.sorted).mp last, 0, rfl, rfl⟩
      next => cases stop

theorem walk_total (solves : ∀ ends, Within size ends → Solves leads ends (body ends))
    (forward : leads.Forward) (within : Within size ends)
    (collected : Collected leads size ends starts []) (here : Solves leads starts once)
    {fuel p : Nat} (mem : p ∈ starts) (enough : size < fuel + p) (c : Captures) :
    ∃ x, walk body greedy ends starts once fuel p c = some x := by
  induction fuel generalizing p c with
  | zero =>
    have := collected.within.bound p mem
    omega
  | succ fuel ih =>
    unfold walk
    apply exists_prefer
    by_cases last : p ∈ ends
    · right
      exact ⟨(p, c), if_pos ((Positions.has_iff within.sorted).mpr last)⟩
    · left
      obtain ⟨n, q, d, mem', way⟩ := collected.reach p mem c
      obtain ⟨k, known, ne, c', e, step⟩ := collected.exists_leaving way mem' last
      obtain ⟨⟨l, f⟩, first⟩ := here.total p (here.complete p c' k e known step) c
      obtain ⟨known', step'⟩ := here.sound p c l f first
      have onward := forward p c l f step'
      rw [first]
      dsimp only
      split
      next moves => exact ih known' (by omega) f
      next stays =>
        have others : Within size (starts.filter (· ≠ p)) :=
          ⟨collected.within.sorted.sublist List.filter_sublist,
            fun x mem => collected.within.bound x (List.mem_filter.mp mem).1⟩
        have elsewhere := solves _ others
        have start := elsewhere.complete p c' k e
          (List.mem_filter.mpr ⟨known, decide_eq_true ne⟩) step
        obtain ⟨⟨l', f'⟩, leaving⟩ := elsewhere.total p start c
        obtain ⟨known'', step''⟩ := elsewhere.sound p c l' f' leaving
        obtain ⟨known'', moves⟩ := List.mem_filter.mp known''
        have moves := of_decide_eq_true moves
        have onward' := forward p c l' f' step''
        rw [if_neg (by rw [Positions.has_iff within.sorted]; exact last), leaving]
        exact ih known'' (by omega) f'

end Walk

theorem anyCopies_solves (solves : ∀ ends, Within size ends → Solves leads ends (body ends))
    (forward : leads.Forward) {ends : Positions} (within : Within size ends) (greedy : Bool) :
    Solves (fun p c q d => ∃ n, leads.times n p c q d) ends (anyCopies size body greedy ends) := by
  have enough : ends = [] ∨ size + 2 ≤ size + 1 + ends.length := by
    cases ends with
    | nil => exact .inl rfl
    | cons q ends =>
      right
      rw [List.length_cons]
      omega
  have collected := closure_collected solves forward (.start within) enough
  have here := solves _ collected.within
  refine ⟨collected.within.sorted, ?_, ?_, ?_⟩
  · rintro p c q d mem ⟨n, way⟩
    exact collected.mem_of_times way (collected.ends_mem q mem)
  · intro p c q d way
    exact walk_sound solves within collected here way
  · intro p mem c
    exact walk_total solves forward within collected here mem (by omega) c

/-! ## Expressions -/

theorem solve_set (input : Array Char) (cs : CharSet) {ends : Positions}
    (within : Within input.size ends) :
    Solves (Way input (set cs)) ends (solve input (set cs) ends) := by
  have takes : ∀ p : Nat, (input[p]?).any cs.contains = true ↔
      ∃ x, input[p]? = some x ∧ cs.contains x := by
    intro p
    cases input[p]? <;> simp
  refine ⟨?_, ?_, ?_, ?_⟩
  · refine List.Pairwise.filterMap _ ?_ within.sorted
    intro p q less a one b two
    obtain ⟨positive, first⟩ := Option.ite_none_right_eq_some.mp one
    obtain ⟨-, second⟩ := Option.ite_none_right_eq_some.mp two
    cases first
    cases second
    have positive := of_decide_eq_true (Bool.and_eq_true_iff.mp positive).1
    omega
  · rintro p c q d mem ⟨holds, rfl, -⟩
    refine List.mem_filterMap.mpr ⟨p + 1, mem, ?_⟩
    simp [(takes p).mpr holds]
  · intro p c q d way
    unfold solve at way
    dsimp only at way
    split at way
    next both =>
      obtain ⟨last, holds⟩ := Bool.and_eq_true_iff.mp both
      cases way
      exact ⟨(Positions.has_iff within.sorted).mp last, (takes p).mp holds, rfl, rfl⟩
    next => cases way
  · intro p mem c
    obtain ⟨q, last, start⟩ := List.mem_filterMap.mp mem
    split at start
    next both =>
      obtain ⟨positive, holds⟩ := Bool.and_eq_true_iff.mp both
      have positive := of_decide_eq_true positive
      obtain rfl : q - 1 = p := Option.some.inj start
      have next : q - 1 + 1 = q := by omega
      refine ⟨(q - 1 + 1, c), if_pos ?_⟩
      rw [next, (Positions.has_iff within.sorted).mpr last, holds]
      rfl
    next => cases start

/-- An assertion leaves the positions at which it holds. -/
theorem solve_assert (input : Array Char) (a : Assertion) {ends : Positions}
    (within : Within input.size ends) :
    Solves (Way input (assert a)) ends (solve input (assert a) ends) := by
  have holding : Sorted (ends.filter fun p => a.holds input p) :=
    within.sorted.sublist List.filter_sublist
  have here := Solves.here holding
  refine ⟨here.sorted, ?_, ?_, here.total⟩
  · rintro p c q d mem ⟨holds, rfl, -⟩
    exact List.mem_filter.mpr ⟨mem, holds⟩
  · intro p c q d way
    obtain ⟨mem, rfl, rfl⟩ := here.sound p c q d way
    obtain ⟨mem, holds⟩ := List.mem_filter.mp mem
    exact ⟨mem, holds, rfl, rfl⟩

/-- A group leads where its body leads. -/
theorem solve_group {input : Array Char} {r : Regex} {ends : Positions} (number : Nat)
    (body : Solves (Way input r) ends (solve input r ends)) :
    Solves (Way input (group number r)) ends (solve input (group number r) ends) := by
  refine ⟨body.sorted, ?_, ?_, ?_⟩
  · rintro p c q d mem ⟨e, way, -⟩
    exact body.complete p c q e mem way
  · intro p c q d way
    obtain ⟨⟨q', e⟩, inner, same⟩ := Option.map_eq_some_iff.mp way
    cases same
    obtain ⟨mem, inner⟩ := body.sound p c q e inner
    exact ⟨mem, e, inner, rfl⟩
  · intro p mem c
    obtain ⟨⟨q, e⟩, way⟩ := body.total p mem c
    exact ⟨_, Option.map_eq_some_iff.mpr ⟨(q, e), way, rfl⟩⟩

/-- The ways through a loop: the steps that it must make, and then those that it may. -/
theorem way_loop {input : Array Char} {least : Nat} {most : Option Nat} {greedy : Bool} {r : Regex}
    {p q : Nat} {c d : Captures} :
    (((Way input r).times least).andThen fun p c q d =>
        ∃ n, (∀ m ∈ most, n ≤ m - least) ∧ (Way input r).times n p c q d) p c q d ↔
      Way input (loop least most greedy r) p c q d := by
  constructor
  · rintro ⟨k, e, before, n, few, after⟩
    refine ⟨least + n, Nat.le_add_right _ _, fun m mem => ?_,
      (Leads.times_add least n).mpr ⟨k, e, before, after⟩⟩
    have := few m mem
    omega
  · rintro ⟨n, many, few, way⟩
    obtain ⟨m, rfl⟩ := Nat.exists_eq_add_of_le many
    obtain ⟨k, e, before, after⟩ := (Leads.times_add least m).mp way
    refine ⟨k, e, before, m, fun m' mem => ?_, after⟩
    have := few m' mem
    omega

theorem solve_loop {input : Array Char} {r : Regex}
    (body : ∀ ends, Within input.size ends → Solves (Way input r) ends (solve input r ends))
    {ends : Positions} (within : Within input.size ends) (least : Nat) (most : Option Nat)
    (greedy : Bool) :
    Solves (Way input (loop least most greedy r)) ends
      (solve input (loop least most greedy r) ends) := by
  have forward := Way.forward input r
  obtain ⟨others, eq, further⟩ : ∃ others,
      solve input (loop least most greedy r) ends = copies (solve input r) others least ∧
      Solves (fun p c q d => ∃ n, (∀ m ∈ most, n ≤ m - least) ∧ (Way input r).times n p c q d)
        ends others := by
    cases most with
    | none =>
      refine ⟨_, rfl, (anyCopies_solves body forward within greedy).congr fun p c q d => ?_⟩
      simp
    | some most =>
      refine ⟨_, rfl, (atMostCopies_solves body forward within greedy _).congr fun p c q d => ?_⟩
      simp
  have forward' : Leads.Forward fun p c q d =>
      ∃ n, (∀ m ∈ most, n ≤ m - least) ∧ (Way input r).times n p c q d := by
    rintro p c q d ⟨n, -, way⟩
    exact forward.times n p c q d way
  rw [eq]
  exact (copies_solves body forward forward' within further least).congr fun p c q d => way_loop

/-- The solver finds a way through a regular expression if there is one, and only ways. -/
theorem solve_solves (input : Array Char) {r : Regex} (regular : r.isRegular = true)
    {ends : Positions} (within : Within input.size ends) :
    Solves (Way input r) ends (solve input r ends) := by
  induction r generalizing ends with
  | empty => exact .here within.sorted
  | set cs => exact solve_set input cs within
  | assert a => exact solve_assert input a within
  | seq r s ihr ihs =>
    obtain ⟨left, right⟩ := Bool.and_eq_true_iff.mp regular
    have second := ihs right within
    exact (ihr left (second.within (Way.forward input s) within)).andThen second
  | alt r s ihr ihs =>
    obtain ⟨left, right⟩ := Bool.and_eq_true_iff.mp regular
    exact (ihr left within).orElse (ihs right within)
  | group number r ih => exact solve_group number (ih regular within)
  | loop least most greedy r ih =>
    exact solve_loop (fun ends within => ih regular within) within least most greedy
  | look => cases regular
  | atomic => cases regular
  | backref => cases regular

theorem within_positionsFrom (input : Array Char) (p : Nat) :
    Within input.size (positionsFrom input p) where
  sorted := List.pairwise_lt_range'
  bound q mem := by
    have := List.mem_range'_1.mp mem
    omega

/-- The preferred way through an expression is one of its ways. -/
theorem way_of_firstWay {input : Array Char} {r : Regex} (regular : r.isRegular = true) {p q : Nat}
    {c d : Captures} (h : firstWay input r p c = some (q, d)) : Way input r p c q d :=
  ((solve_solves input regular (within_positionsFrom input p)).sound p c q d h).2

/-- Where there is a way there is a preferred one. -/
theorem exists_firstWay {input : Array Char} {r : Regex} (regular : r.isRegular = true) {p q : Nat}
    {c d : Captures} (within : q ≤ input.size) (way : Way input r p c q d) :
    ∃ x, firstWay input r p c = some x := by
  have solves := solve_solves input regular (within_positionsFrom input p)
  have forward := Way.forward input r p c q d way
  have mem : q ∈ positionsFrom input p := List.mem_range'_1.mpr (by omega)
  exact solves.total p (solves.complete p c q d mem way) c

end UrlRouting.Regex
