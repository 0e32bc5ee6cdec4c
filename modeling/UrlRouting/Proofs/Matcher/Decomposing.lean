import UrlRouting.Proofs.Matcher.Reading
import UrlRouting.Proofs.Regex.Recording

/-!
# The language of a pattern

`Node.Decomposes` cuts a text into what the parts of a pattern take of it: literal text takes
itself, a placeholder takes what its constraint matches, and an optional part takes nothing or what
its children take. It says which placeholders take part and what each of them takes.

The ways through what the parts are read as cut a text in just this manner
(`Compiled.decomposes`, `Node.Decomposes.exists_ways`), and record what the placeholders take.
-/

namespace UrlRouting

open Regex

/-! ## The language -/

/-- A placeholder takes the texts that its constraint matches by itself. -/
def Placeholder.Accepts (q : Placeholder) (t : Text) : Prop :=
  ∃ parsed, Regex.parse q.expression = .ok parsed ∧ parsed.regex.Matches t

/-- A text is what the parts of a list take, one after the other. For each placeholder in them the
list of pieces says what it takes, or that it takes no part. -/
inductive Node.Decomposes : List Node → Text → List (Option Text) → Prop
  | nil : Decomposes [] [] []
  | literal {t u : Text} {ns : List Node} {vs : List (Option Text)} :
    Decomposes ns u vs → Decomposes (.literal t :: ns) (t ++ u) vs
  | placeholder {q : Placeholder} {t u : Text} {ns : List Node} {vs : List (Option Text)} :
    q.Accepts t → Decomposes ns u vs → Decomposes (.placeholder q :: ns) (t ++ u) (some t :: vs)
  | absent {children ns : List Node} {u : Text} {vs : List (Option Text)} :
    Decomposes ns u vs → Decomposes (.optional children :: ns) u
      (List.replicate (placeholders.ofNodes children).length none ++ vs)
  | present {children ns : List Node} {t u : Text} {ws vs : List (Option Text)} :
    Decomposes children t ws → Decomposes ns u vs →
    Decomposes (.optional children :: ns) (t ++ u) (ws ++ vs)

/-! ## Captured texts -/

/-- The text that a group took, if it took part. -/
def Captures.text? (input : Array Char) (caps : Captures) (number : Nat) : Option Text :=
  (caps.span? number).map fun x => textBetween input x.1 x.2

namespace Captures

variable {input : Array Char} {first second : Captures} {n : Nat}

theorem span?_append (h : ∀ e ∈ second, e.1 ≠ n) :
    span? (second ++ first) n = span? first n := by
  have missing : second.find? (·.1 == n) = none :=
    List.find?_eq_none.mpr fun e mem => by simpa using h e mem
  rw [span?, span?, List.find?_append, missing, Option.none_or]

theorem span?_append_left (h : ∀ e ∈ first, e.1 ≠ n) :
    span? (second ++ first) n = span? second n := by
  have missing : first.find? (·.1 == n) = none :=
    List.find?_eq_none.mpr fun e mem => by simpa using h e mem
  rw [span?, span?, List.find?_append, missing, Option.or_none]

end Captures

/-- The groups with the given numbers took the given texts, and what has been recorded since has
numbers within bounds. -/
def Records (input : Array Char) (low high : Nat) (ms : List Nat) (vs : List (Option Text))
    (c d : Captures) : Prop :=
  ∃ new, d = new ++ c ∧ (∀ e ∈ new, low < e.1 ∧ e.1 ≤ high) ∧ vs = ms.map (new.text? input)

namespace Records

variable {input : Array Char} {low mid high : Nat} {ks ms : List Nat} {vs ws : List (Option Text)}
  {c d e : Captures}

theorem nothing (input : Array Char) (low high : Nat) (ms : List Nat) (c : Captures) :
    Records input low high ms (.replicate ms.length none) c c :=
  ⟨[], rfl, nofun, List.map_const.symm⟩

/-- Numbers up to a bound and numbers above it are kept apart. -/
theorem append (first : Records input low mid ks ws c e) (second : Records input mid high ms vs e d)
    (below : ∀ n ∈ ks, low < n ∧ n ≤ mid) (above : ∀ n ∈ ms, mid < n ∧ n ≤ high)
    (less : low ≤ mid) (more : mid ≤ high) :
    Records input low high (ks ++ ms) (ws ++ vs) c d := by
  obtain ⟨new₁, rfl, before, rfl⟩ := first
  obtain ⟨new₂, rfl, after, rfl⟩ := second
  refine ⟨new₂ ++ new₁, (List.append_assoc _ _ _).symm, fun e mem => ?_, ?_⟩
  · rcases List.mem_append.mp mem with mem | mem
    · have := after e mem
      omega
    · have := before e mem
      omega
  · rw [List.map_append]
    congr 1
    · refine List.map_congr_left fun n mem => ?_
      have bound := below n mem
      rw [Captures.text?, Captures.text?, Captures.span?_append fun e mem' => ?_]
      have := after e mem'
      omega
    · refine List.map_congr_left fun n mem => ?_
      have bound := above n mem
      rw [Captures.text?, Captures.text?, Captures.span?_append_left fun e mem' => ?_]
      have := before e mem'
      omega

/-- A group records what it took beside what its body records. -/
theorem group {r : Regex} {new : Captures} (known : ∀ e ∈ new, e.1 ∈ r.numbers)
    (numbered : Numbered (low + 1) high r) (more : low < high) (p q : Nat) :
    Records input low high [low + 1] [some (textBetween input p q)] c
      ((low + 1, p, q) :: (new ++ c)) := by
  refine ⟨(low + 1, p, q) :: new, rfl, fun e mem => ?_, ?_⟩
  · rcases List.mem_cons.mp mem with rfl | mem
    · exact ⟨Nat.lt_succ_self low, more⟩
    · have := numbered e.1 (known e mem)
      omega
  · rw [List.map_singleton, Captures.text?, Captures.span?, List.find?_cons_of_pos (by simp)]
    rfl

end Records

namespace Matcher

/-! ## Literal text -/

variable {input : Array Char} {p q : Nat} {c d : Captures}

theorem contains_single {c x : Char} : (CharSet.single c).contains x = true ↔ x = c := by
  rw [CharSet.single, CharSet.contains, Bool.and_eq_true_iff, decide_eq_true_iff,
    decide_eq_true_iff]
  constructor
  · rintro ⟨low, high⟩
    exact Char.le_antisymm high low
  · rintro rfl
    exact ⟨Char.le_refl _, Char.le_refl _⟩

theorem contains_compl_single {c x : Char} :
    (CharSet.compl (.single c)).contains x = true ↔ x ≠ c := by
  rw [CharSet.contains, Bool.not_eq_true', ← Bool.not_eq_true, contains_single]

/-- The texts of characters other than a given one, with a least length. -/
theorem matches_others {least : Nat} {greedy : Bool} {c : Char} {t : Text} :
    (loop least none greedy (set (.compl (.single c)))).Matches t ↔
      least ≤ t.length ∧ c ∉ t := by
  constructor
  · intro h
    obtain ⟨ts, rfl, many, -, each⟩ := h
    constructor
    · have single : ∀ u ∈ ts, u.length = 1 := by
        intro u mem
        obtain ⟨x, rfl, -⟩ := each u mem
        rfl
      have length : ts.flatten.length = ts.length := by
        rw [List.length_flatten, List.map_congr_left single, List.map_const',
          List.sum_replicate_nat, Nat.mul_one]
      rwa [length]
    · intro mem
      obtain ⟨u, mem, here⟩ := List.mem_flatten.mp mem
      obtain ⟨x, rfl, other⟩ := each u mem
      exact contains_compl_single.mp other (List.mem_singleton.mp here).symm
  · intro h
    obtain ⟨many, free⟩ := h
    have whole : t = (t.map fun x => [x]).flatten := by
      rw [← List.flatMap_def, List.flatMap_singleton']
    refine ⟨t.map fun x => [x], whole, by rwa [List.length_map], ?_, ?_⟩
    · intro m bound
      cases bound
    · intro u mem
      obtain ⟨x, here, rfl⟩ := List.mem_map.mp mem
      refine ⟨x, rfl, contains_compl_single.mpr ?_⟩
      intro same
      rw [same] at here
      exact free here

/-- The way through literal text takes it and records nothing. -/
theorem ways_single {t : Text} (within : p ≤ input.size)
    (way : Ways input (t.map single) p c q d) :
    q ≤ input.size ∧ d = c ∧ textBetween input p q = t := by
  induction t generalizing p with
  | nil =>
    obtain ⟨rfl, rfl⟩ := way
    exact ⟨within, rfl, textBetween_self input q⟩
  | cons x t ih =>
    obtain ⟨k, e, here, more⟩ := way
    obtain ⟨within', y, taken, same⟩ := Way.matches (r := single x) rfl within here
    obtain rfl := contains_single.mp same
    obtain ⟨-, rfl, rfl⟩ := here
    obtain ⟨within'', rfl, rest⟩ := ih within' more
    refine ⟨within'', rfl, ?_⟩
    rw [textBetween_append input (Nat.le_add_right p 1) (Ways.forward input _ _ _ _ _ more), taken,
      rest]
    rfl

theorem exists_ways_single {u t v : Text} (split : input.toList = u ++ t ++ v) (c : Captures) :
    Ways input (t.map single) u.length c (u.length + t.length) c := by
  induction t generalizing u with
  | nil => exact ⟨rfl, rfl⟩
  | cons x t ih =>
    have here : input[u.length]? = some x := by
      rw [← Array.getElem?_toList, split]
      simp
    have more := ih (u := u ++ [x]) (by simp [split])
    rw [List.length_append, List.length_singleton] at more
    refine ⟨u.length + 1, c, ⟨⟨x, here, contains_single.mpr rfl⟩, rfl, rfl⟩, ?_⟩
    rwa [List.length_cons, Nat.add_comm t.length, ← Nat.add_assoc]

/-! ## Parts -/

/-- The constraints of placeholders are plain expressions. -/
def AllPlain (ps : List Placeholder) : Prop :=
  ∀ q ∈ ps, ∀ parsed, Regex.parse q.expression = .ok parsed → parsed.regex.isPlain = true

/-- A way through what the parts are read as cuts a text, and records what placeholders take. -/
theorem Compiled.decomposes {i : Nat} {g g' : List GroupKind} {ns : List Node} {rs : List Regex}
    {ms : List Nat} (compiled : Compiled i g ns rs ms g')
    (plain : AllPlain (Node.placeholders.ofNodes ns)) (within : p ≤ input.size)
    (way : Ways input rs p c q d) :
    q ≤ input.size ∧ ∃ vs, Records input g.length g'.length ms vs c d ∧
      Node.Decomposes ns (textBetween input p q) vs := by
  induction compiled generalizing p c q d with
  | nil =>
    obtain ⟨rfl, rfl⟩ := way
    refine ⟨within, [], .nothing input _ _ [] d, ?_⟩
    rw [textBetween_self]
    exact .nil
  | literal _ ih =>
    obtain ⟨k, e, here, more⟩ := (ways_append _ _).mp way
    have less := Ways.forward input _ _ _ _ _ here
    have less' := Ways.forward input _ _ _ _ _ more
    obtain ⟨within', rfl, taken⟩ := ways_single within here
    obtain ⟨within'', vs, records, rest⟩ := ih plain within' more
    refine ⟨within'', vs, records, ?_⟩
    rw [textBetween_append input less less', taken]
    exact .literal rest
  | @placeholder i g added g' q₀ parsed r ns rs ms alone alike numbered compiled ih =>
    obtain ⟨k, e, here, more⟩ := way
    have less := Way.forward input _ _ _ _ _ here
    have less' := Ways.forward input _ _ _ _ _ more
    have plain₀ : r.isPlain = true := by
      rw [← isPlain_unnumbered, alike, isPlain_unnumbered]
      exact plain q₀ List.mem_cons_self parsed alone
    obtain ⟨within', taken⟩ := Way.matches (r := .group (g.length + 1) r) plain₀ within here
    have taken : r.Matches (textBetween input p k) := taken
    rw [← matches_unnumbered, alike, matches_unnumbered] at taken
    obtain ⟨within'', vs, records, rest⟩ :=
      ih (fun q mem => plain q (List.mem_cons_of_mem _ mem)) within' more
    obtain ⟨grown, above, -⟩ := compiled.outline.bounds
    have opened : g.length < (added ++ .named (groupName i) :: g).length := by
      rw [List.length_append, List.length_cons]
      omega
    obtain ⟨_, inside, rfl⟩ := here
    obtain ⟨new, rfl, known⟩ := inside.captures
    have own : Records input g.length _ [g.length + 1] [some (textBetween input p k)] c _ :=
      .group known numbered opened p k
    refine ⟨within'', _, own.append records (fun n mem => ?_) above opened.le grown, ?_⟩
    · obtain rfl := List.mem_singleton.mp mem
      omega
    · rw [textBetween_append input less less']
      exact .placeholder ⟨parsed, alone, taken⟩ rest
  | @optional i g g₁ g' children ns cs rs ks ms compiled compiled' ihc ih =>
    obtain ⟨k, e, here, more⟩ := way
    have less := Way.forward input _ _ _ _ _ here
    have less' := Ways.forward input _ _ _ _ _ more
    obtain ⟨grown, below, count⟩ := compiled.outline.bounds
    obtain ⟨grown', above, -⟩ := compiled'.outline.bounds
    have plain' : AllPlain (Node.placeholders.ofNodes ns) := fun q mem =>
      plain q (List.mem_append_right _ mem)
    obtain ⟨n, -, few, times⟩ := here
    have few : n ≤ 1 := few 1 rfl
    rcases Nat.le_one_iff_eq_zero_or_eq_one.mp few with rfl | rfl
    · obtain ⟨rfl, rfl⟩ := times
      obtain ⟨within'', vs, records, rest⟩ := ih plain' within more
      have none := Records.nothing input g.length g₁.length ks e
      refine ⟨within'', _, none.append records below above grown grown', ?_⟩
      rw [count]
      exact .absent rest
    · obtain ⟨l, f, way, rfl, rfl⟩ := times
      obtain ⟨within', ws, first, inside⟩ :=
        ihc (fun q mem => plain q (List.mem_append_left _ mem)) within ((way_sequence cs).mp way)
      obtain ⟨within'', vs, records, rest⟩ := ih plain' within' more
      refine ⟨within'', _, first.append records below above grown grown', ?_⟩
      rw [textBetween_append input less less']
      exact .present inside rest

/-- Where a text stands that parts take, there is a way through what they are read as. -/
theorem Compiled.exists_ways {i : Nat} {g g' : List GroupKind} {ns : List Node} {rs : List Regex}
    {ms : List Nat} (compiled : Compiled i g ns rs ms g') {t u v : Text} {vs : List (Option Text)}
    (taken : Node.Decomposes ns t vs) (split : input.toList = u ++ t ++ v) (c : Captures) :
    ∃ d, Ways input rs u.length c (u.length + t.length) d := by
  have around {u t w v : Text} (split : input.toList = u ++ (t ++ w) ++ v) :
      input.toList = u ++ t ++ (w ++ v) ∧ input.toList = (u ++ t) ++ w ++ v := by
    simp [split]
  have join {rs : List Regex} {u t w : Text} {e d : Captures}
      (more : Ways input rs (u ++ t).length e ((u ++ t).length + w.length) d) :
      Ways input rs (u.length + t.length) e (u.length + (t ++ w).length) d := by
    rw [List.length_append] at more
    rwa [List.length_append, ← Nat.add_assoc]
  induction compiled generalizing t u v vs c with
  | nil =>
    cases taken
    exact ⟨c, rfl, rfl⟩
  | literal _ ih =>
    cases taken with
    | literal rest =>
      obtain ⟨before, after⟩ := around split
      obtain ⟨d, more⟩ := ih rest after c
      exact ⟨d, (ways_append _ _).mpr ⟨_, c, exists_ways_single before c, join more⟩⟩
  | @placeholder i g added g' q₀ parsed r ns rs ms alone alike numbered _ ih =>
    cases taken with
    | @placeholder _ t _ _ _ accepts rest =>
      obtain ⟨before, after⟩ := around split
      obtain ⟨parsed', alone', taken⟩ := accepts
      rw [alone] at alone'
      cases alone'
      have taken : r.Matches t := by
        rwa [← matches_unnumbered, alike, matches_unnumbered]
      obtain ⟨e, here⟩ := taken.exists_way before c
      obtain ⟨d, more⟩ := ih rest after ((g.length + 1, u.length, u.length + t.length) :: e)
      exact ⟨d, _, _, ⟨e, here, rfl⟩, join more⟩
  | @optional i g g₁ g' children ns cs rs ks ms _ _ ihc ih =>
    cases taken with
    | absent rest =>
      obtain ⟨d, more⟩ := ih rest split c
      exact ⟨d, u.length, c, ⟨0, Nat.le_refl 0, fun _ _ => Nat.zero_le _, rfl, rfl⟩, more⟩
    | @present _ _ t _ _ _ inside rest =>
      obtain ⟨before, after⟩ := around split
      obtain ⟨e, here⟩ := ihc inside before c
      obtain ⟨d, more⟩ := ih rest after e
      have once : Way input (loop 0 (some 1) true (sequence cs)) u.length c
          (u.length + t.length) e := by
        refine ⟨1, Nat.zero_le _, fun m mem => ?_, _, e, (way_sequence cs).mpr here, rfl, rfl⟩
        cases mem
        exact Nat.le_refl _
      exact ⟨d, _, e, once, join more⟩

end Matcher

end UrlRouting
