import UrlRouting.Proofs.Matcher.Decomposing
import UrlRouting.Proofs.Regex.Solving

/-!
# What a matcher finds

A pattern describes the texts that its parts take, and these with one more slash at the end. The
program of a matcher matches exactly these texts, and what it captures are the pieces of one way to
cut the text (`Serves.sound`, `Serves.complete`). Whether a placeholder accepts a value by itself is
decided by the same solver (`Placeholder.accepts_of_takes`).
-/

namespace UrlRouting

open Regex

/-! ## Values by themselves -/

/-- Whether the solver leads from the beginning of a text to its end. -/
def Regex.takes (r : Regex) (t : Text) : Bool :=
  (solve t.toArray r [t.length]).starts.contains 0

/-- A plain expression matches the texts that the solver takes in full. -/
theorem Regex.matches_iff_takes {r : Regex} (plain : r.isPlain = true) (t : Text) :
    r.Matches t ↔ r.takes t = true := by
  have within : Within t.toArray.size [t.length] := ⟨List.pairwise_singleton _ _, by simp⟩
  have solves := solve_solves t.toArray (isRegular_of_isPlain plain) within
  rw [matches_iff_way plain, Regex.takes, List.contains_iff_mem]
  constructor
  · rintro ⟨d, way⟩
    exact solves.complete 0 [] _ d List.mem_cons_self way
  · intro start
    obtain ⟨q, d, last, way⟩ := solves.exists_step start []
    rw [List.mem_singleton.mp last] at way
    exact ⟨d, way⟩

/-- Whether the expression of a placeholder is plain and takes a text. -/
def Placeholder.takes (q : Placeholder) (t : Text) : Bool :=
  (Regex.parse q.expression).toOption.any fun parsed => parsed.regex.isPlain && parsed.regex.takes t

theorem Placeholder.accepts_of_takes {q : Placeholder} {t : Text} (h : q.takes t = true) :
    q.Accepts t := by
  obtain ⟨parsed, alone, holds⟩ := exists_ok_of_any _ _ h
  obtain ⟨plain, taken⟩ := Bool.and_eq_true_iff.mp holds
  exact ⟨parsed, alone, (Regex.matches_iff_takes plain t).mpr taken⟩

/-! ## The whole expression -/

/-- A text is what the parts of a pattern take, and possibly one slash more. -/
def Pattern.Describes (p : Pattern) (t : Text) (vs : List (Option Text)) : Prop :=
  Node.Decomposes p.nodes t vs ∨ ∃ u, t = u ++ ['/'] ∧ Node.Decomposes p.nodes u vs

/-- A slash is described where the parts take nothing. -/
theorem Pattern.Describes.of_decomposes {p : Pattern} {t : Text} {vs : List (Option Text)}
    (taken : Node.Decomposes p.nodes t vs) : p.Describes (if t = [] then ['/'] else t) vs := by
  split
  next empty =>
    rw [empty] at taken
    exact .inr ⟨[], rfl, taken⟩
  next => exact .inl taken

namespace Matcher

variable {input : Array Char} {p q : Nat} {c d : Captures} {rs : List Regex}

/-- An anchored expression leads to the end of the input, past one slash at most. -/
theorem way_anchored : Way input (anchored rs) 0 c q d ↔ ∃ k, Ways input rs 0 c k d ∧
    (k = q ∨ input[k]? = some '/' ∧ q = k + 1) ∧ q = input.size := by
  rw [anchored, way_sequence]
  constructor
  · rintro ⟨j, b, ⟨-, rfl, rfl⟩, k, e, parts, l, f, ⟨n, -, few, slash⟩, final⟩
    obtain ⟨m, g, ⟨ends, rfl, rfl⟩, rfl, rfl⟩ := final
    have ends : q = input.size := by simpa [Assertion.holds] using ends
    have few : n ≤ 1 := few 1 rfl
    rcases Nat.le_one_iff_eq_zero_or_eq_one.mp few with rfl | rfl
    · obtain ⟨rfl, rfl⟩ := slash
      exact ⟨q, (way_sequence rs).mp parts, .inl rfl, ends⟩
    · obtain ⟨_, _, ⟨⟨x, here, holds⟩, rfl, rfl⟩, rfl, rfl⟩ := slash
      obtain rfl := contains_single.mp holds
      exact ⟨k, (way_sequence rs).mp parts, .inr ⟨here, rfl⟩, ends⟩
  · rintro ⟨k, parts, slash, rfl⟩
    refine ⟨0, c, ⟨rfl, rfl, rfl⟩, k, d, (way_sequence rs).mpr parts, input.size, d, ?_,
      input.size, d,
      ⟨?_, rfl, rfl⟩, rfl, rfl⟩
    · rcases slash with rfl | ⟨here, last⟩
      · exact ⟨0, Nat.le_refl 0, fun _ _ => Nat.zero_le _, rfl, rfl⟩
      · refine ⟨1, Nat.zero_le 1, fun m mem => ?_, k + 1, d,
          ⟨⟨'/', here, contains_single.mpr rfl⟩, rfl, rfl⟩, last, rfl⟩
        cases mem
        exact Nat.le_refl _
    · simp [Assertion.holds]

theorem isRegular_anchored (regular : ∀ r ∈ rs, r.isRegular = true) :
    (anchored rs).isRegular = true := by
  refine isRegular_sequence fun r mem => ?_
  simp only [List.mem_cons, List.not_mem_nil, or_false] at mem
  rcases mem with rfl | rfl | rfl | rfl
  · rfl
  · exact isRegular_sequence regular
  · rfl
  · rfl

/-- What the parts of a pattern are read as is regular if constraints are plain. -/
theorem Compiled.isRegular {i : Nat} {g g' : List GroupKind} {ns : List Node} {ms : List Nat}
    (compiled : Compiled i g ns rs ms g') (plain : AllPlain (Node.placeholders.ofNodes ns)) :
    ∀ r ∈ rs, r.isRegular = true := by
  induction compiled with
  | nil => nofun
  | literal _ ih =>
    intro r mem
    rcases List.mem_append.mp mem with mem | mem
    · obtain ⟨c, -, rfl⟩ := List.mem_map.mp mem
      rfl
    · exact ih plain r mem
  | @placeholder i g added g' q₀ parsed r ns rs ms alone alike numbered _ ih =>
    intro s mem
    rcases List.mem_cons.mp mem with rfl | mem
    · refine isRegular_of_isPlain (r := .group (g.length + 1) r) ?_
      rw [← isPlain_unnumbered, unnumbered, alike]
      exact (isPlain_unnumbered _).trans (plain q₀ List.mem_cons_self parsed alone)
    · exact ih (fun q mem => plain q (List.mem_cons_of_mem _ mem)) s mem
  | optional _ _ ihc ih =>
    intro s mem
    rcases List.mem_cons.mp mem with rfl | mem
    · exact isRegular_sequence (ihc fun q mem => plain q (List.mem_append_left _ mem))
    · exact ih (fun q mem => plain q (List.mem_append_right _ mem)) s mem

end Matcher

/-! ## Pieces -/

/-- The text that the group of a placeholder took. -/
def Matcher.piece? (m : Matcher) (input : Array Char) (caps : Captures) (index : Nat) :
    Option Text :=
  (m.program.numberOf? (groupName index)).bind (caps.text? input)

/-- What the groups of all placeholders took. -/
def Matcher.pieces (m : Matcher) (input : Array Char) (caps : Captures) : List (Option Text) :=
  (List.range' 0 m.names.length).map (m.piece? input caps)

/-- The names of placeholders with what they took, its escapes read. -/
def bindings (names : List Text) (vs : List (Option Text)) : Entries Text :=
  (names.zip vs).filterMap fun x => x.2.map fun v => (x.1, Percent.decode v)

namespace Matcher

variable {m : Matcher} {p : Pattern} {rs : List Regex} {ms : List Nat} {input : Array Char}
  {location : Text}

theorem value?_eq (m : Matcher) (input : Array Char) (caps : Captures) (index : Nat) :
    m.value? input caps index = (m.piece? input caps index).map Percent.decode := by
  rw [value?, piece?]
  cases m.program.numberOf? (groupName index) with
  | none => rfl
  | some n =>
    change (caps.span? n).bind _ = ((caps.span? n).map _).map _
    cases caps.span? n <;> rfl

theorem extract?_eq (m : Matcher) (location : Text) :
    m.extract? location = (m.program.match? location.toArray).map fun caps =>
      .ofList (bindings m.names (m.pieces location.toArray caps)) := by
  rw [extract?]
  congr 1
  funext caps
  rw [bindings, pieces, List.zip_map_right, List.filterMap_map, List.zipIdx_eq_zip_range']
  congr 2
  funext x
  obtain ⟨name, index⟩ := x
  change (m.value? location.toArray caps index).map _ = _
  rw [value?_eq, Option.map_map]
  rfl

/-- The pieces are what the groups with the numbers of placeholders took. -/
theorem Outline.pieces_eq (outline : Outline 0 [] p.nodes rs ms m.program.groups.reverse)
    (nodup : m.program.groups.Nodup) (names : m.names = p.names) (input : Array Char)
    (caps : Captures) : m.pieces input caps = ms.map (caps.text? input) := by
  have distinct : ([] ++ m.program.groups.reverse).Nodup :=
    List.pairwise_reverse.mpr (nodup.imp Ne.symm)
  have numbers := outline.numbers distinct
  have count : m.names.length = ms.length := by
    rw [names, outline.bounds.2.2, Pattern.names, List.length_map]
    rfl
  have number (j : Nat) : m.program.numberOf? (groupName j) =
      numberIn ([] ++ m.program.groups.reverse) (groupName j) := by
    rw [Program.numberOf?, numberIn, List.nil_append, List.length_reverse]
  have through : m.pieces input caps =
      ((List.range' 0 ms.length).map fun j =>
        numberIn ([] ++ m.program.groups.reverse) (groupName j)).map fun o =>
          o.bind (caps.text? input) := by
    rw [pieces, count, List.map_map]
    refine List.map_congr_left fun j _ => ?_
    rw [piece?, number]
    rfl
  rw [through, numbers, List.map_map]
  rfl

/-! ## Matches -/

/-- A program is read from the expression of a pattern with plain constraints. -/
structure Serves (m : Matcher) (p : Pattern) (rs : List Regex) (ms : List Nat) : Prop where
  compiled : Compiled 0 [] p.nodes rs ms m.program.groups.reverse
  regex : m.program.regex = anchored rs
  plain : AllPlain p.placeholders
  nodup : m.program.groups.Nodup
  names : m.names = p.names

namespace Serves

theorem isRegular (serves : m.Serves p rs ms) : m.program.regex.isRegular = true := by
  rw [serves.regex]
  exact isRegular_anchored (serves.compiled.isRegular serves.plain)

theorem pieces_eq (serves : m.Serves p rs ms) (input : Array Char) (caps : Captures) :
    m.pieces input caps = ms.map (caps.text? input) :=
  serves.compiled.outline.pieces_eq serves.nodup serves.names input caps

/-- A match is a way to cut the input, and captures its pieces. -/
theorem sound (serves : m.Serves p rs ms) {caps : Captures}
    (h : m.program.match? input = some caps) : p.Describes input.toList (m.pieces input caps) := by
  rw [Program.match?, if_pos serves.isRegular, Option.map_eq_some_iff] at h
  obtain ⟨⟨q, d⟩, first, rfl⟩ := h
  have way := way_of_firstWay serves.isRegular first
  rw [serves.regex] at way
  obtain ⟨k, parts, slash, rfl⟩ := way_anchored.mp way
  obtain ⟨within, vs, ⟨new, same, -, texts⟩, taken⟩ :=
    serves.compiled.decomposes serves.plain (Nat.zero_le _) parts
  rw [List.append_nil] at same
  subst same
  rw [serves.pieces_eq, ← texts]
  have whole : textBetween input 0 input.size = input.toList := by
    rw [textBetween_eq, List.drop_zero, Nat.sub_zero, ← Array.length_toList, List.take_length]
  rcases slash with rfl | ⟨here, last⟩
  · rw [whole] at taken
    exact .inl taken
  · refine .inr ⟨textBetween input 0 k, ?_, taken⟩
    have slash : textBetween input k input.size = ['/'] := by
      rw [last, textBetween_eq, Nat.add_sub_cancel_left, List.take_one, List.head?_drop,
        Array.getElem?_toList, here]
      rfl
    rw [← whole, textBetween_append input (Nat.zero_le k) within, slash]

/-- An input that the pattern describes is matched. -/
theorem complete (serves : m.Serves p rs ms) {vs : List (Option Text)}
    (described : p.Describes input.toList vs) : ∃ caps, m.program.match? input = some caps := by
  have ends : ∃ k d, Ways input rs 0 [] k d ∧
      (k = input.size ∨ input[k]? = some '/' ∧ input.size = k + 1) := by
    rcases described with taken | ⟨t, shape, taken⟩
    · have size : input.toList.length = input.size := Array.length_toList
      have split : input.toList = [] ++ input.toList ++ [] := by simp
      obtain ⟨d, parts⟩ := serves.compiled.exists_ways taken split []
      rw [List.length_nil, Nat.zero_add, size] at parts
      exact ⟨_, d, parts, .inl rfl⟩
    · have size : input.size = t.length + 1 := by
        rw [← Array.length_toList, shape, List.length_append, List.length_singleton]
      have split : input.toList = [] ++ t ++ ['/'] := shape
      obtain ⟨d, parts⟩ := serves.compiled.exists_ways taken split []
      rw [List.length_nil, Nat.zero_add] at parts
      refine ⟨_, d, parts, .inr ⟨?_, size⟩⟩
      rw [← Array.getElem?_toList, shape]
      simp
  obtain ⟨k, d, parts, slash⟩ := ends
  have way : Way input m.program.regex 0 [] input.size d := by
    rw [serves.regex]
    exact way_anchored.mpr ⟨k, parts, slash, rfl⟩
  obtain ⟨x, found⟩ := exists_firstWay serves.isRegular (Nat.le_refl _) way
  refine ⟨x.2, ?_⟩
  rw [Program.match?, if_pos serves.isRegular, found]
  rfl

/-- A location is matched if and only if the pattern describes it. -/
theorem extract?_isSome (serves : m.Serves p rs ms) :
    (m.extract? location).isSome = true ↔ ∃ vs, p.Describes location vs := by
  rw [extract?_eq, Option.isSome_map]
  constructor
  · intro found
    obtain ⟨caps, found⟩ := Option.isSome_iff_exists.mp found
    exact ⟨_, serves.sound found⟩
  · rintro ⟨vs, described⟩
    have whole : p.Describes location.toArray.toList vs := described
    obtain ⟨caps, found⟩ := serves.complete whole
    rw [found]
    rfl

/-- What is extracted from a location are the pieces of one way to cut it. -/
theorem describes_of_extract? (serves : m.Serves p rs ms) {params : Params}
    (h : m.extract? location = some params) :
    ∃ vs, p.Describes location vs ∧ params = .ofList (bindings p.names vs) := by
  rw [extract?_eq, serves.names] at h
  obtain ⟨caps, found, same⟩ := Option.map_eq_some_iff.mp h
  exact ⟨_, serves.sound found, same.symm⟩

end Serves

end Matcher

end UrlRouting
