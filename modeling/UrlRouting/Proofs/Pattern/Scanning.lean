import UrlRouting.Proofs.Pattern.Body
import UrlRouting.Proofs.Pattern.Brackets

/-!
# Reading the tree of a pattern

The scanner reads exactly the trees that a text writes. `Spells` says which text has led to a state,
and where in it the brackets and the brace stand that are still open; each character keeps it
(`step_spells`), so the tree at the end is written by the whole text (`scan_written`). The other way
round, the scanner takes each part that a text writes (`run_written`).
-/

namespace UrlRouting

/-! ## Parts that have been read -/

/-- A placeholder as the scanner leaves it. -/
structure Placeholder.Scanned (p : Placeholder) : Prop where
  named : isName p.name
  constrained : ∀ c ∈ p.constraint, Constraint.Scanned c

/-- Parts that a text writes and that the scanner may leave. -/
structure Complete (ns : List Node) (t : Text) : Prop where
  written : Node.Written ns t
  paired : Text.Paired t
  shaped : Node.ShapedList ns
  scanned : ∀ p ∈ Node.placeholders.ofNodes ns, p.Scanned

theorem Node.placeholders_append (ns ms : List Node) :
    placeholders.ofNodes (ns ++ ms) = placeholders.ofNodes ns ++ placeholders.ofNodes ms := by
  induction ns with
  | nil => rfl
  | cons n ns ih =>
    rw [List.cons_append, placeholders.ofNodes, ih, placeholders.ofNodes, List.append_assoc]

theorem Node.Written.append {ns ms : List Node} {t u : Text} (left : Written ns t)
    (right : Written ms u) : Written (ns ++ ms) (t ++ u) := by
  induction left with
  | nil => exact right
  | literal _ ih =>
    rw [List.append_assoc]
    exact .literal ih
  | placeholder body _ ih =>
    simp only [List.cons_append, List.append_assoc]
    exact .placeholder body ih
  | optional children _ _ ih =>
    simp only [List.cons_append, List.append_assoc]
    exact .optional children ih

theorem Node.shapedList_concat {ns : List Node} {n : Node} (left : ShapedList ns)
    (right : n.Shaped) (apart : ∀ m ∈ ns.getLast?, ¬ (m.isLiteral = true ∧ n.isLiteral = true)) :
    ShapedList (ns ++ [n]) := by
  induction ns with
  | nil => exact ⟨right, by simp [literalFirst], trivial⟩
  | cons m ns ih =>
    obtain ⟨first, between, rest⟩ := left
    refine ⟨first, ?_, ih rest fun k mem => apart k ?_⟩
    · cases ns with
      | nil => simpa [literalFirst] using apart m rfl
      | cons k ns => exact between
    · cases ns with
      | nil => cases mem
      | cons k ns => exact mem

/-- One part more, read behind the others. -/
theorem Complete.push {ns : List Node} {n : Node} {t u : Text} (complete : Complete ns.reverse t)
    (written : Node.Written [n] u) (paired : Text.Paired u) (shaped : n.Shaped)
    (scanned : ∀ p ∈ n.placeholders, p.Scanned)
    (apart : ∀ m ∈ ns.head?, ¬ (m.isLiteral = true ∧ n.isLiteral = true)) :
    Complete (n :: ns).reverse (t ++ u) := by
  rw [List.reverse_cons]
  refine ⟨complete.written.append written, complete.paired.append paired, ?_, fun p mem => ?_⟩
  · refine Node.shapedList_concat complete.shaped shaped fun m mem => apart m ?_
    rwa [List.getLast?_reverse] at mem
  · rw [Node.placeholders_append] at mem
    rcases List.mem_append.mp mem with mem | mem
    · exact complete.scanned p mem
    · simp only [Node.placeholders.ofNodes, List.append_nil] at mem
      exact scanned p mem

theorem Complete.nil : Complete [] [] := ⟨.nil, .nil, trivial, nofun⟩

/-! ## States -/

/-- The text after the brace of a placeholder in progress. -/
def Body.text (b : Body) : Text := b.reversed.reverse

/-- The depth and the escape of a placeholder in progress are those of its text. -/
def Body.Sound (b : Body) : Prop :=
  ∃ w, b.text = w ++ (if b.escaped then ['\\'] else []) ∧ Text.dangles w = false ∧
    Text.levels 0 (Text.unescaped w) = some b.depth

/-- The braces of a placeholder in progress do not depend on a backslash that has come last. -/
theorem Body.Sound.levels {b : Body} (sound : b.Sound) :
    Text.levels 0 (Text.unescaped b.text) = some b.depth := by
  obtain ⟨w, text, whole, depth⟩ := sound
  rw [text, Text.unescaped_append whole]
  cases b.escaped <;> simpa [Text.unescaped] using depth

/-- The text up to the bracket of the innermost optional part that is open. -/
inductive Frames : List OpenOptional → Text → Prop
  | nil : Frames [] []
  | cons {o : OpenOptional} {outer : List OpenOptional} {a b : Text} :
    Frames outer a → Complete o.before.reverse b → o.opening = Text.byteLength (a ++ b) →
    Frames (o :: outer) (a ++ b ++ ['['])

theorem Frames.outside {outer : List OpenOptional} {a : Text} (frames : Frames outer a) :
    Text.Outside a := by
  induction frames with
  | nil => exact .nil
  | cons _ before _ ih =>
    have bracket : Text.Outside ['['] := .char (by decide) .nil
    exact (ih.append before.paired.outside).append bracket

theorem Frames.getLast?_ne {outer : List OpenOptional} {a : Text} (frames : Frames outer a) :
    a.getLast? ≠ some ']' := by
  cases frames with
  | nil => exact nofun
  | cons => simp

namespace Scan

/-- The part of a text that belongs to a placeholder in progress. -/
def bodyText (s : Scan) : Text := s.body.elim [] fun b => '\x7b' :: b.text

/-- A text has led to a state. -/
structure Spells (s : Scan) (u : Text) : Prop where
  position : s.position = Text.byteLength u
  text : ∃ a b, Frames s.outer a ∧ Complete s.nodes.reverse b ∧
    u = a ++ b ++ s.literal.reverse ++ s.bodyText ∧
    ∀ d ∈ s.body, d.opening = Text.byteLength (a ++ b)
  literal : ∀ c ∈ s.literal, c ∉ brackets
  apart : s.body = none → ∀ m ∈ s.nodes.head?, m.isLiteral = false
  body : ∀ b ∈ s.body, b.Sound ∧ s.literal = []
  closed : s.closed = true → s.body = none ∧ u.getLast? = some ']'

theorem Spells.start : Spells {} [] where
  position := rfl
  text := ⟨[], [], .nil, .nil, rfl, nofun⟩
  literal := nofun
  apart := nofun
  body := nofun
  closed := nofun

/-- The position behind a character that is read. -/
theorem Spells.advance {s : Scan} {u : Text} (spells : Spells s u) (c : Char) :
    s.position + c.utf8Size = Text.byteLength (u ++ [c]) := by
  rw [Text.byteLength_append, spells.position]
  rfl

/-- No optional part has just been closed while a placeholder is in progress. -/
theorem Spells.unclosed {s : Scan} {u : Text} {b : Body} (spells : Spells s u)
    (inside : s.body = some b) : ¬ s.closed = true := by
  intro closed
  rw [(spells.closed closed).1] at inside
  cases inside

/-- The parts of the present list, with the literal text in progress. -/
theorem Spells.flushed {s : Scan} {u : Text} (spells : Spells s u) (outside : s.body = none) :
    ∃ a b, Frames s.outer a ∧ Complete s.flushed.reverse b ∧ u = a ++ b := by
  obtain ⟨a, b, frames, complete, rfl, -⟩ := spells.text
  have empty : s.bodyText = [] := by rw [bodyText, outside]; rfl
  have plain : ∀ c ∈ s.literal.reverse, c ∉ brackets :=
    fun c mem => spells.literal c (List.mem_reverse.mp mem)
  rw [empty, List.append_nil]
  unfold Scan.flushed
  split
  next none => exact ⟨a, b, frames, complete, by simp [none]⟩
  next some =>
    refine ⟨a, b ++ s.literal.reverse, frames, ?_, List.append_assoc a b _⟩
    refine complete.push ?_ (.of_forall plain) ⟨by simpa using some, plain⟩ nofun
      fun m mem both => ?_
    · simpa using Node.Written.literal (t := s.literal.reverse) .nil
    · rw [spells.apart outside m mem] at both
      cases both.1

/-! ## Steps -/

/-- A character that stays in the placeholder in progress. -/
theorem Spells.keep {s : Scan} {b b' : Body} {u : Text} {c : Char} (spells : Spells s u)
    (inside : s.body = some b) (reversed : b'.reversed = c :: b.reversed)
    (same : b'.opening = b.opening) (sound : b'.Sound) :
    Spells { s with position := s.position + c.utf8Size, body := some b' } (u ++ [c]) := by
  have position := spells.advance c
  have nothing := (spells.body b inside).2
  obtain ⟨a, d, frames, complete, rfl, opening⟩ := spells.text
  refine ⟨position, ⟨a, d, frames, complete, ?_, ?_⟩, spells.literal, nofun, ?_, ?_⟩
  · simp [bodyText, inside, Body.text, reversed]
  · intro e mem
    cases mem
    rw [same, opening b inside]
  · intro e mem
    cases mem
    exact ⟨sound, nothing⟩
  · exact fun closed => absurd closed (spells.unclosed inside)

/-- The brace that closes the placeholder in progress. -/
theorem Spells.closeBody {s : Scan} {b : Body} {u : Text} {p : Placeholder} (spells : Spells s u)
    (inside : s.body = some b) (notEscaped : ¬ b.escaped = true) (eq : b.depth = 0)
    (read : Placeholder.ofBody b.text = .ok p) :
    Spells { s with
      position := s.position + Char.utf8Size '\x7d'
      nodes := .placeholder p :: s.nodes
      body := none } (u ++ ['\x7d']) := by
  have position := spells.advance '\x7d'
  obtain ⟨⟨w, text, whole, depth⟩, nothing⟩ := spells.body b inside
  have text : b.text = w := by simpa [notEscaped] using text
  obtain ⟨a, d, frames, complete, rfl, -⟩ := spells.text
  rw [text] at read
  rw [eq] at depth
  obtain ⟨written, named, scanned⟩ := ofBody_written depth read
  have paired : Text.Paired ('\x7b' :: (w ++ ['\x7d'])) := .body ⟨whole, depth⟩ .nil
  refine ⟨position,
    ⟨a, _, frames, complete.push (.placeholder written .nil) paired trivial ?_ ?_, ?_, nofun⟩,
    spells.literal, ?_, nofun, fun closed => absurd closed (spells.unclosed inside)⟩
  · intro q mem
    obtain rfl : q = p := by simpa [Node.placeholders] using mem
    exact ⟨named, scanned⟩
  · rintro m - ⟨-, literal⟩
    cases literal
  · simp [bodyText, inside, nothing, text]
  · rintro - m mem
    cases mem
    rfl

theorem stepBody_spells {s s' : Scan} {b : Body} {u : Text} {c : Char} (inside : s.body = some b)
    (spells : Spells s u) (h : s.stepBody b c = .ok s') : Spells s' (u ++ [c]) := by
  obtain ⟨w, text, whole, depth⟩ := (spells.body b inside).1
  have kept : (c :: b.reversed).reverse = b.text ++ [c] := List.reverse_cons
  unfold stepBody at h
  dsimp only at h
  split at h
  next escaped =>
    cases h
    refine spells.keep inside rfl rfl ⟨w ++ ['\\', c], ?_, ?_, ?_⟩
    · rw [Body.text, kept, text, if_pos escaped]
      simp
    · rw [Text.dangles_append whole]
      rfl
    · rw [Text.unescaped_append whole]
      simpa using depth
  next notEscaped =>
    have text : b.text = w := by simpa [notEscaped] using text
    split at h
    next escape =>
      cases h
      refine spells.keep inside rfl rfl ⟨w, ?_, whole, depth⟩
      rw [Body.text, kept, text, escape]
      rfl
    next plain =>
    have plainText :
        (c :: b.reversed).reverse = w ++ [c] ++ (if b.escaped then ['\\'] else []) := by
      rw [kept, text, if_neg notEscaped, List.append_nil]
    have more : Text.dangles (w ++ [c]) = false := by
      rw [Text.dangles_append whole, Text.dangles_cons plain]
      rfl
    have levels : Text.levels 0 (Text.unescaped (w ++ [c])) = Text.levels b.depth [c] := by
      rw [Text.unescaped_append whole, Text.unescaped_cons plain, Text.levels_append, depth]
      rfl
    split at h
    next brace =>
      cases h
      refine spells.keep inside rfl rfl ⟨w ++ [c], plainText, more, ?_⟩
      rw [levels, brace]
      rfl
    next notBrace =>
    split at h
    next close =>
      split at h
      next e eq =>
        cases h
        refine spells.keep inside rfl rfl ⟨w ++ [c], plainText, more, ?_⟩
        rw [levels, close, eq]
        rfl
      next eq =>
        obtain ⟨p, read, h⟩ := bind_eq_ok.mp h
        cases h
        subst close
        exact spells.closeBody inside notEscaped eq read
    next notClose =>
      cases h
      refine spells.keep inside rfl rfl ⟨w ++ [c], plainText, more, ?_⟩
      rw [levels]
      simp [Text.levels, notBrace, notClose]

theorem close_spells {s s' : Scan} {u : Text} (outside : s.body = none) (spells : Spells s u)
    (h : s.close = .ok s') : Spells s' (u ++ [']']) := by
  have position := spells.advance ']'
  have bodiless : ∀ d, s.body ≠ some d := by
    intro d inside
    rw [outside] at inside
    cases inside
  obtain ⟨a, b, frames, complete, rfl⟩ := spells.flushed outside
  unfold Scan.close at h
  split at h
  next => cases h
  next o outer opened =>
    split at h
    next => cases h
    next nonempty =>
      cases h
      rw [opened] at frames
      cases frames with
      | @cons _ _ a' b' frames before opening =>
        have written : Node.Written [.optional s.flushed.reverse] ('[' :: (b ++ [']'])) :=
          .optional complete.written .nil
        refine ⟨position, ⟨a', _, frames, before.push written ?_ ?_ ?_ ?_, ?_, ?_⟩, nofun, ?_, ?_,
          fun _ => ⟨outside, List.getLast?_concat⟩⟩
        · exact .pair complete.paired .nil
        · exact ⟨by simpa using nonempty, complete.shaped⟩
        · simpa [Node.placeholders] using complete.scanned
        · rintro m - ⟨-, literal⟩
          cases literal
        · simp [bodyText, outside]
        · exact fun d inside => absurd inside (bodiless d)
        · rintro - m mem
          cases mem
          rfl
        · exact fun d inside => absurd inside (bodiless d)

theorem stepPlain_spells {s s' : Scan} {u : Text} {c : Char} (outside : s.body = none)
    (spells : Spells s u) (h : s.stepPlain c = .ok s') : Spells s' (u ++ [c]) := by
  have empty : s.bodyText = [] := by rw [bodyText, outside]; rfl
  have bodiless : ∀ d, s.body ≠ some d := by
    intro d inside
    rw [outside] at inside
    cases inside
  have position := spells.advance c
  unfold stepPlain at h
  split at h
  next brace =>
    cases h
    subst brace
    have opening := spells.position
    obtain ⟨a, b, frames, complete, rfl⟩ := spells.flushed outside
    refine ⟨position, ⟨a, b, frames, complete, ?_, ?_⟩, nofun, nofun, ?_, nofun⟩
    · simp [bodyText, Body.text]
    · intro d mem
      cases mem
      exact opening
    · intro d mem
      cases mem
      exact ⟨⟨[], rfl, rfl, rfl⟩, rfl⟩
  next notBrace =>
  split at h
  next bracket =>
    cases h
    subst bracket
    have opening := spells.position
    obtain ⟨a, b, frames, complete, rfl⟩ := spells.flushed outside
    refine ⟨position, ⟨_, [], .cons frames complete opening, .nil, ?_, ?_⟩, nofun, nofun, ?_, nofun⟩
    · simp [bodyText, outside]
    · exact fun d inside => absurd inside (bodiless d)
    · exact fun d inside => absurd inside (bodiless d)
  next notBracket =>
  split at h
  next close =>
    rw [close]
    exact close_spells outside spells h
  next notClose =>
    cases h
    obtain ⟨a, b, frames, complete, rfl, -⟩ := spells.text
    refine ⟨position, ⟨a, b, frames, complete, ?_, fun d inside => absurd inside (bodiless d)⟩, ?_,
      fun _ => spells.apart outside, fun d inside => absurd inside (bodiless d), nofun⟩
    · rw [empty]
      simp [bodyText, outside]
    · intro d mem
      rcases List.mem_cons.mp mem with rfl | mem
      · simp [brackets, notBrace, notBracket, notClose]
      · exact spells.literal d mem

/-- Each character keeps what a text has led to. -/
theorem step_spells {placement : OptionalPlacement} {s s' : Scan} {u : Text} {c : Char}
    (spells : Spells s u) (h : s.step placement c = .ok s') : Spells s' (u ++ [c]) := by
  unfold step at h
  split at h
  next b inside => exact stepBody_spells inside spells h
  next outside =>
    split at h
    next => cases h
    next => exact stepPlain_spells outside spells h

theorem run_spells {placement : OptionalPlacement} {s s' : Scan} {u t : Text}
    (spells : Spells s u) (h : t.foldlM (step placement) s = .ok s') : Spells s' (u ++ t) := by
  induction t generalizing s u with
  | nil =>
    cases h
    rwa [List.append_nil]
  | cons c t ih =>
    obtain ⟨s₁, first, rest⟩ := bind_eq_ok.mp h
    have more := ih (step_spells spells first) rest
    rwa [List.append_assoc] at more

/-- What has been read at the end is written by the whole text. -/
theorem finish_spells {s : Scan} {u : Text} {ns : List Node} (spells : Spells s u)
    (h : s.finish = .ok ns) : Complete ns u := by
  unfold finish at h
  split at h
  next => cases h
  next => cases h
  next outside closed =>
    cases h
    obtain ⟨a, b, frames, complete, rfl⟩ := spells.flushed outside
    rw [closed] at frames
    cases frames
    exact complete

end Scan

theorem scan_written {placement : OptionalPlacement} {t : Text} {p : Pattern}
    (h : Pattern.scan placement t = .ok p) : Complete p.nodes t := by
  obtain ⟨s, run, h⟩ := bind_eq_ok.mp h
  obtain ⟨ns, finish, h⟩ := bind_eq_ok.mp h
  cases h
  exact Scan.finish_spells (Scan.run_spells .start run) finish

/-! ## Texts that write a tree -/

namespace Scan

variable {placement : OptionalPlacement} {s : Scan}

/-- A part may begin: no placeholder is in progress, and where optional parts are for the end only,
none has just been closed. -/
structure Ready (placement : OptionalPlacement) (s : Scan) : Prop where
  outside : s.body = none
  free : placement = .trailingOnly → s.closed = false

theorem Ready.start : Ready placement {} := ⟨rfl, fun _ => rfl⟩

theorem step_inside {b : Body} {c : Char} (inside : s.body = some b) :
    s.step placement c = s.stepBody b c := by
  rw [step, inside]

theorem step_outside {c : Char} (ready : s.Ready placement) :
    s.step placement c = s.stepPlain c := by
  rw [step, ready.outside]
  refine if_neg ?_
  rintro ⟨only, closed, -⟩
  rw [ready.free only] at closed
  cases closed

theorem step_close (outside : s.body = none) : s.step placement ']' = s.close := by
  rw [step, outside]
  exact if_neg fun blocked => blocked.2.2 rfl

/-- The state after a character that stays in the placeholder. -/
def kept (s : Scan) (c : Char) (b : Body) : Scan :=
  { s with position := s.position + c.utf8Size, body := some b }

/-- The state after the brace that opens a placeholder. -/
def opened (s : Scan) : Scan :=
  { s with
    position := s.position + 1
    nodes := s.flushed
    literal := []
    body := some { opening := s.position }
    closed := false }

/-- The state after the bracket that opens an optional part. -/
def entered (s : Scan) : Scan :=
  { s with
    position := s.position + 1
    outer := ⟨s.position, s.flushed⟩ :: s.outer
    nodes := []
    literal := []
    closed := false }

theorem step_brace (ready : s.Ready placement) : s.step placement '\x7b' = .ok s.opened := by
  rw [step_outside ready]
  rfl

theorem step_bracket (ready : s.Ready placement) : s.step placement '[' = .ok s.entered := by
  rw [step_outside ready]
  rfl

theorem Ready.entered (ready : s.Ready placement) : s.entered.Ready placement :=
  ⟨ready.outside, fun _ => rfl⟩

theorem stepBody_escape {b : Body} (fresh : b.escaped = false) :
    s.stepBody b '\\' =
      .ok (s.kept '\\' { b with reversed := '\\' :: b.reversed, escaped := true }) := by
  simp [stepBody, fresh, kept]

theorem stepBody_escaped {b : Body} (pending : b.escaped = true) (c : Char) :
    s.stepBody b c = .ok (s.kept c { b with reversed := c :: b.reversed, escaped := false }) := by
  simp [stepBody, pending, kept]

theorem stepBody_plain {b : Body} (fresh : b.escaped = false) {c : Char} (ne : c ≠ '\\')
    {depth : Nat} (levels : Text.levels b.depth [c] = some depth) :
    s.stepBody b c = .ok (s.kept c { b with reversed := c :: b.reversed, depth }) := by
  unfold stepBody
  rw [fresh, if_neg (by decide), if_neg ne]
  unfold Text.levels at levels
  split
  next brace =>
    rw [if_pos brace] at levels
    cases levels
    rfl
  next notBrace =>
    rw [if_neg notBrace] at levels
    split
    next close =>
      rw [if_pos close] at levels
      cases eq : b.depth with
      | zero =>
        rw [eq] at levels
        cases levels
      | succ e =>
        rw [eq] at levels
        cases levels
        rfl
    next notClose =>
      rw [if_neg notClose] at levels
      cases levels
      rfl

/-- The text of a placeholder is read up to the brace that closes it. -/
theorem run_body (placement : OptionalPlacement) {w : Text} {b : Body} {depth : Nat}
    (inside : s.body = some b) (fresh : b.escaped = false) (whole : Text.dangles w = false)
    (levels : Text.levels b.depth (Text.unescaped w) = some depth) :
    ∃ s' b', w.foldlM (step placement) s = .ok s' ∧ s'.outer = s.outer ∧ s'.nodes = s.nodes ∧
      s'.literal = s.literal ∧ s'.closed = s.closed ∧ s'.body = some b' ∧ b'.escaped = false ∧
      b'.depth = depth ∧ b'.reversed = w.reverse ++ b.reversed := by
  induction w using Text.escapes_induction generalizing s b with
  | nil =>
    obtain rfl : b.depth = depth := Option.some.inj levels
    exact ⟨s, b, rfl, rfl, rfl, rfl, rfl, inside, fresh, rfl, rfl⟩
  | lone => cases whole
  | escape c w ih =>
    rw [Text.dangles_escape] at whole
    rw [Text.unescaped_escape] at levels
    obtain ⟨s', b', run, outer, nodes, literal, closed, body, escaped, depth, reversed⟩ :=
      ih (s := (s.kept '\\' _).kept c
        { b with reversed := c :: '\\' :: b.reversed, escaped := false })
        rfl rfl whole levels
    refine ⟨s', b', ?_, outer, nodes, literal, closed, body, escaped, depth, ?_⟩
    · rw [List.foldlM_cons, step_inside inside, stepBody_escape fresh, ok_bind, List.foldlM_cons,
        step_inside rfl, stepBody_escaped rfl, ok_bind]
      exact run
    · rw [reversed]
      simp
  | plain c w ne ih =>
    rw [Text.dangles_cons ne] at whole
    rw [Text.unescaped_cons ne, ← List.singleton_append, Text.levels_append] at levels
    obtain ⟨next, first, levels⟩ := Option.bind_eq_some_iff.mp levels
    obtain ⟨s', b', run, outer, nodes, literal, closed, body, escaped, depth, reversed⟩ :=
      ih (s := s.kept c { b with reversed := c :: b.reversed, depth := next })
        rfl fresh whole levels
    refine ⟨s', b', ?_, outer, nodes, literal, closed, body, escaped, depth, ?_⟩
    · rw [List.foldlM_cons, step_inside inside, stepBody_plain fresh ne first]
      exact run
    · rw [reversed]
      simp

theorem run_literal {t : Text} (plain : ∀ c ∈ t, c ∉ brackets) (ready : s.Ready placement) :
    ∃ s', t.foldlM (step placement) s = .ok s' ∧ s'.outer = s.outer ∧ s'.nodes = s.nodes ∧
      s'.literal = t.reverse ++ s.literal ∧ s'.Ready placement := by
  induction t generalizing s with
  | nil => exact ⟨s, rfl, rfl, rfl, rfl, ready⟩
  | cons c t ih =>
    have ne := plain c List.mem_cons_self
    simp only [brackets, List.mem_cons, List.not_mem_nil, or_false, not_or] at ne
    have first : s.step placement c = .ok
        { s with
          position := s.position + c.utf8Size
          literal := c :: s.literal
          closed := false } := by
      rw [step_outside ready, stepPlain, if_neg ne.1, if_neg ne.2.1, if_neg ne.2.2]
    obtain ⟨s', rest, outer, nodes, literal, ready'⟩ :=
      ih (s := { s with
        position := s.position + c.utf8Size, literal := c :: s.literal, closed := false })
        (fun d mem => plain d (List.mem_cons_of_mem c mem)) ⟨ready.outside, fun _ => rfl⟩
    refine ⟨s', ?_, outer, nodes, ?_, ready'⟩
    · rw [List.foldlM_cons, first]
      exact rest
    · rw [literal]
      simp

/-- A placeholder is read from its opening to its closing brace. -/
theorem run_placeholder {p : Placeholder} {w : Text} (body : p.Written w) (named : isName p.name)
    (constrained : ∀ c ∈ p.constraint, Constraint.Proper c) (ready : s.Ready placement) :
    ∃ s', ('\x7b' :: (w ++ ['\x7d'])).foldlM (step placement) s = .ok s' ∧ s'.outer = s.outer ∧
      s'.nodes = .placeholder p :: s.flushed ∧ s'.literal = [] ∧ s'.Ready placement := by
  obtain ⟨whole, levels⟩ := body.balanced named constrained
  obtain ⟨s₁, b, inner, outer, nodes, literal, closed, inside, fresh, depth, reversed⟩ :=
    run_body placement (s := s.opened) rfl rfl whole levels
  have text : b.reversed.reverse = w := by
    rw [reversed]
    simp
  have parts : s₁.nodes = s.flushed := nodes
  have closing : s₁.step placement '\x7d' = .ok
      { s₁ with
        position := s₁.position + 1
        nodes := .placeholder p :: s₁.nodes
        body := none } := by
    rw [step_inside inside, stepBody, fresh, if_neg (by decide), if_neg (by decide),
      if_neg (by decide), if_pos rfl, depth, text, ofBody_of_written body named constrained]
    rfl
  have last : ('\x7b' :: (w ++ ['\x7d'])).foldlM (step placement) s = s₁.step placement '\x7d' := by
    rw [List.foldlM_cons, step_brace ready, ok_bind, List.foldlM_append, inner, ok_bind,
      List.foldlM_cons]
    exact bind_pure _
  exact ⟨_, last.trans closing, outer, congrArg _ parts, literal, rfl, fun _ => closed⟩

/-- An optional part is read from its opening to its closing bracket, if the parts in it are. -/
theorem run_optional {children : List Node} {w : Text} (nonempty : children ≠ [])
    (ready : s.Ready placement)
    (inner : ∃ s₁, w.foldlM (step placement) s.entered = .ok s₁ ∧ s₁.outer = s.entered.outer ∧
      s₁.body = none ∧ s₁.flushed = children.reverse ++ s.entered.flushed) :
    ∃ s', ('[' :: (w ++ [']'])).foldlM (step placement) s = .ok s' ∧ s'.outer = s.outer ∧
      s'.nodes = .optional children :: s.flushed ∧ s'.literal = [] ∧ s'.body = none ∧
      s'.closed = true := by
  obtain ⟨s₁, run, outer, body, flushed⟩ := inner
  have parts : s₁.flushed = children.reverse := by
    rw [flushed]
    exact List.append_nil _
  have closing : s₁.step placement ']' = .ok
      { s₁ with
        position := s₁.position + 1
        outer := s.outer
        nodes := .optional children :: s.flushed
        literal := []
        closed := true } := by
    rw [step_close body, close, outer]
    dsimp only [entered]
    rw [parts, if_neg (by simpa using nonempty), List.reverse_reverse]
  have last : ('[' :: (w ++ [']'])).foldlM (step placement) s = s₁.step placement ']' := by
    rw [List.foldlM_cons, step_bracket ready, ok_bind, List.foldlM_append, run, ok_bind,
      List.foldlM_cons]
    exact bind_pure _
  exact ⟨_, last.trans closing, rfl, rfl, rfl, body, rfl⟩

/-- What is read behind an optional part, where optional parts are for the end only: nothing. -/
theorem ready_behind {n : Node} {ns : List Node} (outside : s.body = none)
    (placed : placement = .trailingOnly → Node.TrailingList (n :: ns))
    (optional : n.isOptional = true) : ns ≠ [] → s.Ready placement :=
  fun more => ⟨outside, fun only => absurd ((placed only).2.1 optional) more⟩

/-- The scanner takes the parts that a text writes, if optional parts stand where they may. -/
theorem run_written {ns : List Node} {t : Text} (written : Node.Written ns t)
    (shaped : Node.ShapedList ns)
    (proper : ∀ p ∈ Node.placeholders.ofNodes ns, isName p.name ∧
      ∀ c ∈ p.constraint, Constraint.Proper c)
    (placed : placement = .trailingOnly → Node.TrailingList ns) (outside : s.body = none)
    (ready : ns ≠ [] → s.Ready placement)
    (apart : s.literal = [] ∨ Node.literalFirst ns = false) :
    ∃ s', t.foldlM (step placement) s = .ok s' ∧ s'.outer = s.outer ∧ s'.body = none ∧
      s'.flushed = ns.reverse ++ s.flushed := by
  induction written generalizing s with
  | nil => exact ⟨s, rfl, rfl, outside, rfl⟩
  | @literal l u ns _ ih =>
    obtain ⟨⟨nonempty, plain⟩, between, shaped⟩ := shaped
    have empty : s.literal = [] := by
      rcases apart with empty | other
      · exact empty
      · cases other
    have other : Node.literalFirst ns = false := by
      cases literal : Node.literalFirst ns with
      | true => exact absurd ⟨rfl, literal⟩ between
      | false => rfl
    obtain ⟨s₁, first, outer₁, nodes, literal, ready₁⟩ :=
      run_literal plain (ready (List.cons_ne_nil _ _))
    obtain ⟨s₂, second, outer₂, body₂, flushed⟩ :=
      ih shaped proper (fun only => (placed only).2.2) ready₁.outside (fun _ => ready₁) (.inr other)
    refine ⟨s₂, ?_, outer₂.trans outer₁, body₂, ?_⟩
    · rw [List.foldlM_append, first]
      exact second
    · rw [flushed]
      rw [empty, List.append_nil] at literal
      simp [Scan.flushed, literal, empty, nodes, nonempty]
  | @placeholder p w u ns body _ ih =>
    obtain ⟨-, -, shaped⟩ := shaped
    obtain ⟨named, constrained⟩ := proper p List.mem_cons_self
    obtain ⟨s₁, first, outer₁, nodes, literal, ready₁⟩ :=
      run_placeholder body named constrained (ready (List.cons_ne_nil _ _))
    obtain ⟨s₂, second, outer₂, body₂, flushed⟩ :=
      ih shaped (fun q mem => proper q (List.mem_cons_of_mem p mem)) (fun only => (placed only).2.2)
        ready₁.outside (fun _ => ready₁) (.inl literal)
    refine ⟨s₂, ?_, outer₂.trans outer₁, body₂, ?_⟩
    · rw [List.append_cons, ← List.cons_append, List.foldlM_append, first]
      exact second
    · rw [flushed]
      simp [Scan.flushed, nodes, literal]
  | @optional children ns w u _ _ ihc ih =>
    obtain ⟨⟨nonempty, shapedChildren⟩, -, shaped⟩ := shaped
    have ready := ready (List.cons_ne_nil _ _)
    obtain ⟨s₁, first, outer₁, nodes, literal, body₁, -⟩ := run_optional nonempty ready
      (ihc (s := s.entered) shapedChildren (fun q mem => proper q (List.mem_append_left _ mem))
        (fun only => (placed only).1) ready.outside (fun _ => ready.entered) (.inl rfl))
    obtain ⟨s₂, second, outer₂, body₂, flushed⟩ :=
      ih shaped (fun q mem => proper q (List.mem_append_right _ mem))
        (fun only => (placed only).2.2) body₁ (ready_behind body₁ placed rfl) (.inl literal)
    refine ⟨s₂, ?_, outer₂.trans outer₁, body₂, ?_⟩
    · rw [List.append_cons, ← List.cons_append, List.foldlM_append, first]
      exact second
    · rw [flushed]
      simp [Scan.flushed, nodes, literal]

end Scan

/-- The scanner reads the tree that a text writes, if optional parts stand where they may. -/
theorem scan_of_written {placement : OptionalPlacement} {p : Pattern} {t : Text}
    (written : Node.Written p.nodes t) (shaped : Node.ShapedList p.nodes)
    (proper : ∀ q ∈ p.placeholders, isName q.name ∧ ∀ c ∈ q.constraint, Constraint.Proper c)
    (placed : placement = .trailingOnly → Node.TrailingList p.nodes) :
    Pattern.scan placement t = .ok p := by
  obtain ⟨s, run, outer, body, flushed⟩ := Scan.run_written (s := {}) written shaped proper placed
    rfl (fun _ => .start) (.inl rfl)
  have finish : s.finish = .ok p.nodes := by
    rw [Scan.finish, body, outer]
    dsimp only
    rw [flushed]
    simp [Scan.flushed]
  rw [Pattern.scan, run, ok_bind, finish]
  rfl

end UrlRouting
