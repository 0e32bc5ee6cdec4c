import UrlRouting.Proofs.Matcher.Constraint
import UrlRouting.Proofs.Pattern.Openers

/-!
# What the scanner reports of what is read

A constraint without number signs has no comments. The scanner reports every group that the reader
opens in it, at its byte offset (`openers_of_parse`). Three things the scanner does not know:

* In extended mode blanks behind a parenthesis are ignored. The scanner takes such a group for one
  that captures.
* Brackets inside a class are counted. The scanner may take a parenthesis in a class for a group.
* The condition of a conditional stands in parentheses. In `(?(a)b|c)` the scanner takes the second
  parenthesis for a group that captures.

The reader refuses conditionals, and references by number, so nothing is said here of constraints
with one of them.
-/

namespace UrlRouting.Constraint

open Regex (Lex Parsed openings opensGroup isVeiled)

variable {t : Text} {parsed : Parsed}

/-- A group that the reader has opened in a text, with its byte offset. -/
def opener (t : Text) (e : GroupKind × Text) : Nat × GroupKind :=
  (Text.byteLength t - Text.byteLength e.2, e.1)

/-- The same group as the scanner reports it: if something that may be ignored stands behind its
parenthesis, then as one that captures. -/
def reported (t : Text) (e : GroupKind × Text) : Nat × GroupKind :=
  if isVeiled e.2.tail then opener t (.capturing, e.2) else opener t e

theorem reported_eq {e : GroupKind × Text} (understood : Regex.Understood e) :
    reported t e = (Text.byteLength t - Text.byteLength e.2, classify e.2.tail) := by
  rw [reported]
  split
  next veiled => rw [opener, Regex.classify_of_isVeiled veiled]
  next plain =>
    rcases understood with ⟨same, -⟩ | veiled
    · rw [opener, same]
    · exact absurd veiled plain

/-- Without number signs the reader opens a group at every parenthesis outside of escapes and
classes. -/
theorem opened_of_parse (free : '#' ∉ t) (read : Regex.parse t = .ok parsed) :
    openings t = parsed.opened.map Prod.snd ∧ ∀ e ∈ parsed.opened, Regex.Understood e := by
  obtain ⟨last, read, rest, opened⟩ := Matcher.parse_eq_ok.mp read
  have calm : Regex.Calm .hashFree ⟨t, {}, []⟩ := Regex.HashFree.of_notMem free .outside
  obtain ⟨new, opened', taken, understood, -⟩ :=
    ((Regex.reads_readExpression .hashFree Regex.maxNesting).advances calm read).groups
  have same : parsed.opened = new := by
    rw [opened, opened', List.append_nil, List.reverse_reverse]
  obtain ⟨-, -, -, groups⟩ := taken.exists_closed (.inl rfl)
  rw [rest, Regex.openings_nil, List.append_nil] at groups
  rw [same]
  exact ⟨groups, understood⟩

theorem reported_of_parse (free : '#' ∉ t) (read : Regex.parse t = .ok parsed) :
    parsed.opened.map (reported t) =
      openersAt (Text.byteLength t) (Lex.outside.starts t) := by
  obtain ⟨groups, understood⟩ := opened_of_parse free read
  calc parsed.opened.map (reported t)
      = parsed.opened.map fun e =>
          (Text.byteLength t - Text.byteLength e.2, classify e.2.tail) :=
        List.map_congr_left fun e mem => reported_eq (understood e mem)
    _ = (openings t).map fun w => (Text.byteLength t - Text.byteLength w, classify w.tail) := by
        rw [groups, List.map_map]
        rfl

theorem suffix_of_parse (free : '#' ∉ t) (read : Regex.parse t = .ok parsed) :
    ∀ e ∈ parsed.opened, e.2 <:+ t := by
  intro e mem
  have start : e.2 ∈ openings t := by
    rw [(opened_of_parse free read).1]
    exact List.mem_map_of_mem mem
  exact Lex.suffix_of_mem_starts (List.mem_filter.mp start).1

/-- In a constraint without number signs the scanner reports all groups that the reader opens, in
order and with their offsets and kinds; only a group with a blank behind its parenthesis is reported
as one that captures. It reports nothing else if no bracket is opened inside a class. Not every such
bracket does harm: of `[a[b]]` and `[[:alpha:]]` the scanner reports nothing either. Texts with
conditionals or references by number are not read. -/
theorem openers_of_parse (free : '#' ∉ t) (read : Regex.parse t = .ok parsed) :
    (∀ e ∈ parsed.opened, e.2 <:+ t) ∧
      (parsed.opened.map (reported t)).Sublist (openers t) ∧
      (Lex.outside.Shallow t → openers t = parsed.opened.map (reported t)) ∧
      (Lex.outside.Shallow t → (∀ e ∈ parsed.opened, isVeiled e.2.tail = false) →
        openers t = parsed.opened.map (opener t) ∧
        ((firstCapturing? t).isSome ↔ ∃ e ∈ parsed.opened, e.1 = .capturing)) := by
  have all := reported_of_parse free read
  have exact' (shallow : Lex.outside.Shallow t) : openers t = parsed.opened.map (reported t) := by
    rw [all, openersAt_starts_eq shallow]
  refine ⟨suffix_of_parse free read, ?_, exact', ?_⟩
  · rw [all]
    exact openersAt_starts_sublist t
  · intro shallow plain
    have same : openers t = parsed.opened.map (opener t) := by
      rw [exact' shallow]
      apply List.map_congr_left
      intro e mem
      rw [reported, plain e mem, if_neg Bool.false_ne_true]
    refine ⟨same, ?_⟩
    rw [firstCapturing?, Option.isSome_map, List.find?_isSome, same]
    constructor
    · intro found
      obtain ⟨x, known, captures⟩ := found
      obtain ⟨e, mem, rfl⟩ := List.mem_map.mp known
      exact ⟨e, mem, of_decide_eq_true captures⟩
    · intro found
      obtain ⟨e, mem, captures⟩ := found
      exact ⟨opener t e, List.mem_map_of_mem mem, decide_eq_true captures⟩

/-- The scanner passes over a parenthesis in a class and reports the groups behind it. -/
theorem openers_beside_class : ∃ parsed,
    Regex.parse "[^](](?<y>[0-9]+|(?:a))(b)".toList = .ok parsed ∧
      openers "[^](](?<y>[0-9]+|(?:a))(b)".toList = parsed.opened.map
        (opener "[^](](?<y>[0-9]+|(?:a))(b)".toList) ∧
      openers "[^](](?<y>[0-9]+|(?:a))(b)".toList =
        [(5, .named "y".toList), (17, .nonCapturing), (23, .capturing)] := by
  obtain ⟨parsed, read, plain⟩ := exists_ok_of_any
    (Regex.parse "[^](](?<y>[0-9]+|(?:a))(b)".toList)
    (fun parsed => parsed.opened.all fun e => !isVeiled e.2.tail) (by decide +kernel)
  have shallow : Lex.outside.Shallow "[^](](?<y>[0-9]+|(?:a))(b)".toList := by decide
  have unveiled : ∀ e ∈ parsed.opened, isVeiled e.2.tail = false := by
    intro e mem
    simpa using List.all_eq_true.mp plain e mem
  have exact' := ((openers_of_parse (by decide) read).2.2.2 shallow unveiled).1
  exact ⟨parsed, read, exact', by decide⟩

/-- A bracket inside a class ends the class too early for the scanner, and it knows no extended
mode: it reports a parenthesis that opens nothing, and takes a group for one that captures. -/
theorem openers_inside_class :
    (∃ parsed, Regex.parse "[[a](]".toList = .ok parsed ∧ parsed.opened = [] ∧
      openers "[[a](]".toList = [(4, .capturing)]) ∧
    ∃ parsed, Regex.parse "(?x)( ?:a)".toList = .ok parsed ∧
      parsed.opened.map (opener "(?x)( ?:a)".toList) = [(0, .nonCapturing), (4, .nonCapturing)] ∧
      openers "(?x)( ?:a)".toList = [(0, .nonCapturing), (4, .capturing)] := by
  constructor
  · obtain ⟨parsed, read, opened⟩ := exists_ok_of_any (Regex.parse "[[a](]".toList)
      (fun parsed => parsed.opened = []) (by decide +kernel)
    exact ⟨parsed, read, of_decide_eq_true opened, by decide⟩
  · obtain ⟨parsed, read, opened⟩ := exists_ok_of_any (Regex.parse "(?x)( ?:a)".toList)
      (fun parsed => parsed.opened.map (opener "(?x)( ?:a)".toList) =
        [(0, .nonCapturing), (4, .nonCapturing)]) (by decide +kernel)
    exact ⟨parsed, read, of_decide_eq_true opened, by decide⟩

end UrlRouting.Constraint
