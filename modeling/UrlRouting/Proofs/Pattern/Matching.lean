import UrlRouting.Proofs.Matcher.Matching
import UrlRouting.Proofs.Pattern.Guard

/-!
# The URLs that a pattern matches

A pattern is plain if its constraints are built from characters, classes, repetitions, alternatives
and groups alone. The matcher of such a pattern accepts a URL exactly if the pattern describes the
location, as it stands or with its escapes read.
-/

namespace UrlRouting

open Regex

/-- A constraint is built from characters, classes, repetitions, alternatives and groups. It has no
comments and sets no flags. -/
structure Constraint.Plain (c : Text) : Prop where
  quiet : Quiet .tame c
  regular : ∀ parsed, Regex.parse c = .ok parsed → parsed.regex.isPlain = true

instance (c : Text) : Decidable (Constraint.Plain c) :=
  decidable_of_iff ((∀ w ∈ openings c, isTame w = true) ∧
      ((Regex.parse c).toOption.all fun parsed => parsed.regex.isPlain) = true)
    ⟨fun ⟨tame, plain⟩ => ⟨⟨rfl, tame⟩, fun parsed alone => by rwa [alone] at plain⟩,
      fun ⟨quiet, plain⟩ => ⟨quiet.2, by
        cases alone : Regex.parse c with
        | error e => rfl
        | ok parsed => exact plain parsed alone⟩⟩

/-- The constraints of all placeholders are plain. -/
def Pattern.Plain (p : Pattern) : Prop :=
  ∀ q ∈ p.placeholders, ∀ c ∈ q.constraint, Constraint.Plain c

instance (p : Pattern) : Decidable p.Plain :=
  inferInstanceAs (Decidable (∀ q ∈ p.placeholders, ∀ c ∈ q.constraint, Constraint.Plain c))

theorem Pattern.plain_of_free {p : Pattern} (free : ∀ q ∈ p.placeholders, q.constraint = none) :
    p.Plain := by
  intro q mem c some
  rw [free q mem] at some
  cases some

/-- The part of a URL that is matched: what stands before the query, without the origin. -/
def Url.location (url : Text) : Text := Url.withoutOrigin (Text.splitFirst '?' url).1

namespace Matcher

theorem placeholderGroups_sublist {index : Nat} {ps : List Placeholder}
    (uncaptured : ∀ p ∈ ps, ∀ c ∈ p.constraint, Constraint.firstCapturing? c = none) :
    (placeholderGroups index ps).Sublist (guardedGroups index ps) := by
  induction ps generalizing index with
  | nil => exact .slnil
  | cons p ps ih =>
    have here : (captured p.expression).Sublist (p.groupNames.map .named) := by
      unfold Placeholder.expression Placeholder.groupNames
      cases given : p.constraint with
      | none =>
        have none : Constraint.kinds defaultConstraint = [] := by decide
        rw [Option.getD_none, captured, none]
        exact List.nil_sublist _
      | some c =>
        rw [Option.getD_some, captured_eq fun kind mem =>
          Constraint.not_capturing_of_mem_kinds (uncaptured p List.mem_cons_self c given) mem]
        exact (Constraint.readNames_sublist c).map _
    exact (here.append (ih fun q mem => uncaptured q (List.mem_cons_of_mem p mem))).cons_cons _

theorem names_of_ofPattern {p : Pattern} {m : Matcher} (h : ofPattern p = .ok m) :
    m.names = p.names := by
  obtain ⟨u, -, h⟩ := bind_eq_ok.mp h
  obtain ⟨program, -, h⟩ := bind_eq_ok.mp h
  cases h
  rfl

end Matcher

/-- Where no comment can begin no two groups share a name. -/
theorem Pattern.WellFormed.nodup_groups {p : Pattern} {m : Matcher} {mode : Mode}
    (wellFormed : p.WellFormed) (h : Matcher.ofPattern p = .ok m) (calm : mode ≠ .any)
    (quiet : p.Quiet mode) : m.program.groups.Nodup := by
  rw [Matcher.groups_of_ofPattern calm h fun q mem => wellFormed.admitted h quiet mem]
  have distinct : p.guardedGroups.Nodup :=
    Matcher.nodup_guardedGroups wellFormed.unreserved wellFormed.unrepeated
  refine distinct.sublist (Matcher.placeholderGroups_sublist fun q mem c given => ?_)
  exact (wellFormed.constrained q mem c given).uncaptured

/-- A URL is matched if and only if the pattern describes its location, as it stands or with its
escapes read. -/
theorem Matcher.Serves.match?_isSome {m : Matcher} {p : Pattern} {rs : List Regex} {ms : List Nat}
    (serves : m.Serves p rs ms) (url : Text) :
    (m.match? url).isSome = true ↔ (∃ vs, p.Describes (Url.location url) vs) ∨
      ∃ vs, p.Describes (Percent.decode (Url.location url)) vs := by
  have location : m.match? url = ((m.extract? (Url.location url)).or
      (m.extract? (Percent.decode (Url.location url)))).map fun params =>
        ⟨params, .ofQuery ((Text.splitFirst '?' url).2.getD [])⟩ := rfl
  rw [location, Option.isSome_map, Option.isSome_or, Bool.or_eq_true_iff,
    serves.extract?_isSome, serves.extract?_isSome]

namespace Pattern

variable {placement : OptionalPlacement} {t : Text} {p : Pattern} {m : Matcher}

/-- A matcher is read from the parts of its pattern if constraints are plain expressions, leave no
flags in force for other parts, and bring no groups with the names of others. -/
theorem exists_serves (h : compile placement t = .ok (p, m))
    (plain : Matcher.AllPlain p.placeholders)
    (restrained : Node.RestrainedList p.nodes) (distinct : m.program.groups.Nodup) :
    ∃ rs ms, m.Serves p rs ms := by
  obtain ⟨-, matcher⟩ := compile_eq_ok.mp h
  obtain ⟨rs, ms, compiled, regex⟩ := Matcher.exists_compiled_of_ofPattern matcher
    (fun q mem => Matcher.enclosable_of_mem matcher mem) restrained
  exact ⟨rs, ms, compiled, regex, plain, distinct, Matcher.names_of_ofPattern matcher⟩

/-- The matcher of a plain pattern is read from its parts. -/
theorem Plain.serves (plain : p.Plain) (h : compile placement t = .ok (p, m)) :
    ∃ rs ms, m.Serves p rs ms := by
  obtain ⟨parsed, matcher⟩ := compile_eq_ok.mp h
  have wellFormed := (wellFormed_of_parse parsed).1
  have quiet : p.Quiet .tame := fun q mem c given => (plain q mem c given).quiet
  have admitted : ∀ q ∈ p.placeholders, Admitted .tame q.expression := fun q mem =>
    wellFormed.admitted matcher quiet mem
  refine exists_serves h ?_ ?_ ?_
  · intro q mem parsed alone
    unfold Placeholder.expression at alone
    cases given : q.constraint with
    | none =>
      obtain ⟨parsed', alone', regex⟩ := Matcher.parse_defaultConstraint
      rw [given, Option.getD_none, alone'] at alone
      cases alone
      rw [regex]
      rfl
    | some c =>
      rw [given, Option.getD_some] at alone
      exact (plain q mem c given).regular parsed alone
  · refine Node.restrainedList_of_flagsBehind p.nodes fun q mem => ?_
    obtain ⟨parsed, alone⟩ := (admitted q mem).parses
    exact Matcher.flagsBehind_of_tame alone (admitted q mem).quiet
  · exact wellFormed.nodup_groups matcher (by decide) quiet

/-- The matcher of a plain pattern accepts a URL if and only if the pattern describes its location,
as it stands or with its escapes read. What the groups of the placeholders capture are the pieces of
one way to cut the form that was matched, and their names with these pieces, decoded, are what the
match says. -/
theorem match?_of_compile (h : compile placement t = .ok (p, m)) (plain : p.Plain) (url : Text) :
    ((m.match? url).isSome = true ↔ (∃ vs, p.Describes (Url.location url) vs) ∨
      ∃ vs, p.Describes (Percent.decode (Url.location url)) vs) ∧
    ∀ found ∈ m.match? url, ∃ form caps,
      (form = Url.location url ∨ (¬ ∃ vs, p.Describes (Url.location url) vs) ∧
        form = Percent.decode (Url.location url)) ∧
      m.program.match? form.toArray = some caps ∧
      p.Describes form (m.pieces form.toArray caps) ∧
      found.params = .ofList (bindings p.names (m.pieces form.toArray caps)) := by
  obtain ⟨rs, ms, serves⟩ := plain.serves h
  have location : m.match? url = ((m.extract? (Url.location url)).or
      (m.extract? (Percent.decode (Url.location url)))).map fun params =>
        ⟨params, .ofQuery ((Text.splitFirst '?' url).2.getD [])⟩ := rfl
  constructor
  · exact serves.match?_isSome url
  · intro found mem
    rw [location] at mem
    obtain ⟨params, extracted, rfl⟩ := Option.map_eq_some_iff.mp mem
    have extract (form : Text) (h : m.extract? form = some params) : ∃ caps,
        m.program.match? form.toArray = some caps ∧
        p.Describes form (m.pieces form.toArray caps) ∧
        params = .ofList (bindings p.names (m.pieces form.toArray caps)) := by
      rw [Matcher.extract?_eq, serves.names] at h
      obtain ⟨caps, found, same⟩ := Option.map_eq_some_iff.mp h
      exact ⟨caps, found, serves.sound found, same.symm⟩
    rcases Option.or_eq_some_iff.mp extracted with here | ⟨elsewhere, here⟩
    · obtain ⟨caps, known⟩ := extract _ here
      exact ⟨_, caps, .inl rfl, known⟩
    · obtain ⟨caps, known⟩ := extract _ here
      refine ⟨_, caps, .inr ⟨fun described => ?_, rfl⟩, known⟩
      have matched := serves.extract?_isSome.mpr described
      rw [elsewhere] at matched
      cases matched

/-- A pattern with a constraint describes a location with digits, and none with a letter. -/
theorem describes_digits : ∃ p m,
    compile .anywhere "/{a:(?<d>[0-9]+)}[/{b}]".toList = .ok (p, m) ∧ p.Plain ∧
      (¬ ∃ vs, p.Describes (Url.location "/x?q=1".toList) vs) ∧
      ((∃ vs, p.Describes (Url.location "/7%2fy/?q=1".toList) vs) ∨
        ∃ vs, p.Describes (Percent.decode (Url.location "/7%2fy/?q=1".toList)) vs) := by
  obtain ⟨⟨p, m⟩, compiled, holds⟩ := exists_ok_of_any
    (compile .anywhere "/{a:(?<d>[0-9]+)}[/{b}]".toList)
    (fun x => x.1.Plain && (x.2.match? "/x?q=1".toList).isNone &&
      (x.2.match? "/7%2fy/?q=1".toList).isSome)
    (by decide +kernel)
  obtain ⟨holds, digits⟩ := Bool.and_eq_true_iff.mp holds
  obtain ⟨plain, letters⟩ := Bool.and_eq_true_iff.mp holds
  have plain : p.Plain := of_decide_eq_true plain
  refine ⟨p, m, compiled, plain, fun described => ?_, ?_⟩
  · have found := (match?_of_compile compiled plain "/x?q=1".toList).1.mpr (.inl described)
    rw [Option.isNone_iff_eq_none.mp letters] at found
    cases found
  · exact (match?_of_compile compiled plain "/7%2fy/?q=1".toList).1.mp digits

end Pattern

end UrlRouting
