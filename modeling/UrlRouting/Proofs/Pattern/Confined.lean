import UrlRouting.Proofs.Pattern.Matching

/-!
# Constraints that govern their own placeholders

A constraint may set flags. Up to the end of the optional part, or of the pattern, that its
placeholder stands in they are in force for everything behind it. Where nothing stands behind them,
or each constraint takes its flags back, a location that is matched is literal text as it is written
and texts that the constraints accept by themselves (`Pattern.describes_of_extract?_of_restrained`).
Elsewhere the flags of one constraint change what the literal text behind it matches
(`Pattern.extract?_beyond_flags`).
-/

namespace UrlRouting

open Regex

namespace Matcher

/-- The constraints of a placeholder are plain by what they are read as. -/
theorem allPlain_iff {ps : List Placeholder} : AllPlain ps ↔ ∀ q ∈ ps,
    (Regex.parse q.expression).toOption.all (fun parsed => parsed.regex.isPlain) = true := by
  refine forall₂_congr fun q _ => ?_
  cases Regex.parse q.expression with
  | error e => exact ⟨fun _ => rfl, fun _ => nofun⟩
  | ok parsed =>
    refine ⟨fun plain => plain parsed rfl, fun plain other same => ?_⟩
    cases same
    exact plain

instance (ps : List Placeholder) : Decidable (AllPlain ps) := decidable_of_iff _ allPlain_iff.symm

end Matcher

/-- What a list takes that ends in literal text ends in this text. -/
theorem Node.Decomposes.suffix {ns : List Node} {t u : Text} {vs : List (Option Text)}
    (taken : Decomposes ns u vs) (last : ns.getLast? = some (.literal t)) : t <:+ u := by
  have later {n n' : Node} {ns : List Node} (last : (n :: n' :: ns).getLast? = some (.literal t)) :
      (n' :: ns).getLast? = some (.literal t) := by
    rwa [List.getLast?_cons_cons] at last
  induction taken with
  | nil => cases last
  | @literal s _ ns _ rest ih =>
    cases ns with
    | nil =>
      cases last
      cases rest
      simp
    | cons n ns => exact (ih (later last)).trans (List.suffix_append s _)
  | @placeholder q s _ ns _ accepts rest ih =>
    cases ns with
    | nil => cases last
    | cons n ns => exact (ih (later last)).trans (List.suffix_append s _)
  | @absent children ns _ _ rest ih =>
    cases ns with
    | nil => cases last
    | cons n ns => exact ih (later last)
  | @present children ns s _ _ _ inside rest _ ih =>
    cases ns with
    | nil => cases last
    | cons n ns => exact (ih (later last)).trans (List.suffix_append s _)

namespace Pattern

variable {placement : OptionalPlacement} {t : Text} {p : Pattern} {m : Matcher}

/-- A location that is matched as it is written is cut into the literal text of the parts that take
part, and texts that constraints accept by themselves. It is so if the constraints of a pattern are
plain expressions, with or without comments and flags, if what stands behind a constraint is not
under flags that it has set, and if no two groups share a name. -/
theorem describes_of_extract?_of_restrained (h : compile placement t = .ok (p, m))
    (plain : Matcher.AllPlain p.placeholders) (restrained : Node.RestrainedList p.nodes)
    (distinct : m.program.groups.Nodup) {location : Text} {params : Params}
    (matched : m.extract? location = some params) :
    ∃ caps, m.program.match? location.toArray = some caps ∧
      p.Describes location (m.pieces location.toArray caps) ∧
      params = .ofList (bindings p.names (m.pieces location.toArray caps)) := by
  obtain ⟨rs, ms, serves⟩ := exists_serves h plain restrained distinct
  rw [Matcher.extract?_eq, serves.names] at matched
  obtain ⟨caps, found, same⟩ := Option.map_eq_some_iff.mp matched
  exact ⟨caps, found, serves.sound found, same.symm⟩

/-- One constraint takes its flag back, and the other one, with a line comment, is the last part of
an optional part. -/
theorem describes_flagged : ∃ p m,
    compile .anywhere "/\x7ba:(?s).+(?-s)\x7d/a b[/\x7bb:(?x) [a-z] # letters\n +\x7d]".toList =
        .ok (p, m) ∧
      p.Describes "/1\n2/a b/xy/".toList [some "1\n2".toList, some "xy".toList] := by
  obtain ⟨⟨p, m⟩, compiled, holds⟩ := exists_ok_of_any
    (compile .anywhere "/\x7ba:(?s).+(?-s)\x7d/a b[/\x7bb:(?x) [a-z] # letters\n +\x7d]".toList)
    (fun x => Matcher.AllPlain x.1.placeholders ∧ Node.RestrainedList x.1.nodes ∧
      x.2.program.groups.Nodup ∧ (x.2.extract? "/1\n2/a b/xy/".toList).isSome ∧
      ∀ caps ∈ x.2.program.match? "/1\n2/a b/xy/".toList.toArray,
        x.2.pieces "/1\n2/a b/xy/".toList.toArray caps =
          [some "1\n2".toList, some "xy".toList])
    (by decide +kernel)
  obtain ⟨plain, restrained, distinct, matched, pieces⟩ := of_decide_eq_true holds
  obtain ⟨params, matched⟩ := Option.isSome_iff_exists.mp matched
  obtain ⟨caps, found, described, -⟩ :=
    describes_of_extract?_of_restrained compiled plain restrained distinct matched
  rw [pieces caps found] at described
  exact ⟨p, m, compiled, described⟩

/-- The flag that a constraint sets takes the blank out of the literal text behind it, so a location
is matched that the pattern does not describe. -/
theorem extract?_beyond_flags : ∃ p m params,
    compile .anywhere "/\x7ba:(?x)x\x7d/a b".toList = .ok (p, m) ∧
      Matcher.AllPlain p.placeholders ∧ m.program.groups.Nodup ∧
      m.extract? "/x/ab".toList = some params ∧ ¬ ∃ vs, p.Describes "/x/ab".toList vs := by
  obtain ⟨⟨p, m⟩, compiled, holds⟩ := exists_ok_of_any
    (compile .anywhere "/\x7ba:(?x)x\x7d/a b".toList)
    (fun x => Matcher.AllPlain x.1.placeholders ∧ x.2.program.groups.Nodup ∧
      (x.2.extract? "/x/ab".toList).isSome ∧
      ∃ n ∈ x.1.nodes.getLast?, n.same (.literal "/a b".toList) = true)
    (by decide +kernel)
  obtain ⟨plain, distinct, matched, n, last, same⟩ := of_decide_eq_true holds
  obtain ⟨params, matched⟩ := Option.isSome_iff_exists.mp matched
  refine ⟨p, m, params, compiled, plain, distinct, matched, ?_⟩
  obtain ⟨s, rfl⟩ : ∃ s, n = .literal s := by
    cases n with
    | literal s => exact ⟨s, rfl⟩
    | placeholder q => cases same
    | optional children => cases same
  obtain rfl : s = "/a b".toList := eq_of_beq same
  rintro ⟨vs, taken | ⟨u, shape, taken⟩⟩
  · exact absurd (taken.suffix last) (by decide)
  · have slash := congrArg List.getLast? shape
    rw [List.getLast?_append] at slash
    cases slash

end Pattern

end UrlRouting
