import UrlRouting.Proofs.Matcher.Outlining
import UrlRouting.Proofs.Pattern.Matching
import UrlRouting.Proofs.Url.Leaves

/-!
# Which placeholders take part in a match

`Node.Presence` says which placeholders may take part in a match together: all that stand in no
optional part, and of each optional part all that stand directly in it, or none at any depth. So a
placeholder that takes part brings those with it that stand directly in one of the optional parts
around it (`Node.Presence.closed`).

A match of pieces with the outline of a list of parts records groups in just this way
(`Outline.presence`). What an optional part has recorded before it was given up is not among the
captures, and groups of different placeholders have different numbers and names. So the keys of the
values that are extracted from a URL are such placeholders (`Pattern.keys_of_match?`), whatever the
constraints match and whichever flags they set, if no comment can begin in them.
-/

namespace UrlRouting

open Regex

/-! ## Presence -/

/-- The names of the placeholders that take part: those directly in a list of parts, and those that
take part in an optional part which is not left out. -/
inductive Node.Presence : List Node → List Text → Prop
  | nil : Presence [] []
  | literal {t : Text} {ns : List Node} {names : List Text} :
    Presence ns names → Presence (.literal t :: ns) names
  | placeholder {q : Placeholder} {ns : List Node} {names : List Text} :
    Presence ns names → Presence (.placeholder q :: ns) (q.name :: names)
  | absent {children ns : List Node} {names : List Text} :
    Presence ns names → Presence (.optional children :: ns) names
  | present {children ns : List Node} {inside names : List Text} :
    Presence children inside → Presence ns names →
    Presence (.optional children :: ns) (inside ++ names)

namespace Node

theorem name_mem_of_leaf {q : Placeholder} {outer around : List (List Node)} (ns : List Node)
    (leaf : .placeholder around q ∈ leavesOfNodes outer ns) : q.name ∈ names ns := by
  match ns with
  | [] => cases leaf
  | n :: ns =>
    rw [names_cons, List.mem_append]
    rcases List.mem_append.mp leaf with here | later
    · left
      match n with
      | .literal t => cases List.mem_singleton.mp here
      | .placeholder q' =>
        cases List.mem_singleton.mp here
        exact List.mem_singleton_self _
      | .optional children => exact name_mem_of_leaf children here
    · exact .inr (name_mem_of_leaf ns later)

namespace Presence

variable {ns : List Node} {names : List Text} {q : Placeholder}

theorem sublist (presence : Presence ns names) : names.Sublist (Node.names ns) := by
  induction presence with
  | nil => exact .slnil
  | literal _ ih => exact ih
  | placeholder _ ih => exact ih.cons_cons _
  | absent _ ih =>
    rw [names_cons]
    exact ih.trans (List.sublist_append_right _ _)
  | present _ _ inside ih =>
    rw [names_cons]
    exact inside.append ih

/-- The placeholders directly in a list of parts take part. -/
theorem mem_of_direct (presence : Presence ns names) (mem : .placeholder q ∈ ns) :
    q.name ∈ names := by
  induction presence with
  | nil => cases mem
  | literal _ ih =>
    rcases List.mem_cons.mp mem with same | later
    · cases same
    · exact ih later
  | placeholder _ ih =>
    rcases List.mem_cons.mp mem with same | later
    · cases same
      exact List.mem_cons_self
    · exact List.mem_cons_of_mem _ (ih later)
  | absent _ ih =>
    rcases List.mem_cons.mp mem with same | later
    · cases same
    · exact ih later
  | present _ _ _ ih =>
    rcases List.mem_cons.mp mem with same | later
    · cases same
    · exact List.mem_append_right _ (ih later)

/-- With a placeholder that takes part there take part all that stand directly in one of the
optional parts around it. -/
theorem closed (presence : Presence ns names) (distinct : (Node.names ns).Nodup)
    {outer around : List (List Node)} (leaf : .placeholder around q ∈ leavesOfNodes outer ns)
    (mem : q.name ∈ names) :
    ∀ b ∈ around, b ∈ outer ∨ ∀ q', .placeholder q' ∈ b → q'.name ∈ names := by
  induction presence generalizing outer with
  | nil => cases leaf
  | literal _ ih =>
    rcases List.mem_append.mp leaf with here | later
    · cases List.mem_singleton.mp here
    · exact ih distinct later mem
  | @placeholder q₀ ns names _ ih =>
    obtain ⟨fresh, distinct⟩ := List.nodup_cons.mp distinct
    rcases List.mem_append.mp leaf with here | later
    · cases List.mem_singleton.mp here
      exact fun b mem => .inl mem
    · have known := name_mem_of_leaf ns later
      have other : q.name ≠ q₀.name := by
        intro same
        rw [same] at known
        exact fresh known
      have mem := (List.mem_cons.mp mem).resolve_left other
      intro b around
      exact (ih distinct later mem b around).imp_right fun all q' direct =>
        List.mem_cons_of_mem _ (all q' direct)
  | @absent children ns names presence ih =>
    rw [names_cons] at distinct
    obtain ⟨-, distinct, apart⟩ := List.nodup_append.mp distinct
    rcases List.mem_append.mp leaf with here | later
    · have inside := name_mem_of_leaf children here
      exact absurd rfl (apart q.name inside q.name (presence.sublist.subset mem))
    · exact ih distinct later mem
  | @present children ns inside names within presence ihc ih =>
    rw [names_cons] at distinct
    obtain ⟨distinct', distinct, apart⟩ := List.nodup_append.mp distinct
    intro b surrounds
    rcases List.mem_append.mp leaf with here | later
    · have known := name_mem_of_leaf children here
      have mem : q.name ∈ inside := by
        refine (List.mem_append.mp mem).resolve_right fun elsewhere => ?_
        exact apart q.name known q.name (presence.sublist.subset elsewhere) rfl
      rcases ihc distinct' here mem b surrounds with outside | all
      · rcases List.mem_cons.mp outside with rfl | outside
        · exact .inr fun q' direct => List.mem_append_left _ (within.mem_of_direct direct)
        · exact .inl outside
      · exact .inr fun q' direct => List.mem_append_left _ (all q' direct)
    · have known := name_mem_of_leaf ns later
      have mem : q.name ∈ names := by
        refine (List.mem_append.mp mem).resolve_left fun elsewhere => ?_
        exact apart q.name (within.sublist.subset elsewhere) q.name known rfl
      exact (ih distinct later mem b surrounds).imp_right fun all q' direct =>
        List.mem_append_right _ (all q' direct)

end Presence

end Node

/-! ## What is recorded -/

theorem Records.length_eq {input : Array Char} {low high : Nat} {ms : List Nat}
    {vs : List (Option Text)} {c d : Captures} (records : Records input low high ms vs c d) :
    vs.length = ms.length := by
  obtain ⟨new, -, -, rfl⟩ := records
  exact List.length_map _

theorem keys_bindings_append {names names' : List Text} {vs vs' : List (Option Text)}
    (length : names.length = vs.length) : (bindings (names ++ names') (vs ++ vs')).keys =
      (bindings names vs).keys ++ (bindings names' vs').keys := by
  rw [bindings_append length]
  exact List.map_append

namespace Matcher

/-- A match of pieces with the outline of a list of parts records which placeholders take part. -/
theorem Outline.presence {i : Nat} {g g' : List GroupKind} {ns : List Node} {rs : List Regex}
    {ms : List Nat} (outline : Outline i g ns rs ms g') (input : Array Char) {c d : Captures}
    (recordings : Recordings rs c d) : ∃ vs, Records input g.length g'.length ms vs c d ∧
      Node.Presence ns (bindings (Node.names ns) vs).keys := by
  induction outline generalizing c d with
  | nil =>
    obtain rfl : d = c := recordings
    exact ⟨[], .nothing input _ _ [] d, .nil⟩
  | plain none _ ih =>
    obtain ⟨e, here, more⟩ := recordings
    obtain rfl := here.eq_of_numbers none
    exact ih more
  | literal _ ih =>
    obtain ⟨vs, records, presence⟩ := ih recordings
    exact ⟨vs, records, .literal presence⟩
  | @placeholder i g added g' q r ns rs ms numbered outline ih =>
    obtain ⟨_, ⟨_, first, last, inside, rfl⟩, more⟩ := recordings
    obtain ⟨new, rfl, known⟩ := inside.captures
    obtain ⟨vs, records, presence⟩ := ih more
    obtain ⟨grown, above, -⟩ := outline.bounds
    have opened : g.length < (added ++ .named (groupName i) :: g).length := by
      rw [List.length_append, List.length_cons]
      omega
    have own : Records input g.length _ [g.length + 1] [some (textBetween input first last)] c _ :=
      .group known numbered opened first last
    refine ⟨_, own.append records (fun n mem => ?_) above opened.le grown, .placeholder presence⟩
    obtain rfl := List.mem_singleton.mp mem
    omega
  | @optional i g g₁ g' children ns cs rs ks ms greedy outline outline' ihc ih =>
    obtain ⟨e, ⟨n, -, few, times⟩, more⟩ := recordings
    obtain ⟨grown, below, count⟩ := outline.bounds
    obtain ⟨grown', above, -⟩ := outline'.bounds
    obtain ⟨vs, records, presence⟩ := ih more
    have names : Node.names (.optional children :: ns) = Node.names children ++ Node.names ns :=
      Node.names_cons _ ns
    have length : (Node.names children).length = ks.length := by
      rw [count, Node.names, List.length_map]
    have few : n ≤ 1 := few 1 rfl
    rcases Nat.le_one_iff_eq_zero_or_eq_one.mp few with rfl | rfl
    · obtain rfl : e = c := times
      have none := Records.nothing input g.length g₁.length ks e
      refine ⟨_, none.append records below above grown grown', ?_⟩
      rw [names, keys_bindings_append (length.trans none.length_eq.symm),
        bindings_replicate]
      exact .absent presence
    · obtain ⟨f, inside, rfl⟩ := times
      obtain ⟨ws, first, within⟩ := ihc (recordings_of_sequence inside)
      refine ⟨_, first.append records below above grown grown', ?_⟩
      rw [names, keys_bindings_append (length.trans first.length_eq.symm)]
      exact .present within presence

/-- The ends of a text and the slash at its end record nothing. -/
theorem recordings_of_anchored {rs : List Regex} {c d : Captures}
    (recording : Recording (anchored rs) c d) : Recordings rs c d := by
  obtain ⟨e, begins, f, parts, k, slash, l, ends, same⟩ := recordings_of_sequence recording
  obtain rfl := begins.eq_of_numbers rfl
  obtain rfl := slash.eq_of_numbers rfl
  obtain rfl := ends.eq_of_numbers rfl
  obtain rfl : d = l := same
  exact recordings_of_sequence parts

end Matcher

namespace Pattern

variable {placement : OptionalPlacement} {t : Text} {p : Pattern} {m : Matcher}

/-- The keys of what is extracted from a location are placeholders that may take part together. -/
theorem presence_of_extract? (h : compile placement t = .ok (p, m)) (quiet : p.Quiet .hashFree)
    {location : Text} {params : Params} (matched : m.extract? location = some params) :
    Node.Presence p.nodes params.keys := by
  obtain ⟨parsed, matcher⟩ := compile_eq_ok.mp h
  have wellFormed := (wellFormed_of_parse parsed).1
  have names := Matcher.names_of_ofPattern matcher
  obtain ⟨rs, ms, outline, regex⟩ := Matcher.exists_outline_of_ofPattern matcher fun q mem =>
    wellFormed.admitted matcher quiet mem
  rw [Matcher.extract?_eq, names] at matched
  obtain ⟨caps, found, rfl⟩ := Option.map_eq_some_iff.mp matched
  have recording := recording_of_match? found
  rw [regex] at recording
  obtain ⟨vs, ⟨new, whole, -, texts⟩, presence⟩ :=
    outline.presence location.toArray (Matcher.recordings_of_anchored recording)
  rw [List.append_nil] at whole
  subst whole
  have distinct := wellFormed.nodup_groups matcher (by decide) quiet
  have pieces := outline.pieces_eq distinct names location.toArray caps
  rw [← texts] at pieces
  have keys := (keys_bindings_sublist p.names vs).nodup wellFormed.distinct
  have list : (Keyed.ofList (bindings p.names vs)).toList = bindings p.names vs :=
    Keyed.toList_ofList keys
  have same : (Keyed.ofList (bindings p.names vs)).keys = (bindings p.names vs).keys :=
    congrArg Entries.keys list
  rw [pieces, same]
  exact presence

/-- The values that a match of a URL gives respect the optional parts. Their keys are different
placeholders, in the order of the pattern. Each placeholder in no optional part is among them. With
a placeholder inside an optional part, at any depth, there are all that stand directly in that part.
-/
theorem keys_of_match? (h : compile placement t = .ok (p, m))
    (free : ∀ q ∈ p.placeholders, ∀ c ∈ q.constraint, '#' ∉ c) {url : Text} {found : RouteMatch}
    (matched : m.match? url = some found) :
    found.params.keys.Nodup ∧ found.params.keys.Sublist p.names ∧
      (∀ q, .placeholder q ∈ p.nodes → q.name ∈ found.params.keys) ∧
      ∀ around q, .placeholder around q ∈ p.leaves → q.name ∈ found.params.keys →
        ∀ ns ∈ around, ∀ q', .placeholder q' ∈ ns → q'.name ∈ found.params.keys := by
  have quiet : p.Quiet .hashFree := fun q mem c given =>
    HashFree.of_notMem (free q mem c given) .outside
  have distinct : p.names.Nodup := (wellFormed_of_parse (compile_eq_ok.mp h).1).1.distinct
  obtain ⟨params, extracted, rfl⟩ := Option.map_eq_some_iff.mp matched
  have presence : Node.Presence p.nodes params.keys := by
    rcases Option.or_eq_some_iff.mp extracted with written | ⟨-, decoded⟩
    · exact presence_of_extract? h quiet written
    · exact presence_of_extract? h quiet decoded
  refine ⟨params.nodup, presence.sublist, fun q mem => presence.mem_of_direct mem, ?_⟩
  intro around q leaf mem ns surrounds
  exact (presence.closed distinct leaf mem ns surrounds).resolve_left List.not_mem_nil

/-- One constraint looks ahead and leaves extended mode in force, another one leaves loops lazy. The
optional part behind it is tried, with both of its placeholders, and given up. -/
theorem keys_of_nested : ∃ p m found,
    compile .anywhere
      "/\x7ba:(?x)[0-9]+(?=/) \x7d[/x y\x7bb:(?U)[a-z/-]+\x7d[-\x7bc\x7d[/\x7bd\x7d]!]]/z".toList =
        .ok (p, m) ∧
      m.match? "/1/xyq-r/s/z".toList = some found ∧
      found.params.keys = ["a".toList, "b".toList] ∧
      ∀ around q, .placeholder around q ∈ p.leaves → q.name ∈ found.params.keys →
        ∀ ns ∈ around, ∀ q', .placeholder q' ∈ ns → q'.name ∈ found.params.keys := by
  obtain ⟨⟨p, m⟩, compiled, holds⟩ := exists_ok_of_any
    (compile .anywhere
      "/\x7ba:(?x)[0-9]+(?=/) \x7d[/x y\x7bb:(?U)[a-z/-]+\x7d[-\x7bc\x7d[/\x7bd\x7d]!]]/z".toList)
    (fun x => decide (∀ q ∈ x.1.placeholders, ∀ c ∈ q.constraint, '#' ∉ c) &&
      (x.2.match? "/1/xyq-r/s/z".toList).any fun found =>
        found.params.keys = ["a".toList, "b".toList])
    (by decide +kernel)
  obtain ⟨free, matched⟩ := Bool.and_eq_true_iff.mp holds
  obtain ⟨found, matched, keys⟩ := (Option.any_eq_true _ _).mp matched
  obtain ⟨-, -, -, closed⟩ := keys_of_match? compiled (of_decide_eq_true free) matched
  exact ⟨p, m, found, compiled, matched, of_decide_eq_true keys, closed⟩

end Pattern

end UrlRouting
