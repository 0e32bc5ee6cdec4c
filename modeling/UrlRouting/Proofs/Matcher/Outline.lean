import UrlRouting.Proofs.Matcher.GroupName
import UrlRouting.Proofs.Regex.Numbering

/-!
# The outline of the matcher's expression

`Outline` says where the groups of placeholders stand in what the parts of a pattern are read as:
one after the other, those of an optional part inside a loop that is passed once at most. Between
them there are pieces without groups. It does not say what the constraints are read as, except which
numbers their groups have.

Groups are counted upwards (`Outline.bounds`), and a program whose groups have different names finds
the group of each placeholder by its name (`Outline.numbers`).
-/

namespace UrlRouting.Matcher

open Regex

/-- Where the groups of placeholders stand among pieces, with their numbers. The first placeholder
has a given index, and groups are counted from those before the parts to those behind them, the
latest first. -/
inductive Outline :
    Nat → List GroupKind → List Node → List Regex → List Nat → List GroupKind → Prop
  | nil {i : Nat} {g : List GroupKind} : Outline i g [] [] [] g
  | plain {i : Nat} {g g' : List GroupKind} {r : Regex} {ns : List Node} {rs : List Regex}
    {ms : List Nat} :
    r.numbers = [] → Outline i g ns rs ms g' → Outline i g ns (r :: rs) ms g'
  | literal {i : Nat} {g g' : List GroupKind} {t : Text} {ns : List Node} {rs : List Regex}
    {ms : List Nat} :
    Outline i g ns rs ms g' → Outline i g (.literal t :: ns) rs ms g'
  | placeholder {i : Nat} {g new g' : List GroupKind} {q : Placeholder} {r : Regex}
    {ns : List Node} {rs : List Regex} {ms : List Nat} :
    Numbered (g.length + 1) (new ++ .named (groupName i) :: g).length r →
    Outline (i + 1) (new ++ .named (groupName i) :: g) ns rs ms g' →
    Outline i g (.placeholder q :: ns) (.group (g.length + 1) r :: rs) ((g.length + 1) :: ms) g'
  | optional {i : Nat} {g g₁ g' : List GroupKind} {children ns : List Node} {cs rs : List Regex}
    {ks ms : List Nat} {greedy : Bool} :
    Outline i g children cs ks g₁ →
    Outline (i + (Node.placeholders.ofNodes children).length) g₁ ns rs ms g' →
    Outline i g (.optional children :: ns) (.loop 0 (some 1) greedy (sequence cs) :: rs) (ks ++ ms)
      g'

theorem Outline.plains {i : Nat} {g g' : List GroupKind} {ns : List Node} {ps rs : List Regex}
    {ms : List Nat} (plain : ∀ r ∈ ps, r.numbers = []) (outline : Outline i g ns rs ms g') :
    Outline i g ns (ps ++ rs) ms g' := by
  induction ps with
  | nil => exact outline
  | cons r ps ih =>
    obtain ⟨first, rest⟩ := List.forall_mem_cons.mp plain
    exact .plain first (ih rest)

/-- Groups are counted upwards, and a number belongs to each placeholder. -/
theorem Outline.bounds {i : Nat} {g g' : List GroupKind} {ns : List Node} {rs : List Regex}
    {ms : List Nat} (outline : Outline i g ns rs ms g') :
    g.length ≤ g'.length ∧ (∀ n ∈ ms, g.length < n ∧ n ≤ g'.length) ∧
      ms.length = (Node.placeholders.ofNodes ns).length := by
  induction outline with
  | nil => exact ⟨Nat.le_refl _, nofun, rfl⟩
  | plain _ _ ih => exact ih
  | literal _ ih => exact ih
  | placeholder numbered _ ih =>
    obtain ⟨more, each, length⟩ := ih
    rw [List.length_append, List.length_cons] at more each
    refine ⟨by omega, fun n mem => ?_, ?_⟩
    · rcases List.mem_cons.mp mem with rfl | mem
      · omega
      · have := each n mem
        omega
    · rw [List.length_cons, length, Node.placeholders.ofNodes, List.length_append]
      exact Nat.add_comm _ _
  | optional _ _ ihc ih =>
    obtain ⟨moreInside, eachInside, inside⟩ := ihc
    obtain ⟨more, each, length⟩ := ih
    refine ⟨by omega, fun n mem => ?_, ?_⟩
    · rcases List.mem_append.mp mem with mem | mem
      · have := eachInside n mem
        omega
      · have := each n mem
        omega
    · rw [List.length_append, inside, length, Node.placeholders.ofNodes, List.length_append]
      rfl

/-! ## Names -/

/-- The number of the latest group with a given name, the groups being listed from the latest on. -/
def numberIn (groups : List GroupKind) (name : Text) : Option Nat :=
  (groups.findIdx? (·.name? = some name)).map fun i => groups.length - i

theorem numberIn_eq {later g : List GroupKind} {name : Text}
    (nodup : (later ++ .named name :: g).Nodup) :
    numberIn (later ++ .named name :: g) name = some (g.length + 1) := by
  have apart : ∀ kind ∈ later, (kind.name? = some name) = False := by
    intro kind mem
    refine eq_false fun same => ?_
    obtain ⟨-, -, apart⟩ := List.nodup_append.mp nodup
    refine apart kind mem (.named name) List.mem_cons_self ?_
    cases kind with
    | named other => exact congrArg GroupKind.named (Option.some.inj same)
    | capturing => cases same
    | nonCapturing => cases same
  have found : (later ++ .named name :: g).findIdx? (·.name? = some name) = some later.length := by
    rw [List.findIdx?_append,
      List.findIdx?_eq_none_iff.mpr fun kind mem => by simp [apart kind mem]]
    simp [List.findIdx?_cons, GroupKind.name?]
  rw [numberIn, found, Option.map_some, List.length_append, List.length_cons]
  congr 1
  omega

/-- The groups of placeholders are found by their names. -/
theorem Outline.numbers {i : Nat} {g g' : List GroupKind} {ns : List Node} {rs : List Regex}
    {ms : List Nat} (outline : Outline i g ns rs ms g') {later : List GroupKind}
    (nodup : (later ++ g').Nodup) :
    (List.range' i ms.length).map (fun j => numberIn (later ++ g') (groupName j)) =
      ms.map some := by
  suffices all : (∃ new, g' = new ++ g) ∧ ∀ later : List GroupKind, (later ++ g').Nodup →
      (List.range' i ms.length).map (fun j => numberIn (later ++ g') (groupName j)) =
        ms.map some from all.2 later nodup
  clear nodup later
  induction outline with
  | nil => exact ⟨⟨[], rfl⟩, fun _ _ => rfl⟩
  | plain _ _ ih => exact ih
  | literal _ ih => exact ih
  | @placeholder i g new g' q r ns rs ms numbered _ ih =>
    obtain ⟨⟨new', rfl⟩, rest⟩ := ih
    refine ⟨⟨new' ++ (new ++ [.named (groupName i)]), by simp⟩, fun later nodup => ?_⟩
    have here : numberIn (later ++ (new' ++ (new ++ .named (groupName i) :: g))) (groupName i) =
        some (g.length + 1) := by
      have shape : later ++ (new' ++ (new ++ .named (groupName i) :: g)) =
          (later ++ new' ++ new) ++ .named (groupName i) :: g := by simp
      rw [shape] at nodup ⊢
      exact numberIn_eq nodup
    rw [List.length_cons, List.range'_succ, List.map_cons, here, rest later nodup, List.map_cons]
  | @optional i g g₁ g' children ns cs rs ks ms greedy outline _ ihc ih =>
    obtain ⟨⟨new, rfl⟩, inside⟩ := ihc
    obtain ⟨⟨new', rfl⟩, rest⟩ := ih
    refine ⟨⟨new' ++ new, by simp⟩, fun later nodup => ?_⟩
    have count : ks.length = (Node.placeholders.ofNodes children).length := outline.bounds.2.2
    have before := inside (later ++ new') (by simpa using nodup)
    rw [List.append_assoc] at before
    have range : List.range' i (ks ++ ms).length =
        List.range' i ks.length ++ List.range' (i + ks.length) ms.length := by
      rw [List.length_append, List.range'_append_1]
    rw [range, List.map_append, before, count, rest later nodup, List.map_append]

end UrlRouting.Matcher
