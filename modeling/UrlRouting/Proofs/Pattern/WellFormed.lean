import UrlRouting.Pattern.Parser
import UrlRouting.Proofs.Result
import UrlRouting.Proofs.Text.Escapes
import UrlRouting.Proofs.Text.Split

/-!
# Well-formed patterns and what writes them

`Pattern.WellFormed` says of a tree what a pattern that has been read satisfies, and `Node.Written`
relates a list of parts to the texts that write it: their written form, with blanks around names and
constraints, and with a colon and blanks in place of a constraint that is absent.

* The shape of the tree is `Node.Shaped`.
* What a constraint satisfies by itself is `Constraint.Proper`.
* The checks of names and groups are characterised by `checkPlaceholders_eq_ok`.
-/

namespace UrlRouting

/-! ## Braces -/

/-- How many braces are open after a text, if so many are open before it and none is closed that has
not been opened. -/
def Text.levels : Nat → Text → Option Nat
  | depth, [] => some depth
  | depth, c :: t =>
    if c = '\x7b' then levels (depth + 1) t
    else if c = '\x7d' then
      match depth with
      | 0 => none
      | depth + 1 => levels depth t
    else levels depth t

/-- Outside of escapes braces come in pairs. -/
def Text.Balanced (t : Text) : Prop := levels 0 (unescaped t) = some 0

theorem Text.levels_append (depth : Nat) (s t : Text) :
    levels depth (s ++ t) = levels depth s >>= fun depth => levels depth t := by
  induction s generalizing depth with
  | nil => rfl
  | cons c s ih =>
    simp only [List.cons_append, levels]
    split
    next => exact ih _
    next =>
      split
      next =>
        cases depth with
        | zero => rfl
        | succ depth => exact ih depth
      next => exact ih depth

theorem Text.levels_of_forall {t : Text} (h : ∀ c ∈ t, c ∉ ['\x7b', '\x7d']) (depth : Nat) :
    levels depth t = some depth := by
  induction t with
  | nil => rfl
  | cons c t ih =>
    have ne := h c List.mem_cons_self
    simp only [List.mem_cons, List.not_mem_nil, or_false, not_or] at ne
    simp only [levels, if_neg ne.1, if_neg ne.2]
    exact ih fun d mem => h d (List.mem_cons_of_mem c mem)

/-! ## Trees -/

/-- What a constraint satisfies by itself. -/
structure Constraint.Proper (constraint : Text) : Prop where
  nonempty : constraint ≠ []
  trimmed : Text.Trimmed Unicode.isBlank constraint
  balanced : Text.Balanced constraint
  whole : Text.dangles constraint = false
  uncaptured : Constraint.firstCapturing? constraint = none

/-- Whether a part is literal text. -/
def Node.isLiteral : Node → Bool
  | literal _ => true
  | _ => false

/-- The characters that literal text does not have. -/
def brackets : List Char := ['\x7b', '[', ']']

namespace Node

/-- Whether a list of parts begins with literal text. -/
def literalFirst (ns : List Node) : Bool := ns.head?.any isLiteral

mutual

/-- Literal text is not empty and has no brackets, and optional parts are not empty. -/
def Shaped : Node → Prop
  | literal t => t ≠ [] ∧ ∀ c ∈ t, c ∉ brackets
  | placeholder _ => True
  | optional children => children ≠ [] ∧ ShapedList children

/-- The parts of a list are in shape, and no literal text follows another one. -/
def ShapedList : List Node → Prop
  | [] => True
  | n :: ns => n.Shaped ∧ ¬ (n.isLiteral = true ∧ literalFirst ns = true) ∧ ShapedList ns

end

/-- Whether a part is optional. -/
def isOptional : Node → Bool
  | optional _ => true
  | _ => false

mutual

/-- Optional parts inside of a part stand at the end of their lists. -/
def Trailing : Node → Prop
  | optional children => TrailingList children
  | literal _ | placeholder _ => True

/-- Optional parts in a list stand at its end, and so do those inside of them. -/
def TrailingList : List Node → Prop
  | [] => True
  | n :: ns => n.Trailing ∧ (n.isOptional = true → ns = []) ∧ TrailingList ns

end

end Node

/-- The names of the groups in the constraint of a placeholder. -/
def Placeholder.groupNames (p : Placeholder) : List Text :=
  p.constraint.elim [] Constraint.groupNames

namespace Pattern

/-- The names of the groups in all constraints. -/
def groupNames (p : Pattern) : List Text := p.placeholders.flatMap (·.groupNames)

/-- A tree that some text writes and that compiles. -/
structure WellFormed (p : Pattern) : Prop where
  shaped : Node.ShapedList p.nodes
  named : ∀ q ∈ p.placeholders, isName q.name
  distinct : p.names.Nodup
  constrained : ∀ q ∈ p.placeholders, ∀ c ∈ q.constraint, Constraint.Proper c
  unreserved : ∀ g ∈ p.groupNames, ¬ Matcher.reservedBeginning <+: g
  unrepeated : p.groupNames.Nodup
  compiles : ∃ m, Matcher.ofPattern p = .ok m

end Pattern

/-! ## Texts -/

/-- A text of blanks. -/
def Blank (t : Text) : Prop := ∀ c ∈ t, Unicode.isBlank c = true

/-- What may stand between the braces of a placeholder. -/
inductive Placeholder.Written : Placeholder → Text → Prop
  | bare {name a b : Text} :
    Blank a → Blank b → Written ⟨name, none⟩ (a ++ name ++ b)
  | absent {name a b c : Text} :
    Blank a → Blank b → Blank c → Written ⟨name, none⟩ (a ++ name ++ b ++ ':' :: c)
  | constrained {name constraint a b c d : Text} :
    Blank a → Blank b → Blank c → Blank d →
    Written ⟨name, some constraint⟩ (a ++ name ++ b ++ ':' :: (c ++ constraint ++ d))

/-- A text writes a list of parts. -/
inductive Node.Written : List Node → Text → Prop
  | nil : Written [] []
  | literal {t u : Text} {ns : List Node} : Written ns u → Written (.literal t :: ns) (t ++ u)
  | placeholder {p : Placeholder} {t u : Text} {ns : List Node} :
    p.Written t → Written ns u → Written (.placeholder p :: ns) ('\x7b' :: (t ++ '\x7d' :: u))
  | optional {children ns : List Node} {t u : Text} :
    Written children t → Written ns u → Written (.optional children :: ns) ('[' :: (t ++ ']' :: u))

theorem Placeholder.written_render (p : Placeholder) :
    ∃ t, p.Written t ∧ p.render = '\x7b' :: (t ++ ['\x7d']) := by
  obtain ⟨name, constraint⟩ := p
  have blank : Blank [] := fun _ mem => nomatch mem
  cases constraint with
  | none => exact ⟨_, .bare blank blank, by simp [render]⟩
  | some constraint => exact ⟨_, .constrained blank blank blank blank, by simp [render]⟩

mutual

/-- A part and the parts behind it are written by their written forms. -/
theorem Node.written_cons (n : Node) {ns : List Node} {u : Text} (behind : Written ns u) :
    Written (n :: ns) (n.render ++ u) := by
  cases n with
  | literal t => exact .literal behind
  | placeholder p =>
    obtain ⟨t, written, eq⟩ := p.written_render
    rw [render, eq]
    simpa using Written.placeholder written behind
  | optional children =>
    rw [render]
    simpa using Written.optional (Node.written_renderList children) behind

/-- The written form of a list of parts writes it. -/
theorem Node.written_renderList (ns : List Node) : Written ns (renderList ns) := by
  cases ns with
  | nil => exact .nil
  | cons n ns => exact Node.written_cons n (Node.written_renderList ns)

end

end UrlRouting
