import UrlRouting.Proofs.Text.Split
import UrlRouting.Unicode.Property

/-!
# The characters of property names

A text that names a property holds letters, digits and a few separators, so no character with a
meaning in expressions. The known names are compared after `looseName`, which takes separators away
and folds case; `plain_of_looseName` leads from the folded name back to the name as it is written.
-/

namespace UrlRouting.Unicode

/-- Whether a character may occur in the name of a property. -/
def isPropertyNameChar (c : Char) : Bool :=
  c.isAlphanum || [' ', '-', '_', ':', '=', '!'].contains c

namespace Property

theorem isAlphanum_of_toLower {c : Char} (h : c.toLower.isAlphanum) : c.isAlphanum := by
  by_cases upper : c.isUpper
  · have letter : c.isAlpha := Bool.or_eq_true_iff.mpr (.inl upper)
    exact Bool.or_eq_true_iff.mpr (.inl letter)
  · have same : c.toLower = c := dif_neg fun range => upper (decide_eq_true range)
    rwa [same] at h

/-- A name whose folded form holds letters and digits only is written with characters of names. -/
theorem plain_of_looseName {name : Text} (h : (looseName name).all Char.isAlphanum) {c : Char}
    (mem : c ∈ name) : isPropertyNameChar c := by
  by_cases separator : c = ' ' ∨ c = '-' ∨ c = '_'
  · rcases separator with rfl | rfl | rfl <;> rfl
  · simp only [not_or] at separator
    have folded : c.toLower ∈
        (name.filter fun c => c != ' ' && c != '-' && c != '_').map Char.toLower := by
      refine List.mem_map.mpr ⟨c, List.mem_filter.mpr ⟨mem, ?_⟩, rfl⟩
      simp [separator]
    have alphanum : c.toLower.isAlphanum := by
      unfold looseName at h
      dsimp only at h
      split at h
      next rest eq =>
        rw [eq] at folded
        rcases List.mem_cons.mp folded with same | folded
        · rw [same]
          rfl
        rcases List.mem_cons.mp folded with same | folded
        · rw [same]
          rfl
        · exact List.all_eq_true.mp h _ folded
      next => exact List.all_eq_true.mp h _ folded
    simp [isPropertyNameChar, isAlphanum_of_toLower alphanum]

/-! ## The known names -/

/-- A name that is found in a table of plain names is plain. -/
theorem alphanum_of_find? {α : Type} {table : List α} (names : α → List Text) {test : α → Bool}
    {name : Text} {entry : α} (tests : ∀ e, test e = true → name ∈ names e)
    (known : (table.all fun e => (names e).all fun n => n.all Char.isAlphanum) = true)
    (found : table.find? test = some entry) : name.all Char.isAlphanum := by
  have plain := List.all_eq_true.mp known entry (List.mem_of_find?_eq_some found)
  exact List.all_eq_true.mp plain name (tests entry (List.find?_some found))

theorem mem_pair {name code long : Text}
    (h : (decide (code = name) || decide (long = name)) = true) : name ∈ [code, long] := by
  rcases Bool.or_eq_true_iff.mp h with same | same
  · exact List.mem_cons.mpr (.inl (of_decide_eq_true same).symm)
  · exact List.mem_cons_of_mem code (List.mem_singleton.mpr (of_decide_eq_true same).symm)

theorem alphanum_of_category {name : Text} {c : Category} (h : Category.ofName? name = some c) :
    name.all Char.isAlphanum := by
  obtain ⟨entry, found, -⟩ := Option.map_eq_some_iff.mp h
  refine alphanum_of_find? (fun e => [e.2.1.toList, e.2.2.toList]) ?_ (by decide +kernel) found
  exact fun e => mem_pair

theorem alphanum_of_ofCategoryName? {name : Text} {p : Property}
    (h : ofCategoryName? name = some p) : name.all Char.isAlphanum := by
  unfold ofCategoryName? at h
  split at h
  next c eq => exact alphanum_of_category eq
  next =>
    obtain ⟨entry, found, -⟩ := Option.map_eq_some_iff.mp h
    refine alphanum_of_find? (fun e => e.2.map String.toList) ?_ (by decide +kernel) found
    simp

theorem alphanum_of_ofScriptName? {name : Text} {p : Property} (h : ofScriptName? name = some p) :
    name.all Char.isAlphanum := by
  obtain ⟨entry, found, -⟩ := Option.map_eq_some_iff.mp h
  refine alphanum_of_find? (fun e => [looseName e.1, looseName e.2]) ?_ (by decide +kernel) found
  exact fun e => mem_pair

theorem alphanum_of_namedProperties {name : Text} {entry : Property × List String}
    (h : namedProperties.find? (fun (_, names) => names.any (·.toList = name)) = some entry) :
    name.all Char.isAlphanum := by
  refine alphanum_of_find? (fun e => e.2.map String.toList) ?_ (by decide +kernel) h
  simp

/-! ## Names as they are written -/

/-- What names a property by itself. -/
theorem alphanum_of_bareName {name : Text} {p : Property}
    (h : (match namedProperties.find? fun (_, names) => names.any (·.toList = name) with
      | some (p, _) => some p
      | none => (ofCategoryName? name).or (ofScriptName? name)) = some p) :
    name.all Char.isAlphanum := by
  split at h
  next q names eq => exact alphanum_of_namedProperties eq
  next =>
    rcases Option.or_eq_some_iff.mp h with h | ⟨-, h⟩
    · exact alphanum_of_ofCategoryName? h
    · exact alphanum_of_ofScriptName? h

theorem alphanum_of_kind {kind : Text}
    (h : kind = "gc".toList ∨ kind = "generalcategory".toList ∨ kind = "sc".toList ∨
      kind = "script".toList) : kind.all Char.isAlphanum := by
  rcases h with rfl | rfl | rfl | rfl <;> decide

/-- What names a property beside its kind. -/
theorem plain_of_kindAndValue {kind value : Text} {p : Property}
    (h : (if looseName kind = "gc".toList ∨ looseName kind = "generalcategory".toList then
        ofCategoryName? (looseName value)
      else if looseName kind = "sc".toList ∨ looseName kind = "script".toList then
        ofScriptName? (looseName value)
      else none) = some p) :
    (∀ c ∈ kind, isPropertyNameChar c) ∧ ∀ c ∈ value, isPropertyNameChar c := by
  split at h
  next known =>
    refine ⟨fun c => plain_of_looseName (alphanum_of_kind ?_),
      fun c => plain_of_looseName (alphanum_of_ofCategoryName? h)⟩
    exact known.elim .inl fun known => .inr (.inl known)
  next =>
    split at h
    next known =>
      refine ⟨fun c => plain_of_looseName (alphanum_of_kind ?_),
        fun c => plain_of_looseName (alphanum_of_ofScriptName? h)⟩
      exact .inr (.inr known)
    next => cases h

theorem plain_of_ofName? {name : Text} {p : Property} (h : ofName? name = some p) :
    ∀ c ∈ name, isPropertyNameChar c := by
  have split : ∀ sep kind value, name = kind ++ sep :: value → isPropertyNameChar sep →
      (∀ c ∈ kind, isPropertyNameChar c) ∧ (∀ c ∈ value, isPropertyNameChar c) →
      ∀ c ∈ name, isPropertyNameChar c := by
    rintro sep kind value rfl separator ⟨left, right⟩ c mem
    rcases List.mem_append.mp mem with mem | mem
    · exact left c mem
    rcases List.mem_cons.mp mem with rfl | mem
    · exact separator
    · exact right c mem
  unfold ofName? at h
  rcases Text.splitFirst_cases ':' name with ⟨-, eq⟩ | ⟨kind, value, whole, -, eq⟩
  · rw [eq] at h
    rcases Text.splitFirst_cases '=' name with ⟨-, eq⟩ | ⟨kind, value, whole, -, eq⟩
    · rw [eq] at h
      exact fun c => plain_of_looseName (alphanum_of_bareName h)
    · rw [eq] at h
      exact split '=' kind value whole rfl (plain_of_kindAndValue h)
  · rw [eq] at h
    exact split ':' kind value whole rfl (plain_of_kindAndValue h)

end Property

end UrlRouting.Unicode
