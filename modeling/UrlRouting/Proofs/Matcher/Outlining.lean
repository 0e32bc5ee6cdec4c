import UrlRouting.Proofs.Matcher.Reading

/-!
# The expression of a pattern under any flags

The flags that a constraint sets may be in force behind its group, up to the end of the optional
part around it. They change what literal text and other constraints are read as: in extended mode
blanks are ignored, and so on. But without number signs they begin no comment, and so each group
still ends where it ends by itself (`Admitted.balanced`). Whatever the flags, what the parts of a
pattern are read as has the outline of the parts (`exists_outline`).

Between two pieces the reader has taken what is ignored. So its state is compared with the one in
front of a part after both have skipped.
-/

namespace UrlRouting.Matcher

open Regex

variable {body : Option (Reader Regex)} {f : Flags} {o : List (GroupKind × Text)}
  {branches : List (List Regex)} {s s₀ s₁ : Reading} {u v : Text}

theorem skip_blank {c : Char} (blank : (f.extended && [' ', '\t', '\r', '\n'].contains c) = true)
    (t : Text) : Reading.skip ⟨c :: t, f, o⟩ = Reading.skip ⟨t, f, o⟩ := by
  simp [Reading.skip, Reading.skip?, skipIgnored_blank blank]

/-! ## Literal text -/

/-- A character of literal text is read as one piece, or as none where it is a blank that is
ignored. -/
theorem readBranches_char {c : Char} {t : Text} (settled : Settled (escapeLiteral t ++ v))
    (skipped : s₀.skip = Reading.skip ⟨escapeLiteral (c :: t) ++ v, f, o⟩)
    (read : readBranches body s₀ = .ok (branches, s)) :
    ∃ s₁ ps branches', s₁.skip = Reading.skip ⟨escapeLiteral t ++ v, f, o⟩ ∧
      readBranches body s₁ = .ok (branches', s) ∧ (∀ r ∈ ps, r.numbers = []) ∧
      branches = attachAll ps branches' := by
  have piece {w : Text} {r : Regex} (first : s₀.skip = .ok ⟨w, f, o⟩) (none : r.numbers = [])
      (shorter : (escapeLiteral t ++ v).length < w.length)
      (atom : readAtom body s₀ = .ok (r, ⟨escapeLiteral t ++ v, f, o⟩)) :
      ∃ s₁ ps branches', s₁.skip = Reading.skip ⟨escapeLiteral t ++ v, f, o⟩ ∧
        readBranches body s₁ = .ok (branches', s) ∧ (∀ r ∈ ps, r.numbers = []) ∧
        branches = attachAll ps branches' := by
    have less : w.length ≤ s₀.rest.length := length_skip first
    obtain ⟨s₁, branches', behind, rest, same⟩ :=
      readBranches_settled atom settled (Nat.lt_of_lt_of_le shorter less) read
    refine ⟨s₁, [r], branches', (skip_skip behind).trans behind.symm, rest, ?_, same⟩
    exact List.forall_mem_singleton.mpr none
  rw [escapeLiteral, List.flatMap_cons, List.append_assoc] at skipped
  split at skipped
  next special =>
    have first : s₀.skip = .ok ⟨'\\' :: c :: (escapeLiteral t ++ v), f, o⟩ :=
      skipped.trans (skip_of (skipIgnored_mark (by decide) _ _) o)
    refine piece first rfl ?_ (readAtom_escaped body (List.contains_iff_mem.mp special) first)
    simp only [List.length_cons]
    omega
  next plain =>
    have notSpecial : c ∉ specialChars := fun mem => plain (List.contains_iff_mem.mpr mem)
    by_cases blank : (f.extended && [' ', '\t', '\r', '\n'].contains c) = true
    · exact ⟨s₀, [], branches, skipped.trans (skip_blank blank _), read,
        List.forall_mem_nil _, rfl⟩
    · have group : c ≠ '(' := by
        rintro rfl
        exact notSpecial (by decide)
      have hash : c ≠ '#' := by
        rintro rfl
        exact notSpecial (by decide)
      have visible : skipIgnored f.extended .outside (c :: (escapeLiteral t ++ v)) =
          some (c :: (escapeLiteral t ++ v)) := by
        rw [skipIgnored.eq_3 _ _ _ fun _ eq => absurd eq group, if_neg blank,
          if_neg (by simp [hash])]
      have first : s₀.skip = .ok ⟨c :: (escapeLiteral t ++ v), f, o⟩ :=
        skipped.trans (skip_of visible o)
      exact piece first rfl (Nat.lt_succ_self _) (readAtom_plain body notSpecial first)

/-- Literal text is read as pieces without groups. -/
theorem readBranches_text (t : Text) (settled : Settled v)
    (skipped : s₀.skip = Reading.skip ⟨escapeLiteral t ++ v, f, o⟩)
    (read : readBranches body s₀ = .ok (branches, s)) :
    ∃ s₁ ps branches', s₁.skip = Reading.skip ⟨v, f, o⟩ ∧
      readBranches body s₁ = .ok (branches', s) ∧ (∀ r ∈ ps, r.numbers = []) ∧
      branches = attachAll ps branches' := by
  induction t generalizing s₀ branches with
  | nil => exact ⟨s₀, [], branches, skipped, read, List.forall_mem_nil _, rfl⟩
  | cons c t ih =>
    obtain ⟨s₁, ps, branches₁, skipped₁, read₁, none, rfl⟩ :=
      readBranches_char (settled_escapeLiteral settled t) skipped read
    obtain ⟨s₂, qs, branches₂, skipped₂, read₂, none', rfl⟩ := ih skipped₁ read₁
    refine ⟨s₂, ps ++ qs, branches₂, skipped₂, read₂, fun r mem => ?_,
      (attachAll_append ps qs branches₂).symm⟩
    exact (List.mem_append.mp mem).elim (none r) (none' r)

/-! ## Groups -/

/-- The group of a placeholder ends where its constraint ends. -/
theorem readBranches_placeholder {q : Placeholder} {i : Nat}
    (readers : ∀ b ∈ body, ∃ d, b = readExpression d)
    (admitted : Admitted .hashFree q.expression) (quiet : Quiet .hashFree (')' :: u))
    (settled : Settled u) (skipped : s₀.skip = Reading.skip ⟨capture i q ++ u, f, o⟩)
    (read : readBranches body s₀ = .ok (branches, s)) :
    ∃ s₁ r new f' o' branches', s₁.skip = Reading.skip ⟨u, f', o'⟩ ∧
      readBranches body s₁ = .ok (branches', s) ∧
      Reading.groups ⟨u, {}, o'⟩ = new ++ .named (groupName i) :: Reading.groups ⟨u, {}, o⟩ ∧
      Numbered ((Reading.groups ⟨u, {}, o⟩).length + 1) (Reading.groups ⟨u, {}, o'⟩).length r ∧
      branches = attach (.group ((Reading.groups ⟨u, {}, o⟩).length + 1) r) branches' := by
  obtain ⟨d, opening, r, new, s', atom, inside, groups, known, shorter⟩ :=
    exists_readAtom_capture readers skipped read
  obtain ⟨s₂, inner, close, final⟩ := enclosed_eq_ok.mp inside
  have calm : Calm .hashFree ⟨q.expression ++ ')' :: u, f, (.named (groupName i), opening) :: o⟩ :=
    Quiet.append (admitted.closed (by decide)).1 admitted.quiet quiet
  have passes := ((reads_readExpression .hashFree d).advances calm inner).passes rfl
  rw [close] at passes
  have rest : s'.rest = u := (passes.rest_eq (admitted.balanced rfl))
  rw [← rest] at settled shorter
  obtain ⟨s₁, branches', skipped', read', same⟩ := readBranches_settled atom settled shorter read
  refine ⟨s₁, r, new, s'.flags, s'.opened, branches', ?_, read', groups, known, same⟩
  rw [← rest, skip_skip skipped']
  exact skipped'.symm

/-- At the end of a group alternatives end. Blanks in front of it make an empty piece. -/
theorem readBranches_close (skipped : s₀.skip = .ok ⟨')' :: u, f, o⟩)
    (read : readBranches body s₀ = .ok (branches, s)) :
    s = ⟨')' :: u, f, o⟩ ∧ (branches = [[]] ∨ branches = [[empty]]) := by
  have atom : readAtom body s₀ = .ok (empty, ⟨')' :: u, f, o⟩) := by
    rw [readAtom, skipped, ok_bind]
    rfl
  have settled : Settled (')' :: u) := .mark (by decide) u
  have piece := readPiece_settled atom settled (skip_skip skipped)
  have last : readBranches body ⟨')' :: u, f, o⟩ = .ok ([[]], ⟨')' :: u, f, o⟩) :=
    readBranches_end (by simp)
  have moves : Moves .any s₀ ⟨')' :: u, f, o⟩ := skip_moves (Calm.any _) skipped
  rcases moves.taken.length with same | shorter
  · obtain ⟨t, g, opened⟩ := s₀
    obtain rfl : ')' :: u = t := same
    obtain rfl : f = g := moves.flags
    obtain rfl : o = opened := moves.opened
    rw [last] at read
    cases read
    exact ⟨rfl, .inl rfl⟩
  · rw [readBranches_piece piece shorter, last] at read
    cases read
    exact ⟨rfl, .inr rfl⟩

/-! ## Parts -/

/-- What the parts of a pattern are read as, in a group and under any flags, has their outline. -/
theorem exists_outline {body : Option (Reader Regex)} {f : Flags} {o : List (GroupKind × Text)}
    {branches : List (List Regex)} {s s₀ : Reading} (ns : List Node) (i : Nat) {u : Text}
    (readers : ∀ b ∈ body, ∃ d, b = readExpression d)
    (admitted : ∀ q ∈ Node.placeholders.ofNodes ns, Admitted .hashFree q.expression)
    (quiet : Quiet .hashFree (')' :: u))
    (skipped : s₀.skip = Reading.skip ⟨fragmentOfNodes i ns ++ ')' :: u, f, o⟩)
    (read : readBranches body s₀ = .ok (branches, s)) :
    ∃ rs ms f' o', Outline i (Reading.groups ⟨u, {}, o⟩) ns rs ms (Reading.groups ⟨u, {}, o'⟩) ∧
      s = ⟨')' :: u, f', o'⟩ ∧ branches = [rs] := by
  have settled : Settled (')' :: u) := .mark (by decide) u
  have plain : Mode.hashFree ≠ .any := by decide
  match ns with
  | [] =>
    have close := skipped.trans (skip_of (skipIgnored_mark (by decide) f.extended u) o)
    obtain ⟨rfl, rfl | rfl⟩ := readBranches_close close read
    · exact ⟨[], [], f, o, .nil, rfl, rfl⟩
    · exact ⟨[empty], [], f, o, .plain rfl .nil, rfl, rfl⟩
  | .literal t :: ns =>
    rw [fragmentOfNodes, fragment, List.append_assoc] at skipped
    obtain ⟨s₁, ps, branches₁, skipped₁, read₁, none, rfl⟩ :=
      readBranches_text t (settled_fragmentOfNodes settled _ ns) skipped read
    obtain ⟨rs, ms, f', o', outline, last, rfl⟩ :=
      exists_outline ns i readers admitted quiet skipped₁ read₁
    refine ⟨ps ++ rs, ms, f', o', .literal (outline.plains none), last, ?_⟩
    rw [← attachAll_nil rs, ← attachAll_append, attachAll_nil]
  | .placeholder q :: ns =>
    rw [fragmentOfNodes, fragment, List.append_assoc] at skipped
    have rest : ∀ q' ∈ Node.placeholders.ofNodes ns, Admitted .hashFree q'.expression :=
      fun q' mem => admitted q' (List.mem_cons_of_mem _ mem)
    have behind := (quiet_fragmentOfNodes plain ns rest (i + 1) quiet).close
    obtain ⟨s₁, r, new, f₁, o₁, branches₁, skipped₁, read₁, groups, known, rfl⟩ :=
      readBranches_placeholder readers (admitted q List.mem_cons_self) behind
        (settled_fragmentOfNodes settled _ ns) skipped read
    obtain ⟨rs, ms, f', o', outline, last, rfl⟩ :=
      exists_outline ns (i + 1) readers rest quiet skipped₁ read₁
    have groups : Reading.groups ⟨u, {}, o₁⟩ =
        new ++ .named (groupName i) :: Reading.groups ⟨u, {}, o⟩ := groups
    have known : Numbered ((Reading.groups ⟨u, {}, o⟩).length + 1)
        (Reading.groups ⟨u, {}, o₁⟩).length r := known
    rw [groups] at outline known
    exact ⟨_, _, f', o', .placeholder known outline, last, rfl⟩
  | .optional children :: ns =>
    rw [fragmentOfNodes, List.append_assoc] at skipped
    have inside : ∀ q ∈ Node.placeholders.ofNodes children, Admitted .hashFree q.expression :=
      fun q mem => admitted q (List.mem_append_left _ mem)
    have rest : ∀ q ∈ Node.placeholders.ofNodes ns, Admitted .hashFree q.expression :=
      fun q mem => admitted q (List.mem_append_right _ mem)
    have settled' := settled_fragmentOfNodes settled
      (i + (Node.optional children).placeholders.length) ns
    have closing := (quiet_fragmentOfNodes plain ns rest
      (i + (Node.optional children).placeholders.length) quiet).closeOptional
    obtain ⟨opening, body', branches₀, s₁, readers', inner, loop⟩ :=
      readBranches_children readers settled' skipped read
    obtain ⟨cs, ks, f₁, o₁, outline, last, single⟩ :=
      exists_outline children i readers' inside closing rfl inner
    obtain ⟨s₂, branches₁, skipped₁, read₁, rfl⟩ := loop cs f₁ o₁ single last
    obtain ⟨rs, ms, f', o', outline', last, rfl⟩ :=
      exists_outline ns (i + (Node.optional children).placeholders.length) readers rest quiet
        ((skip_skip skipped₁).trans skipped₁.symm) read₁
    exact ⟨_, _, f', o', .optional outline outline', last, rfl⟩
termination_by sizeOf ns

/-- What the expression of a pattern is read as has the outline of the pattern. -/
theorem exists_outline_of_ofPattern {p : Pattern} {m : Matcher} (h : ofPattern p = .ok m)
    (admitted : ∀ q ∈ p.placeholders, Admitted .hashFree q.expression) :
    ∃ rs ms, Outline 0 [] p.nodes rs ms m.program.groups.reverse ∧
      m.program.regex = anchored rs := by
  obtain ⟨body, opening, branches, s, readers, read, whole⟩ := exists_readBranches_of_ofPattern h
  have quiet : Quiet .hashFree (')' :: '/' :: '?' :: ['$']) :=
    HashFree.of_notMem (by decide) .outside
  obtain ⟨rs, ms, f, o, outline, last, single⟩ :=
    exists_outline p.nodes 0 readers admitted quiet rfl read
  obtain ⟨regex, groups⟩ := whole rs f o single last
  refine ⟨rs, ms, ?_, regex⟩
  rw [groups]
  exact outline

end UrlRouting.Matcher
