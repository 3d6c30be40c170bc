/-
The coverage check decided: which switches cover a union, and which fault of the others is reported.
A switch passes exactly if it lists the members of the union, each once, and leaves some of them out if
and only if it has a catch-all. Of several faults the first of these is reported: the earliest repeat,
the earliest stranger, the members left out, the catch-all that nothing reaches.
-/
import TaggedUnion.Union.Match
import TaggedUnion.Proofs.Earliest
import Mathlib.Data.List.Perm.Basic
import Mathlib.Data.List.Nodup

namespace TaggedUnion.Union

variable {u : Union} {s : Switch}

/-! ## The stages of the check -/

theorem contains_iff {t : Tag} : u.contains t = true ↔ t ∈ u.tags := by
  simp [contains]

theorem find?_stray_eq_none_iff :
    (s.tags.find? fun t => !u.contains t) = none ↔ s.tags ⊆ u.tags := by
  simp only [List.find?_eq_none, Bool.not_eq_true', Bool.not_eq_false, contains_iff]
  rfl

theorem find?_stray_eq_some_iff {t : Tag} :
    (s.tags.find? fun t => !u.contains t) = some t ↔
      ∃ i, IsLeast {i | HoldsAt (· ∉ u.tags) s.tags i} i ∧ s.tags[i]? = some t := by
  have stray : (fun t => (!u.contains t) = true) = (· ∉ u.tags) := by
    funext t
    rw [Bool.not_eq_true', ← Bool.not_eq_true, contains_iff]
  rw [find?_eq_some_iff_isLeast, stray]

theorem mem_missing_iff {t : Tag} : t ∈ u.missing s ↔ t ∈ u.tags ∧ t ∉ s.tags := by
  simp [missing]

theorem missing_sublist : (u.missing s).Sublist u.tags := List.filter_sublist

theorem missing_eq_nil_iff : u.missing s = [] ↔ u.tags ⊆ s.tags := by
  simp only [List.eq_nil_iff_forall_not_mem, mem_missing_iff, not_and, not_not]
  rfl

/-- The members left out are the only list of them in the order of the union. -/
theorem eq_missing_of_sublist {ts : List Tag} (inOrder : ts.Sublist u.tags)
    (uncovered : ∀ t, t ∈ ts ↔ t ∈ u.tags ∧ t ∉ s.tags) : ts = u.missing s := by
  have same : ∀ t, t ∈ ts ↔ t ∈ u.missing s := fun t => (uncovered t).trans mem_missing_iff.symm
  -- two sublists of a list without repeats are equal if they have the same elements
  rw [← List.Nodup.perm_iff_eq_of_sublist u.nodup_tags inOrder missing_sublist]
  exact (List.perm_ext_iff_of_nodup (inOrder.nodup u.nodup_tags) (missing_sublist.nodup u.nodup_tags)).2 same

/-! ## Acceptance -/

/-- What passes the check: every member has at most one case, nobody else has one, and members are left
out exactly if there is a catch-all for them. -/
theorem check_eq_ok_iff : u.check s = .ok () ↔
    s.tags.Nodup ∧ s.tags ⊆ u.tags ∧ (s.otherwise = none ↔ u.tags ⊆ s.tags) := by
  rw [← firstRepeat?_eq_none_iff, ← find?_stray_eq_none_iff, ← missing_eq_nil_iff]
  unfold check
  split
  · next h => simp [h]
  · next h =>
    split
    · next h' => simp [h']
    · next h' => split <;> simp_all

/-- A switch that lists some members without repeats lists all of them exactly if it lists a
rearrangement of them. -/
theorem perm_tags_iff (nodup : s.tags.Nodup) (members : s.tags ⊆ u.tags) :
    s.tags.Perm u.tags ↔ u.tags ⊆ s.tags := by
  rw [List.perm_ext_iff_of_nodup nodup u.nodup_tags]
  exact ⟨fun h t => (h t).2, fun h t => ⟨fun ht => members ht, fun ht => h ht⟩⟩

/-- The two kinds of switches that pass: those without a catch-all that list a rearrangement of the
members, and those with one that list some but not all members, without repeats. -/
theorem check_eq_ok_iff_perm_or_ssubset : u.check s = .ok () ↔
    (s.otherwise = none ∧ s.tags.Perm u.tags) ∨
    (s.otherwise.isSome ∧ s.tags.Nodup ∧ s.tags ⊆ u.tags ∧ ¬ u.tags ⊆ s.tags) := by
  rw [check_eq_ok_iff]
  constructor
  · rintro ⟨nodup, members, closed⟩
    cases h : s.otherwise with
    | none => exact .inl ⟨rfl, (perm_tags_iff nodup members).2 (closed.1 h)⟩
    | some g =>
      refine .inr ⟨rfl, nodup, members, fun full => ?_⟩
      rw [closed.2 full] at h; cases h
  · rintro (⟨none, perm⟩ | ⟨some, nodup, members, gap⟩)
    · exact ⟨perm.nodup_iff.2 u.nodup_tags, perm.subset, fun _ => perm.symm.subset, fun _ => none⟩
    · refine ⟨nodup, members, fun none => ?_, fun full => absurd full gap⟩
      rw [none] at some; cases some

/-! ## Faults -/

/-- What is wrong with a switch as a cover of a union: the fault that comes first in the order of the
stages, with what is to blame for it. -/
inductive CoverageFault (u : Union) (s : Switch) : Error → Prop where
  /-- The earliest case whose tag has a case in front of it. -/
  | repeatedCase {i : Nat} {t : Tag} (first : IsLeast {i | RepeatsAt s.tags i} i)
      (here : s.tags[i]? = some t) : CoverageFault u s (.repeatedCase t)
  /-- The earliest case of a tag that is not a member. -/
  | strayCase {i : Nat} {t : Tag} (nodup : s.tags.Nodup)
      (first : IsLeast {i | HoldsAt (· ∉ u.tags) s.tags i} i)
      (here : s.tags[i]? = some t) : CoverageFault u s (.strayCase t)
  /-- The members that have no case, in the order of the union, if there is no catch-all. -/
  | missingCases {ts : List Tag} (nodup : s.tags.Nodup) (members : s.tags ⊆ u.tags)
      (alone : s.otherwise = none) (gap : ts ≠ []) (inOrder : ts.Sublist u.tags)
      (uncovered : ∀ t, t ∈ ts ↔ t ∈ u.tags ∧ t ∉ s.tags) : CoverageFault u s (.missingCases ts)
  /-- A catch-all although every member has a case. -/
  | unreachableOtherwise (nodup : s.tags.Nodup) (members : s.tags ⊆ u.tags) (full : u.tags ⊆ s.tags)
      (catchAll : s.otherwise.isSome) : CoverageFault u s .unreachableOtherwise

theorem coverageFault_of_check {e : Error} (h : u.check s = .error e) : u.CoverageFault s e := by
  unfold check at h
  split at h
  · next t ht =>
    cases h
    obtain ⟨i, first, here⟩ := firstRepeat?_eq_some_iff.1 ht
    exact .repeatedCase first here
  · next nodup =>
    have nodup := firstRepeat?_eq_none_iff.1 nodup
    split at h
    · next t ht =>
      cases h
      obtain ⟨i, first, here⟩ := find?_stray_eq_some_iff.1 ht
      exact .strayCase nodup first here
    · next members =>
      have members := find?_stray_eq_none_iff.1 members
      split at h
      · cases h
      · next g full catchAll =>
        cases h
        exact .unreachableOtherwise nodup members (missing_eq_nil_iff.1 full) (by rw [catchAll]; rfl)
      · next alone gap =>
        cases h
        exact .missingCases nodup members alone gap missing_sublist fun t => mem_missing_iff
      · cases h

theorem check_of_coverageFault {e : Error} (h : u.CoverageFault s e) : u.check s = .error e := by
  cases h with
  | repeatedCase first here =>
    rw [check, firstRepeat?_eq_some_iff.2 ⟨_, first, here⟩]
  | strayCase nodup first here =>
    rw [check, firstRepeat?_eq_none_iff.2 nodup]
    simp only [find?_stray_eq_some_iff.2 ⟨_, first, here⟩]
  | missingCases nodup members alone gap inOrder uncovered =>
    rw [check, firstRepeat?_eq_none_iff.2 nodup]
    simp only [find?_stray_eq_none_iff.2 members]
    rw [← eq_missing_of_sublist inOrder uncovered, alone]
    split <;> simp_all
  | unreachableOtherwise nodup members full catchAll =>
    rw [check, firstRepeat?_eq_none_iff.2 nodup]
    obtain ⟨g, hg⟩ := Option.isSome_iff_exists.1 catchAll
    simp only [find?_stray_eq_none_iff.2 members, missing_eq_nil_iff.2 full, hg]

/-- The check decides coverage: what passes are the rearrangements of the members without a catch-all and
the gaps with one, and of everything else the fault that comes first is reported, in these words. -/
theorem check_decides [Text.Glyphs] (u : Union) (s : Switch) :
    (u.check s = .ok () ↔
      (s.otherwise = none ∧ s.tags.Perm u.tags) ∨
      (s.otherwise.isSome ∧ s.tags.Nodup ∧ s.tags ⊆ u.tags ∧ ¬ u.tags ⊆ s.tags)) ∧
    (∀ e, u.check s = .error e ↔ u.CoverageFault s e) ∧
    (∀ e, u.CoverageFault s e → e.kind = .invalidOperation) ∧
    (∀ t, (Error.repeatedCase t).message =
      "invalid operation: " ++ (t.display ++ " type can only be covered by one clause")) ∧
    (∀ t, (Error.strayCase t).message = "invalid operation: " ++ (t.display ++ " is not in this union")) ∧
    (∀ ts, (Error.missingCases ts).message = "invalid operation: " ++
      ("Not all cases are covered: missing " ++ ", ".intercalate (ts.map Tag.display))) ∧
    Error.unreachableOtherwise.message = "invalid operation: " ++
      "All cases are covered, so the catch-all is unreachable" := by
  refine ⟨check_eq_ok_iff_perm_or_ssubset, fun e => ⟨coverageFault_of_check, check_of_coverageFault⟩,
    fun e he => ?_, fun t => rfl, fun t => rfl, fun ts => rfl, rfl⟩
  cases he <;> rfl

/-- In the empty union nothing is left out, so a lone catch-all cannot be reached. -/
example (ident : Nat) (g : Callable) :
    (Union.mk ident [] .nil .nil).check { otherwise := some g } = .error .unreachableOtherwise := rfl

end TaggedUnion.Union
