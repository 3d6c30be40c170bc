/-
The order of the cases of a switch, and of the members of a union. Switches with the same cases in another
order break the same rule of coverage of the union, or none, whatever the order of its members; where they
pass the check they dispatch every value alike. With no case twice and none of a stranger even the error is
the same.
-/
import TaggedUnion.Proofs.Union.Dispatch

namespace TaggedUnion

variable {s s' : Switch}

namespace Switch

theorem tags_perm (perm : s.cases.Perm s'.cases) : s.tags.Perm s'.tags := perm.map Prod.fst

theorem lists_iff_of_perm (perm : s.cases.Perm s'.cases) {v : Value} : s.Lists v ↔ s'.Lists v := by
  unfold Lists
  simp only [(tags_perm perm).mem_iff]

/-- Where no tag has two cases, their order does not matter for any value. -/
theorem dispatch_eq_of_perm (nodup : s.tags.Nodup) (perm : s.cases.Perm s'.cases)
    (catchAll : s.otherwise = s'.otherwise) (host : Host) (v : Value) :
    s.dispatch host v = s'.dispatch host v := by
  by_cases listed : s.Lists v
  · obtain ⟨x, hx, ht⟩ := listed
    obtain ⟨⟨t, handler⟩, hc, rfl⟩ := List.mem_map.1 ht
    obtain ⟨i, hi⟩ := List.getElem?_of_mem hc
    obtain ⟨j, hj⟩ := List.getElem?_of_mem (perm.mem_iff.1 hc)
    rw [dispatch_of_getElem?_cases nodup hx hi,
      dispatch_of_getElem?_cases ((tags_perm perm).nodup_iff.1 nodup) hx hj]
  · have unlisted := fun h => listed ((lists_iff_of_perm perm).2 h)
    cases h : s.otherwise with
    | none => rw [dispatch_eq_throw listed h, dispatch_eq_throw unlisted (catchAll ▸ h)]
    | some handler => rw [dispatch_of_not_lists listed h, dispatch_of_not_lists unlisted (catchAll ▸ h)]

end Switch

namespace Union

variable {u : Union}

theorem missing_eq_of_perm (perm : s.cases.Perm s'.cases) : u.missing s = u.missing s' := by
  unfold missing
  simp only [isKnown_eq, (Switch.tags_perm perm).mem_iff]

theorem check_eq_of_perm (nodup : s.tags.Nodup) (members : s.tags ⊆ u.tags) (perm : s.cases.Perm s'.cases)
    (catchAll : s.otherwise = s'.otherwise) : u.check s = u.check s' := by
  have nodup' : s'.tags.Nodup := (Switch.tags_perm perm).nodup_iff.1 nodup
  have members' : s'.tags ⊆ u.tags := List.Subset.trans (Switch.tags_perm perm).symm.subset members
  simp only [check, firstRepeat?_eq_none_iff.2 nodup, firstRepeat?_eq_none_iff.2 nodup',
    find?_stray_eq_none_iff.2 members, find?_stray_eq_none_iff.2 members', missing_eq_of_perm perm, catchAll]

/-- Where no tag has two cases and none is a stranger, their order does not matter at all. -/
theorem run_eq_of_perm (nodup : s.tags.Nodup) (members : s.tags ⊆ u.tags) (perm : s.cases.Perm s'.cases)
    (catchAll : s.otherwise = s'.otherwise) (host : Host) (v : Value) :
    u.run host v s = u.run host v s' := by
  rw [run, run, check_eq_of_perm nodup members perm catchAll,
    Switch.dispatch_eq_of_perm nodup perm catchAll host v]

end Union

/-! ## Rules of coverage -/

/-- What a switch has to keep to as a cover of a union. -/
inductive CoverageRule where
  | noRepeat
  | noStray
  | noGap
  | noRedundance
deriving DecidableEq

/-- The rule of coverage that is broken according to an error, if the error is about coverage. -/
def Error.coverageRule? : Error → Option CoverageRule
  | .repeatedCase _ => some .noRepeat
  | .strayCase _ => some .noStray
  | .missingCases _ => some .noGap
  | .unreachableOtherwise => some .noRedundance
  | _ => none

namespace Union

/-- Whether a rule is the first that a switch breaks as a cover of a union, in terms of what is listed alone. -/
def Breaks (u : Union) (s : Switch) : CoverageRule → Prop
  | .noRepeat => ¬ s.tags.Nodup
  | .noStray => s.tags.Nodup ∧ ¬ s.tags ⊆ u.tags
  | .noGap => s.tags.Nodup ∧ s.tags ⊆ u.tags ∧ ¬ u.tags ⊆ s.tags ∧ s.otherwise = none
  | .noRedundance => s.tags.Nodup ∧ s.tags ⊆ u.tags ∧ u.tags ⊆ s.tags ∧ s.otherwise ≠ none

variable {u w : Union}

theorem breaks_of_coverageFault {e : Error} (fault : u.CoverageFault s e) :
    ∃ rule, e.coverageRule? = some rule ∧ u.Breaks s rule := by
  cases fault with
  | repeatedCase first here =>
    refine ⟨.noRepeat, rfl, fun nodup => ?_⟩
    have again := firstRepeat?_eq_some_iff.2 ⟨_, first, here⟩
    rw [firstRepeat?_eq_none_iff.2 nodup] at again
    cases again
  | strayCase nodup first here =>
    obtain ⟨t, ht, stray⟩ := first.1
    exact ⟨.noStray, rfl, nodup, fun members => stray (members (List.mem_of_getElem? ht))⟩
  | missingCases nodup members alone gap inOrder uncovered =>
    obtain ⟨t, ht⟩ := List.exists_mem_of_ne_nil _ gap
    obtain ⟨member, unlisted⟩ := (uncovered t).1 ht
    exact ⟨.noGap, rfl, nodup, members, fun full => unlisted (full member), alone⟩
  | unreachableOtherwise nodup members full catchAll =>
    exact ⟨.noRedundance, rfl, nodup, members, full, Option.isSome_iff_ne_none.1 catchAll⟩

/-- No switch breaks two rules first. -/
theorem Breaks.unique {rule rule' : CoverageRule} (broken : u.Breaks s rule) (broken' : u.Breaks s rule') :
    rule = rule' := by
  cases rule <;> cases rule' <;> simp_all [Breaks]

theorem breaks_iff_of_perm (members : u.tags.Perm w.tags) (perm : s.cases.Perm s'.cases)
    (catchAll : s.otherwise = s'.otherwise) {rule : CoverageRule} : u.Breaks s rule ↔ w.Breaks s' rule := by
  have listed := Switch.tags_perm perm
  have inside : s.tags ⊆ u.tags ↔ s'.tags ⊆ w.tags := by
    rw [listed.subset_congr_left, members.subset_congr_right]
  have full : u.tags ⊆ s.tags ↔ w.tags ⊆ s'.tags := by
    rw [members.subset_congr_left, listed.subset_congr_right]
  cases rule <;> simp only [Breaks, listed.nodup_iff, inside, full, catchAll]

theorem check_eq_ok_iff_of_perm (members : u.tags.Perm w.tags) (perm : s.cases.Perm s'.cases)
    (catchAll : s.otherwise = s'.otherwise) : u.check s = .ok () ↔ w.check s' = .ok () := by
  have listed := Switch.tags_perm perm
  rw [check_eq_ok_iff, check_eq_ok_iff, listed.nodup_iff, listed.subset_congr_left, members.subset_congr_right,
    members.subset_congr_left, listed.subset_congr_right, catchAll]

/-- The errors of two orders may blame different tags, but for a breach of one rule. -/
theorem check_eq_error_of_perm (members : u.tags.Perm w.tags) (perm : s.cases.Perm s'.cases)
    (catchAll : s.otherwise = s'.otherwise) {e : Error} (h : u.check s = .error e) :
    ∃ e' rule, w.check s' = .error e' ∧ e.coverageRule? = some rule ∧ e'.coverageRule? = some rule := by
  obtain ⟨rule, hrule, broken⟩ := breaks_of_coverageFault (coverageFault_of_check h)
  cases h' : w.check s' with
  | ok =>
    rw [(check_eq_ok_iff_of_perm members perm catchAll).2 h'] at h
    cases h
  | error e' =>
    obtain ⟨rule', hrule', broken'⟩ := breaks_of_coverageFault (coverageFault_of_check h')
    obtain rfl := broken.unique ((breaks_iff_of_perm members perm catchAll).2 broken')
    exact ⟨e', rule, rfl, hrule, hrule'⟩

/-- The order of the cases and the order of the members do not matter. The check passes in both orders or in
none. If it passes, every value is dispatched by the same computation. If it does not, one and the same rule
is reported as broken; and where that is the rule on gaps or the one on redundance, which look at all cases
together, a rearrangement of the cases alone has the same error, to the word. -/
theorem matching_ignores_order (members : u.tags.Perm w.tags) (perm : s.cases.Perm s'.cases)
    (catchAll : s.otherwise = s'.otherwise) :
    (u.check s = .ok () ↔ w.check s' = .ok ()) ∧
    (u.check s = .ok () → ∀ host v, u.run host v s = w.run host v s') ∧
    (∀ e, u.check s = .error e →
      ∃ e' rule, w.check s' = .error e' ∧ e.coverageRule? = some rule ∧ e'.coverageRule? = some rule) ∧
    (∀ e, u.check s = .error e → e.coverageRule? = some .noGap ∨ e.coverageRule? = some .noRedundance →
      u.check s' = .error e) := by
  refine ⟨check_eq_ok_iff_of_perm members perm catchAll, fun h host v => ?_,
    fun e h => check_eq_error_of_perm members perm catchAll h, fun e h whole => ?_⟩
  · rw [run_of_check_eq_ok h, run_of_check_eq_ok ((check_eq_ok_iff_of_perm members perm catchAll).1 h)]
    exact Switch.dispatch_eq_of_perm (check_eq_ok_iff.1 h).1 perm catchAll host v
  · -- rules on all cases together are only looked at when no single case is at fault
    obtain ⟨rule, hrule, broken⟩ := breaks_of_coverageFault (coverageFault_of_check h)
    have single : s.tags.Nodup ∧ s.tags ⊆ u.tags := by
      rw [hrule, Option.some.injEq, Option.some.injEq] at whole
      rcases whole with rfl | rfl
      · exact ⟨broken.1, broken.2.1⟩
      · exact ⟨broken.1, broken.2.1⟩
    rw [← check_eq_of_perm single.1 single.2 perm catchAll, h]

/-- Circles and squares in either order, in the union as in the switch. A circle that is listed twice is
reported in front of a triangle that does not belong, in whichever order they are listed. -/
theorem matching_ignores_order_shapes :
    let circle : Tag := .nth 0 (some "Circle")
    let square : Tag := .nth 1 (some "Square")
    let triangle : Tag := .nth 2 (some "Triangle")
    let shapes : Union := ⟨0, [circle, square], by decide, by decide⟩
    let figures : Union := ⟨1, [square, circle], by decide, by decide⟩
    let s : Switch := { cases := [(circle, .tag square), (square, .tag circle)] }
    let s' : Switch := { cases := [(square, .tag circle), (circle, .tag square)] }
    let bad : Switch := { cases := [(triangle, .tag square), (circle, .tag square), (circle, .tag circle)] }
    let bad' : Switch := { cases := [(circle, .tag circle), (circle, .tag square), (triangle, .tag square)] }
    (∀ host v, shapes.run host v s = figures.run host v s') ∧
    shapes.check bad = .error (.repeatedCase circle) ∧
    ∃ e', figures.check bad' = .error e' ∧ e'.coverageRule? = some .noRepeat := by
  intro circle square triangle shapes figures s s' bad bad'
  have members : shapes.tags.Perm figures.tags := .swap _ _ []
  have swapped : s.cases.Perm s'.cases := .swap _ _ []
  have reversed : bad.cases.Perm bad'.cases := List.reverse_perm bad'.cases
  have fault : shapes.check bad = .error (.repeatedCase circle) := rfl
  refine ⟨(matching_ignores_order members swapped rfl).2.1 rfl, fault, ?_⟩
  obtain ⟨e', rule, reported, same, same'⟩ := (matching_ignores_order members reversed rfl).2.2.1 _ fault
  cases same
  exact ⟨e', reported, same'⟩

end Union

end TaggedUnion
