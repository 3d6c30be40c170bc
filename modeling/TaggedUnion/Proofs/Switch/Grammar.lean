/-
The grammar of lists of clauses, slot by slot. A tag is due in every even slot that has a slot behind it, and
something that can be called in all the others: in the odd slots as handlers, and in a last slot that is left over
as the catch-all. Reading accepts exactly the lists that keep to this, and otherwise reports the leftmost slot that
does not. What it makes of them calls what is in the slots, and the list that a switch is written as gives the
switch back.
-/
import TaggedUnion.Proofs.Earliest
import TaggedUnion.Proofs.Switch.Clauses

namespace TaggedUnion

/-! ## What can be called -/

/-- Whether a value is one of those that can be called. -/
def Value.CanBeCalled (v : Value) : Prop := (∃ f, v = .function f) ∨ (∃ t, v = .tag t) ∨ ∃ u, v = .union u

theorem Value.canBeCalled_iff {v : Value} : v.CanBeCalled ↔ v.callable? ≠ none := by
  unfold CanBeCalled
  cases v <;> simp [callable?]

/-- Whether a callable does what a value does: calls of it are calls of the value, and the function that can be
made of the value does the same when it is called. -/
structure Callable.ActsAs (c : Callable) (v : Value) : Prop where
  call : ∀ host args, c.call host args = v.call host args
  function : ∀ h, ∃ f h', v.toFunction? h = .ok (some f) h' ∧ ∀ host args, v.call host args = (do
    Run.note (.called c args)
    f.apply host args)

theorem Callable.actsAs_toValue (c : Callable) : c.ActsAs c.toValue := by
  have call : ∀ host args, c.toValue.call host args = c.call host args := by
    intro host args
    rw [Value.call, c.callable?_toValue]
  refine ⟨fun host args => (call host args).symm, fun h => ?_⟩
  simp only [call]
  cases c with
  | function f => exact ⟨f, h, rfl, fun _ _ => rfl⟩
  | tag t => exact ⟨_, _, rfl, fun _ _ => rfl⟩
  | union u => exact ⟨_, _, rfl, fun _ _ => rfl⟩

namespace Switch

variable {vs rest : List Value} {v first second last : Value} {s : Switch} {i index : Nat}

/-! ## Slots -/

/-- The grammar of lists of clauses. -/
structure Grammar (vs : List Value) : Prop where
  tags : ∀ k v, vs[2 * k]? = some v → 2 * k + 1 < vs.length → ∃ t, v = .tag t
  handlers : ∀ k v, vs[2 * k + 1]? = some v → v.CanBeCalled
  catchAll : vs.length % 2 = 1 → ∀ v, vs.getLast? = some v → v.CanBeCalled

/-- Whether a tag is due in a slot: it is the first of a pair. -/
def TagDue (vs : List Value) (i : Nat) : Prop := i % 2 = 0 ∧ i + 1 < vs.length

/-- Whether the value in a slot is none of those that are due there. -/
def Offends (vs : List Value) (i : Nat) : Prop :=
  ∃ v ∈ vs[i]?, (TagDue vs i ∧ v.tag? = none) ∨ (¬ TagDue vs i ∧ v.callable? = none)

theorem not_offends_nil : ¬ Offends [] i := by
  simp [Offends]

theorem offends_singleton_iff : Offends [last] i ↔ i = 0 ∧ last.callable? = none := by
  cases i <;> simp [Offends, TagDue]

theorem offends_zero_iff : Offends (first :: second :: rest) 0 ↔ first.tag? = none := by
  simp [Offends, TagDue]

theorem offends_one_iff : Offends (first :: second :: rest) 1 ↔ second.callable? = none := by
  simp [Offends, TagDue]

theorem tagDue_add_two_iff : TagDue (first :: second :: rest) (i + 2) ↔ TagDue rest i := by
  unfold TagDue
  simp only [List.length_cons]
  omega

/-- Behind the first pair the slots are those of the rest. -/
theorem offends_add_two_iff : Offends (first :: second :: rest) (i + 2) ↔ Offends rest i := by
  simp [Offends, tagDue_add_two_iff]

theorem offends_odd_iff {k : Nat} : Offends vs (2 * k + 1) ↔ ∃ v, vs[2 * k + 1]? = some v ∧ v.callable? = none := by
  have notDue : ¬ TagDue vs (2 * k + 1) := by unfold TagDue; omega
  simp [Offends, notDue]

theorem offends_even_iff {k : Nat} (followed : 2 * k + 1 < vs.length) :
    Offends vs (2 * k) ↔ ∃ v, vs[2 * k]? = some v ∧ v.tag? = none := by
  have due : TagDue vs (2 * k) := ⟨by omega, followed⟩
  simp [Offends, due]

/-- The last slot of an odd number is left over by the pairs. -/
theorem offends_last_iff {k : Nat} (last : vs.length = 2 * k + 1) :
    Offends vs (2 * k) ↔ ∃ v, vs.getLast? = some v ∧ v.callable? = none := by
  have notDue : ¬ TagDue vs (2 * k) := by unfold TagDue; omega
  simp [Offends, notDue, List.getLast?_eq_getElem?, last]

/-- A list keeps to the grammar if no slot of it offends. -/
theorem grammar_iff : Grammar vs ↔ ∀ i, ¬ Offends vs i := by
  constructor
  · rintro ⟨tags, handlers, catchAll⟩ i offence
    have inside : i < vs.length := by
      obtain ⟨v, hv, -⟩ := offence
      exact (List.getElem?_eq_some_iff.1 hv).1
    obtain ⟨k, rfl | rfl⟩ : ∃ k, i = 2 * k ∨ i = 2 * k + 1 := ⟨i / 2, by omega⟩
    · by_cases followed : 2 * k + 1 < vs.length
      · obtain ⟨v, hv, noTag⟩ := (offends_even_iff followed).1 offence
        obtain ⟨t, rfl⟩ := tags k v hv followed
        cases noTag
      · obtain ⟨v, hv, bad⟩ := (offends_last_iff (by omega)).1 offence
        exact Value.canBeCalled_iff.1 (catchAll (by omega) v hv) bad
    · obtain ⟨v, hv, bad⟩ := offends_odd_iff.1 offence
      exact Value.canBeCalled_iff.1 (handlers k v hv) bad
  · intro fits
    refine ⟨fun k v hv followed => ?_, fun k v hv => ?_, fun odd v hv => ?_⟩
    · have tag : v.tag? ≠ none := fun noTag => fits _ ((offends_even_iff followed).2 ⟨v, hv, noTag⟩)
      obtain ⟨t, ht⟩ := Option.ne_none_iff_exists'.1 tag
      exact ⟨t, Value.tag?_eq_some_iff.1 ht⟩
    · exact Value.canBeCalled_iff.2 fun bad => fits _ (offends_odd_iff.2 ⟨v, hv, bad⟩)
    · have last : vs.length = 2 * (vs.length / 2) + 1 := by omega
      exact Value.canBeCalled_iff.2 fun bad => fits _ ((offends_last_iff last).2 ⟨v, hv, bad⟩)

/-! ## Faults -/

/-- What is wrong with a list of clauses: the value in its leftmost slot of all that offend. `index` is the number of
the first clause. -/
inductive ClauseFault (index : Nat) (vs : List Value) : Error → Prop where
  | clauseNotTag {k : Nat} {v : Value} (leftmost : IsLeast {i | Offends vs i} (2 * k))
      (here : vs[2 * k]? = some v) (followed : 2 * k + 1 < vs.length) :
      ClauseFault index vs (.clauseNotTag (index + k) v.kind)
  | clauseNotCallable {k : Nat} {t : Tag} {v : Value} (leftmost : IsLeast {i | Offends vs i} (2 * k + 1))
      (tag : vs[2 * k]? = some (.tag t)) (here : vs[2 * k + 1]? = some v) :
      ClauseFault index vs (.clauseNotCallable (index + k) t v.kind)
  /-- Every pair is as it should be, and a value is left over that cannot be called. -/
  | otherwiseNotCallable {k : Nat} {v : Value} (leftmost : IsLeast {i | Offends vs i} (2 * k))
      (here : vs[2 * k]? = some v) (last : vs.length = 2 * k + 1) :
      ClauseFault index vs (.otherwiseNotCallable v.kind)

theorem ClauseFault.exists_offends {e : Error} (fault : ClauseFault index vs e) : ∃ i, Offends vs i := by
  cases fault with
  | clauseNotTag leftmost | clauseNotCallable leftmost | otherwiseNotCallable leftmost => exact ⟨_, leftmost.1⟩

theorem ClauseFault.unique {e e' : Error} (fault : ClauseFault index vs e) (fault' : ClauseFault index vs e') :
    e = e' := by
  cases fault with
  | clauseNotTag leftmost here followed =>
    cases fault' with
    | clauseNotTag leftmost' here' =>
      obtain rfl := Nat.eq_of_mul_eq_mul_left Nat.two_pos (leftmost.unique leftmost')
      rw [Option.some.inj (here.symm.trans here')]
    | clauseNotCallable leftmost' =>
      have := leftmost.unique leftmost'; omega
    | otherwiseNotCallable leftmost' here' last =>
      have := leftmost.unique leftmost'; omega
  | clauseNotCallable leftmost tag here =>
    cases fault' with
    | clauseNotCallable leftmost' tag' here' =>
      obtain rfl := Nat.eq_of_mul_eq_mul_left Nat.two_pos (Nat.succ.inj (leftmost.unique leftmost'))
      cases tag.symm.trans tag'
      rw [Option.some.inj (here.symm.trans here')]
    | clauseNotTag leftmost' | otherwiseNotCallable leftmost' =>
      have := leftmost.unique leftmost'; omega
  | otherwiseNotCallable leftmost here last =>
    cases fault' with
    | otherwiseNotCallable leftmost' here' =>
      rw [leftmost.unique leftmost', here'] at here
      rw [Option.some.inj here]
    | clauseNotTag leftmost' here' followed =>
      have := leftmost.unique leftmost'; omega
    | clauseNotCallable leftmost' =>
      have := leftmost.unique leftmost'; omega

/-- A fault of the rest is the fault of the whole if the first pair is as it should be. -/
theorem ClauseFault.cons_cons {e : Error} (tag : first.tag? ≠ none) (callable : second.callable? ≠ none)
    (fault : ClauseFault (index + 1) rest e) : ClauseFault index (first :: second :: rest) e := by
  have shift : ∀ {j}, IsLeast {i | Offends rest i} j →
      IsLeast {i | Offends (first :: second :: rest) i} (j + 2) := by
    intro j least
    refine (isLeast_succ_iff (mt offends_zero_iff.1 tag)).2 ((isLeast_succ_iff (mt offends_one_iff.1 callable)).2 ?_)
    simpa only [offends_add_two_iff] using least
  cases fault with
  | @clauseNotTag k v leftmost here followed =>
    rw [Nat.add_right_comm]
    exact .clauseNotTag (k := k + 1) (shift leftmost) here (by simp only [List.length_cons]; omega)
  | @clauseNotCallable k t v leftmost tag here =>
    rw [Nat.add_right_comm]
    exact .clauseNotCallable (k := k + 1) (shift leftmost) tag here
  | @otherwiseNotCallable k v leftmost here last =>
    exact .otherwiseNotCallable (k := k + 1) (shift leftmost) here (by simp only [List.length_cons]; omega)

theorem clauseFault_of_ofClausesFrom {e : Error} (h : ofClausesFrom index vs = .error e) : ClauseFault index vs e := by
  fun_induction ofClausesFrom index vs generalizing e with
  | case1 => cases h
  | case2 => cases h
  | case3 index last bad =>
    cases h
    exact .otherwiseNotCallable (k := 0) (isLeast_zero_iff.2 (offends_singleton_iff.2 ⟨rfl, bad⟩)) rfl rfl
  | case4 index first second rest t handler callable tag ih =>
    cases hrest : ofClausesFrom (index + 1) rest with
    | ok s => rw [hrest] at h; cases h
    | error e' =>
      rw [hrest] at h
      cases h
      exact (ih hrest).cons_cons (by rw [tag]; simp) (by rw [callable]; simp)
  | case5 index first second rest t bad tag =>
    cases h
    have skip : ¬ Offends (first :: second :: rest) 0 := by rw [offends_zero_iff, tag]; simp
    refine .clauseNotCallable (k := 0) ((isLeast_succ_iff skip).2 (isLeast_zero_iff.2 (offends_one_iff.2 bad))) ?_ rfl
    exact congrArg some (Value.tag?_eq_some_iff.1 tag)
  | case6 index first second rest bad =>
    cases h
    exact .clauseNotTag (k := 0) (isLeast_zero_iff.2 (offends_zero_iff.2 bad)) rfl (by simp)

theorem fits_of_ofClausesFrom (h : ofClausesFrom index vs = .ok s) : ¬ Offends vs i := by
  fun_induction ofClausesFrom index vs generalizing s i with
  | case1 => exact not_offends_nil
  | case2 index last handler callable => simp [offends_singleton_iff, callable]
  | case3 => cases h
  | case4 index first second rest t handler callable tag ih =>
    cases hrest : ofClausesFrom (index + 1) rest with
    | error e => rw [hrest] at h; cases h
    | ok s' =>
      rcases i with _ | _ | i
      · simp [offends_zero_iff, tag]
      · simp [offends_one_iff, callable]
      · exact mt offends_add_two_iff.1 (ih hrest)
  | case5 => cases h
  | case6 => cases h

theorem exists_ofClauses_eq_ok_iff : (∃ s, ofClauses vs = .ok s) ↔ Grammar vs := by
  rw [grammar_iff]
  constructor
  · rintro ⟨s, hs⟩ i
    exact fits_of_ofClausesFrom hs
  · intro fits
    cases h : ofClauses vs with
    | ok s => exact ⟨s, rfl⟩
    | error e =>
      obtain ⟨i, offence⟩ := (clauseFault_of_ofClausesFrom h).exists_offends
      exact absurd offence (fits i)

theorem ofClauses_eq_error_iff {e : Error} : ofClauses vs = .error e ↔ ClauseFault 0 vs e := by
  constructor
  · exact clauseFault_of_ofClausesFrom
  · intro fault
    cases h : ofClauses vs with
    | ok s =>
      obtain ⟨i, offence⟩ := fault.exists_offends
      exact absurd offence (fits_of_ofClausesFrom h)
    | error e' => rw [fault.unique (clauseFault_of_ofClausesFrom h)]

/-! ## What is read -/

theorem clauses_cons (c : Tag × Callable) (cases : List (Tag × Callable)) (otherwise : Option Callable) :
    clauses ⟨c :: cases, otherwise⟩ = .tag c.1 :: c.2.toValue :: clauses ⟨cases, otherwise⟩ := rfl

/-- A case takes two slots, and the catch-all one. -/
theorem length_clauses (s : Switch) : s.clauses.length = 2 * s.cases.length + s.otherwise.toList.length := by
  obtain ⟨cases, otherwise⟩ := s
  induction cases with
  | nil => cases otherwise <;> rfl
  | cons c cases ih =>
    simp only [clauses_cons, List.length_cons] at ih ⊢
    omega

theorem getElem?_clauses {t : Tag} {handler : Callable} (h : s.cases[i]? = some (t, handler)) :
    s.clauses[2 * i]? = some (.tag t) ∧ s.clauses[2 * i + 1]? = some handler.toValue := by
  obtain ⟨cases, otherwise⟩ := s
  induction cases generalizing i with
  | nil => cases h
  | cons c cases ih =>
    rw [clauses_cons]
    cases i with
    | zero => cases h; exact ⟨rfl, rfl⟩
    | succ i => exact ih h

theorem getLast?_clauses {g : Callable} (h : s.otherwise = some g) : s.clauses.getLast? = some g.toValue := by
  simp [clauses, h]

/-- Switches that are put together case by case from functions, with the cases and the catch-all that they were given;
of several catch-alls the last one counts. -/
inductive Built : Switch → List (Tag × Function) → Option Function → Prop where
  | new : Built {} [] none
  | addCase {s : Switch} {cases : List (Tag × Function)} {otherwise : Option Function}
      (before : Built s cases otherwise) (t : Tag) (f : Function) :
      Built (s.addCase t (.function f)) (cases ++ [(t, f)]) otherwise
  | withOtherwise {s : Switch} {cases : List (Tag × Function)} {otherwise : Option Function}
      (before : Built s cases otherwise) (f : Function) : Built (s.withOtherwise (.function f)) cases (some f)

/-- The cases and the catch-all of a switch are those that it was given. -/
theorem Built.eq_mk {cases : List (Tag × Function)} {otherwise : Option Function} (built : Built s cases otherwise) :
    s = ⟨cases.map fun c => (c.1, .function c.2), otherwise.map .function⟩ := by
  induction built with
  | new => rfl
  | addCase before t f ih => simp [ih, Switch.addCase]
  | withOtherwise before f ih => simp [ih, Switch.withOtherwise]

/-- Lists of clauses are read by their grammar, and otherwise the leftmost slot that offends is reported, in these
words; so the catch-all is only to blame if every pair is as it should be. What is read has the tags of the even slots
as cases, in order, and its handlers and its catch-all do what the values in the other slots do. The clauses of a switch
that is put together from functions are read as the same switch. -/
theorem ofClauses_reads_grammar [Text.Glyphs] (vs : List Value) :
    ((∃ s, ofClauses vs = .ok s) ↔ Grammar vs) ∧
    (∀ s, ofClauses vs = .ok s →
      s.cases.length = vs.length / 2 ∧
      (∀ (k : Nat) t handler, s.cases[k]? = some (t, handler) → vs[2 * k]? = some (.tag t) ∧
        ∃ v, vs[2 * k + 1]? = some v ∧ handler.ActsAs v) ∧
      (s.otherwise.isSome ↔ vs.length % 2 = 1) ∧
      (∀ g, s.otherwise = some g → ∃ v, vs.getLast? = some v ∧ g.ActsAs v)) ∧
    (∀ e, ofClauses vs = .error e ↔ ClauseFault 0 vs e) ∧
    (∀ e, ClauseFault 0 vs e → e.kind = .type) ∧
    (∀ found, ofClauses vs = .error (.otherwiseNotCallable found) → ∀ i, i + 1 < vs.length → ¬ Offends vs i) ∧
    (∀ k found, (Error.clauseNotTag k found).message =
      "type error: " ++ ("Clause " ++ toString k ++ ": type must be a Tag, got " ++ found.name)) ∧
    (∀ k t found, (Error.clauseNotCallable k t found).message = "type error: " ++
      ("Clause " ++ toString k ++ ": handler for " ++ t.display ++ " must be a function, got " ++ found.name)) ∧
    (∀ found, (Error.otherwiseNotCallable found).message =
      "type error: " ++ ("The catch-all must be a function, got " ++ found.name)) ∧
    (∀ s cases otherwise, Built s cases otherwise →
      ofClauses ((cases.flatMap fun c => [.tag c.1, .function c.2]) ++ (otherwise.map .function).toList) = .ok s ∧
      s.cases = cases.map (fun c => (c.1, .function c.2)) ∧ s.otherwise = otherwise.map .function) := by
  refine ⟨exists_ofClauses_eq_ok_iff, fun s hs => ?_, fun e => ofClauses_eq_error_iff, fun e fault => ?_,
    fun found h i followed offence => ?_, fun k found => rfl, fun k t found => rfl, fun found => rfl,
    fun s cases otherwise built => ?_⟩
  · obtain rfl := clauses_of_ofClauses hs
    have length := s.length_clauses
    have one : s.otherwise.toList.length = if s.otherwise.isSome then 1 else 0 := by cases s.otherwise <;> rfl
    refine ⟨?_, fun k t handler hk => ?_, ?_, fun g hg => ⟨_, getLast?_clauses hg, g.actsAs_toValue⟩⟩
    · split at one <;> omega
    · obtain ⟨tag, callable⟩ := getElem?_clauses hk
      exact ⟨tag, _, callable, handler.actsAs_toValue⟩
    · split at one <;> simp_all
  · cases fault <;> rfl
  · cases ofClauses_eq_error_iff.1 h with
    | otherwiseNotCallable leftmost here last =>
      have := leftmost.2 offence
      omega
  · obtain rfl := built.eq_mk
    refine ⟨?_, rfl, rfl⟩
    have written := ofClauses_clauses ⟨cases.map fun c => (c.1, .function c.2), otherwise.map .function⟩
    rw [clauses, List.flatMap_map, Option.map_map] at written
    exact written

end Switch

end TaggedUnion
