/-
Lists of clauses. A switch can be read back from the list of clauses that it is written as, and the
values in the places of handlers are exactly those that can be called.
-/
import TaggedUnion.Switch

namespace TaggedUnion

theorem Callable.callable?_toValue (c : Callable) : c.toValue.callable? = some c := by
  cases c <;> rfl

theorem Value.tag?_eq_some_iff {v : Value} {t : Tag} : v.tag? = some t ↔ v = .tag t := by
  constructor
  · intro h
    cases v <;> cases h
    rfl
  · rintro rfl
    rfl

theorem Value.callable?_eq_some_iff {v : Value} {c : Callable} : v.callable? = some c ↔ v = c.toValue := by
  constructor
  · intro h
    cases v <;> simp only [callable?, Option.some.injEq, reduceCtorEq] at h <;> subst h <;> rfl
  · rintro rfl
    exact c.callable?_toValue

namespace Switch

/-- The clauses of a switch are read one case after another, whatever their number. -/
theorem ofClausesFrom_clauses (cases : List (Tag × Callable)) (otherwise : Option Callable) (index : Nat) :
    ofClausesFrom index (Switch.clauses ⟨cases, otherwise⟩) = .ok ⟨cases, otherwise⟩ := by
  -- the number of the clause is only used in errors, but it grows with every case
  induction cases generalizing index with
  | nil =>
    cases otherwise with
    | none => rfl
    | some g =>
      show ofClausesFrom index [g.toValue] = _
      rw [ofClausesFrom, g.callable?_toValue]
  | cons c cases ih =>
    obtain ⟨t, handler⟩ := c
    show ofClausesFrom index (.tag t :: handler.toValue :: Switch.clauses ⟨cases, otherwise⟩) = _
    rw [ofClausesFrom]
    simp only [Value.tag?, handler.callable?_toValue, ih]
    rfl

theorem ofClauses_clauses (s : Switch) : ofClauses s.clauses = .ok s :=
  ofClausesFrom_clauses s.cases s.otherwise 0

/-- Clauses that can be read are those of the switch they are read as. -/
theorem clauses_of_ofClausesFrom {index : Nat} {clauses : List Value} {s : Switch}
    (h : ofClausesFrom index clauses = .ok s) : s.clauses = clauses := by
  fun_induction ofClausesFrom index clauses generalizing s with
  | case1 => cases h; rfl
  | case2 index last handler hc =>
    cases h
    rw [Value.callable?_eq_some_iff.1 hc]
    rfl
  | case3 => cases h
  | case4 index first second rest t handler hc ht ih =>
    cases hs : ofClausesFrom (index + 1) rest with
    | error e => rw [hs] at h; cases h
    | ok s' =>
      rw [hs] at h
      cases h
      rw [Value.tag?_eq_some_iff.1 ht, Value.callable?_eq_some_iff.1 hc, ← ih hs]
      rfl
  | case5 => cases h
  | case6 => cases h

theorem clauses_of_ofClauses {clauses : List Value} {s : Switch} (h : ofClauses clauses = .ok s) :
    s.clauses = clauses :=
  clauses_of_ofClausesFrom h

end Switch

end TaggedUnion
