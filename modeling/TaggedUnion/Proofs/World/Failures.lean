/-
Failures are atomic. An operation fails on its own account or because what it calls fails. On its own account
it does so before anything is called or recorded, and nothing has been made by then, but for the tags of a named union
with a repeated name. What is wrong with a switch does not depend on the value.
-/
import TaggedUnion.Proofs.World.Calls

namespace TaggedUnion

open Script (Binding)

namespace Operation

variable {op : Operation} {host : Host} {h h' : History} {e : Error}

/-- A failure on an operation's own account, seen from the failure. -/
theorem own_failure (uncalled : ∀ r c args, ¬ op.Calls r c args) (failed : op.apply host h = .error e h') :
    (op.Refuses e ∧ h' = h) ∨ ∃ names name, op.Repeats names name ∧ e = .repeatedName name := by
  rcases outcome_of_not_calls uncalled with ⟨e', refuses⟩ | ⟨names, name, repeats⟩ | succeeds
  · rw [refuses host h] at failed
    cases failed
    exact .inl ⟨refuses, rfl⟩
  · rw [repeats.apply_eq host h] at failed
    cases failed
    exact .inr ⟨names, name, repeats, rfl⟩
  · obtain ⟨b, h'', made, -⟩ := succeeds host h
    rw [made] at failed
    cases failed

/-- Failures are atomic, whatever happened before. An operation that comes down to a call fails only as the call
does. One that fails on its own account leaves the history as it was, so that it has called, recorded and made
nothing, and does so for every host; only a named union with a repeated name leaves its tags, which are made
and put on record, one for each name, and nothing else. Unwrapping into arbitrary code does not enter it where it is
refused, and a union that is called has called nothing in turn. Faults in the clauses, and of a switch against
a union, are the same for every value. -/
theorem failures_atomic (op : Operation) (h : History) :
    (∀ r c args, op.Calls r c args →
      ∀ host, op.apply host h = (Binding.value <$> c.call host args) (h.recording r)) ∧
    ((∀ r c args, ¬ op.Calls r c args) → ∀ host e h', op.apply host h = .error e h' →
      (∀ host', op.apply host' h = .error e h') ∧
      (h' = h ∨ ∃ names name, op.Repeats names name ∧ e = .repeatedName name)) ∧
    (∀ names name, op.Repeats names name → ∃ (ts : List Tag) (h' : History), ts.length = names.length ∧
      (∀ host, op.apply host h = .error (.repeatedName name) h') ∧
      h'.tags = h.tags + names.length ∧ h'.objects = h.objects ∧
      h'.events.toList = h.events.toList ++ ts.map fun t => .recorded (.tagCreated t)) ∧
    (∀ {α : Type} (t : Tag) (v : Value) (f : List Value → Run α),
      (t.is v = false → t.unwrap v f h = .error (.cannotUnwrap v t) h) ∧
      (∀ x, v.tagged? = some x → t.owns x = true → t.unwrap v f h = f x.payload h)) ∧
    (∀ host u args, (Value.union u).call host args h =
      .error (.unionCalled u) (h.noting (.called (.union u) args))) ∧
    (∀ clauses e, Switch.ofClauses clauses = .error e →
      Run.ofExcept (Switch.ofClauses clauses) h = .error e h ∧
      ∀ u v, (Operation.switch u v clauses).Refuses e) ∧
    (∀ u s e, u.check s = .error e →
      Run.ofExcept (u.check s) h = .error e h ∧
      ∀ v, (Operation.run u v s).Refuses e ∧
        ∀ clauses, Switch.ofClauses clauses = .ok s → (Operation.switch u v clauses).Refuses e) := by
  refine ⟨fun r c args calls host => calls.apply_eq host h, fun uncalled host e h' failed => ?_,
    fun names name repeats => ?_, fun t v f => ⟨fun stranger => ?_, fun x tagged own => ?_⟩, fun host u args => rfl,
    fun clauses e unreadable => ⟨?_, fun u v => ?_⟩, fun u s e uncovered => ⟨?_, fun v => ⟨?_, fun clauses made => ?_⟩⟩⟩
  · rcases own_failure uncalled failed with ⟨refuses, rfl⟩ | ⟨names, name, repeats, rfl⟩
    · exact ⟨fun host' => refuses host' h', .inl rfl⟩
    · refine ⟨fun host' => ?_, .inr ⟨names, name, repeats, rfl⟩⟩
      rw [← failed, repeats.apply_eq, repeats.apply_eq]
  · refine ⟨Tag.series h.tags names, _, Tag.length_series, fun host => repeats.apply_eq host h, ?_, rfl, ?_⟩
    · exact congrArg (h.tags + ·) Tag.length_series
    · simp only [History.withTags, Array.toList_appendList]
  · rw [Tag.unwrap_of_not_is stranger]
    rfl
  · rw [Tag.unwrap_of_owns tagged own]
  · rw [unreadable]
    rfl
  · exact (IsMatch.switch u v clauses).refuses_of_read unreadable
  · rw [uncovered]
    rfl
  · exact (IsMatch.run u v s).refuses_of_check rfl uncovered
  · exact (IsMatch.switch u v clauses).refuses_of_check made uncovered

end Operation

end TaggedUnion
