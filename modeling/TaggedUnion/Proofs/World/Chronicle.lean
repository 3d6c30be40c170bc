/-
Chronicles: runs with what their constructions have made. Functions, tagged values and unions are numbered
0, 1, 2, ... in the order in which they are made, and every one that a program ever gets hold of is one of them, as
it was made. So the number tells which construction an object comes from.
-/
import TaggedUnion.Proofs.World.Calls

namespace TaggedUnion

open Script (Binding)

/-! ## What effects make -/

namespace World

variable {w w' : World} {made : List Object}

/-- One effect makes at most one object other than a tag, and it gets the next number. -/
theorem Effect.makes (next : w.Effect w') :
    (∃ o, o.number? = some w.history.objects ∧ w'.history.objects = w.history.objects + 1 ∧
      w'.objects = o :: w.objects) ∨
    (w'.history.objects = w.history.objects ∧
      ∀ o ∈ w'.objects, o.number? ≠ none → o ∈ w.objects) := by
  cases next with
  | tag name =>
    refine .inr ⟨rfl, fun o ho numbered => (List.mem_cons.1 ho).resolve_left ?_⟩
    rintro rfl
    exact numbered rfl
  | union | tagged | function => exact .inl ⟨_, rfl, rfl, rfl⟩
  | call | dispatch => exact .inr ⟨rfl, fun _ ho _ => ho⟩

/-- What every run keeps: the objects of a world have been counted, and their numbers tell them apart. -/
structure Individual (w : World) : Prop where
  below : ∀ o ∈ w.objects, ∀ i, o.number? = some i → i < w.history.objects
  single : ∀ o ∈ w.objects, ∀ o' ∈ w.objects, ∀ i, o.number? = some i → o'.number? = some i → o = o'

theorem individual_start : Individual {} :=
  ⟨fun _ ho => absurd ho List.not_mem_nil, fun _ ho => absurd ho List.not_mem_nil⟩

theorem Effect.individual (next : w.Effect w') (before : w.Individual) : w'.Individual := by
  obtain ⟨below, single⟩ := before
  rcases next.makes with ⟨new, number, count, objects⟩ | ⟨count, old⟩
  · -- the new object has a number that none of the others has
    have fresh : ∀ o ∈ w.objects, o.number? ≠ new.number? := by
      intro o ho same
      exact absurd (below o ho _ (same.trans number)) (Nat.lt_irrefl _)
    constructor
    · rw [objects, count]
      intro o ho i hi
      rcases List.mem_cons.1 ho with rfl | old
      · rw [number, Option.some.injEq] at hi
        omega
      · exact Nat.lt_succ_of_lt (below o old i hi)
    · rw [objects]
      intro o ho o' ho' i hi hi'
      rcases List.mem_cons.1 ho with rfl | old <;> rcases List.mem_cons.1 ho' with rfl | old'
      · rfl
      · exact absurd (hi'.trans hi.symm) (fresh o' old')
      · exact absurd (hi.trans hi'.symm) (fresh o old)
      · exact single o old o' old' i hi hi'
  · have known : ∀ o ∈ w'.objects, ∀ i, o.number? = some i → o ∈ w.objects := fun o ho i hi =>
      old o ho (by rw [hi]; exact Option.some_ne_none i)
    constructor
    · rw [count]
      exact fun o ho i hi => below o (known o ho i hi) i hi
    · exact fun o ho o' ho' i hi hi' => single o (known o ho i hi) o' (known o' ho' i hi') i hi hi'

theorem Leads.individual (leads : w.Leads w') (before : w.Individual) : w'.Individual := by
  induction leads with
  | refl => exact before
  | tail _ next ih => exact next.individual ih

theorem Reachable.individual (run : w.Reachable) : w.Individual := by
  obtain ⟨os, leads, known⟩ := run.leads
  obtain ⟨below, single⟩ := leads.individual individual_start
  exact ⟨fun o ho => below o (known ho), fun o ho o' ho' => single o (known ho) o' (known ho')⟩

end World

/-! ## What operations make -/

namespace Operation

variable {op : Operation} {h : History}

theorem IsMatch.unique {u u' : Union} {v v' : Value} {read read' : Except Error Switch}
    (isMatch : op.IsMatch u v read) (isMatch' : op.IsMatch u' v' read') : u = u' ∧ v = v' ∧ read = read' := by
  cases isMatch <;> cases isMatch' <;> exact ⟨rfl, rfl, rfl⟩

/-- An operation comes down to one call at most. -/
theorem Calls.callee_unique {r r' : Option Record} {c c' : Callable} {args args' : List Value}
    (calls : op.Calls r c args) (calls' : op.Calls r' c' args') : c = c' := by
  cases calls with
  | unwrap f tagged own =>
    cases calls' with
    | unwrap => rfl
    | dispatch isMatch => cases isMatch
  | call args callable =>
    cases calls' with
    | call _ callable' => exact Option.some.inj (callable.symm.trans callable')
    | dispatch isMatch => cases isMatch
  | dispatch isMatch made covered picked =>
    cases calls' with
    | unwrap | call => cases isMatch
    | dispatch isMatch' made' covered' picked' =>
      obtain ⟨-, rfl, rfl⟩ := isMatch.unique isMatch'
      obtain rfl := Except.ok.inj (made.symm.trans made')
      rw [Option.some.inj (picked.symm.trans picked')]

theorem Calls.not_constructs {r : Option Record} {c : Callable} {args : List Value} (calls : op.Calls r c args)
    (other : c.tag? = none) : ¬ op.Constructs := by
  rintro ⟨o, makes⟩
  cases makes with
  | call calls' tag =>
    rw [calls'.callee_unique calls, other] at tag
    cases tag
  | _ =>
    cases calls with
    | dispatch isMatch => cases isMatch

end Operation

/-- Where it stops at the host's functions, a call that comes to no tag makes nothing. -/
theorem Callable.objects_after_call_echo {c : Callable} (other : c.tag? = none) (args : List Value) (h : History) :
    ((c.call World.echo args).after h).objects = h.objects := by
  cases c with
  | function f =>
    obtain ⟨ident, code⟩ := f
    cases code with
    | tag => cases other
    | host | union => rfl
  | tag => cases other
  | union => rfl

/-- Where it stops at the host's functions, an operation makes one object if it is a construction that succeeds,
and otherwise none. -/
theorem Operation.tallies_echo (op : Operation) (h : History) :
    match op.apply World.echo h with
    | .ok b h' => op.Tallies b h h'
    | .error _ h' => h'.objects = h.objects := by
  by_cases calls : ∃ r c args, op.Calls r c args
  · obtain ⟨r, c, args, calls⟩ := calls
    have count := h.objects_recording r
    rw [calls.apply_eq, map_eq_pure_bind, Run.bind_apply]
    cases tag : c.tag? with
    | some t =>
      rw [Callable.call_of_tag tag]
      exact (Makes.call calls tag _).tallies rfl (congrArg some count) (congrArg (· + 1) count)
    | none =>
      have kept := (Callable.objects_after_call_echo tag args (h.recording r)).trans count
      unfold Run.after at kept
      cases outcome : c.call World.echo args (h.recording r) with
      | ok v h' =>
        rw [outcome] at kept
        exact tallies_of_not_constructs (calls.not_constructs tag) kept
      | error e h' =>
        rw [outcome] at kept
        exact kept
  · have uncalled : ∀ r c args, ¬ op.Calls r c args := fun r c args called => calls ⟨r, c, args, called⟩
    rcases outcome_of_not_calls uncalled with ⟨e, refuses⟩ | ⟨names, name, repeats⟩ | succeeds
    · rw [refuses World.echo h]
    · rw [repeats.apply_eq World.echo h]
      rfl
    · obtain ⟨b, h', outcome, tallies⟩ := succeeds World.echo h
      rw [outcome]
      exact tallies

/-! ## Chronicles -/

namespace World

variable {w w' : World} {made : List Object}

/-- A run to a world, with the objects that its constructions made, in order. Its steps are those of `World.Step`; a
construction that succeeds adds its result to what has been made, and nothing else does. -/
inductive Chronicle : World → List Object → Prop where
  | start : Chronicle {} []
  | construction {w : World} {made : List Object} (op : Operation) {b : Binding} {h : History} {o : Object}
      (before : Chronicle w made) (operands : ∀ a ∈ op.operands, w.Has a)
      (outcome : ∀ host, op.apply host w.history = .ok b h) (makes : op.Makes o)
      (subject : b.subject? = some o) : Chronicle ⟨h, w.objects ++ b.objects⟩ (made ++ [o])
  | result {w : World} {made : List Object} (op : Operation) {b : Binding} {h : History}
      (before : Chronicle w made) (operands : ∀ a ∈ op.operands, w.Has a)
      (outcome : ∀ host, op.apply host w.history = .ok b h) (other : ¬ op.Constructs) :
      Chronicle ⟨h, w.objects ++ b.objects⟩ made
  | failure {w : World} {made : List Object} (op : Operation) {e : Error} {h : History}
      (before : Chronicle w made) (operands : ∀ a ∈ op.operands, w.Has a)
      (outcome : ∀ host, op.apply host w.history = .error e h) : Chronicle ⟨h, w.objects⟩ made
  | entry {w : World} {made : List Object} (op : Operation) {f : Function} {args : List Value} {h : History}
      (before : Chronicle w made) (operands : ∀ a ∈ op.operands, w.Has a)
      (outcome : ∀ host, op.apply host w.history = (Binding.value <$> host f args) h) :
      Chronicle ⟨h, w.objects ++ Value.objectsList args⟩ made

theorem Chronicle.reachable (run : Chronicle w made) : w.Reachable := by
  induction run with
  | start => exact .start
  | construction op before operands outcome makes subject ih => exact ih.step (.result op operands outcome)
  | result op before operands outcome other ih => exact ih.step (.result op operands outcome)
  | failure op before operands outcome ih => exact ih.step (.failure op operands outcome)
  | entry op before operands outcome ih => exact ih.step (.entry op operands outcome)

/-- Every step goes on with a chronicle. -/
theorem Chronicle.step (run : Chronicle w made) (next : w.Step w') : ∃ new, Chronicle w' (made ++ new) := by
  cases next with
  | @result op b h operands outcome =>
    by_cases constructs : op.Constructs
    · have tallies := op.tallies_echo w.history
      simp only [outcome echo] at tallies
      obtain ⟨o, subject, makes, -⟩ := tallies.made constructs
      exact ⟨[o], .construction op run operands outcome makes subject⟩
    · exact ⟨[], by rw [List.append_nil]; exact .result op run operands outcome constructs⟩
  | failure op operands outcome =>
    exact ⟨[], by rw [List.append_nil]; exact .failure op run operands outcome⟩
  | entry op operands outcome =>
    exact ⟨[], by rw [List.append_nil]; exact .entry op run operands outcome⟩

/-- Every reachable world has a chronicle. -/
theorem reachable_iff_exists_chronicle : w.Reachable ↔ ∃ made, Chronicle w made := by
  constructor
  · intro run
    induction run with
    | start => exact ⟨[], .start⟩
    | step _ next ih =>
      obtain ⟨made, run⟩ := ih
      obtain ⟨new, run⟩ := run.step next
      exact ⟨made ++ new, run⟩
  · rintro ⟨made, run⟩
    exact run.reachable

/-- The objects of a chronicle are numbered in order, and the program has got hold of them all. -/
theorem Chronicle.numbered (run : Chronicle w made) :
    made ⊆ w.objects ∧ made.map Object.number? = (List.range w.history.objects).map some := by
  induction run with
  | start => exact ⟨List.Subset.refl _, rfl⟩
  | @construction w made op b h o before operands outcome makes subject ih =>
    obtain ⟨known, numbered⟩ := ih
    have tallies := op.tallies_echo w.history
    simp only [outcome echo] at tallies
    obtain ⟨o', subject', -, number, count⟩ := tallies.made ⟨o, makes⟩
    obtain rfl := Option.some.inj (subject.symm.trans subject')
    constructor
    · refine List.append_subset.2 ⟨List.subset_append_of_subset_left _ known, ?_⟩
      exact List.cons_subset.2
        ⟨List.mem_append_right _ (Binding.subject?_mem_objects subject), List.nil_subset _⟩
    · rw [List.map_append, numbered, count, List.range_succ, List.map_append]
      exact congrArg (_ ++ [·]) number
  | @result w made op b h before operands outcome other ih =>
    obtain ⟨known, numbered⟩ := ih
    have tallies := op.tallies_echo w.history
    simp only [outcome echo] at tallies
    exact ⟨List.subset_append_of_subset_left _ known, by rw [numbered, tallies.kept other]⟩
  | @failure w made op e h before operands outcome ih =>
    obtain ⟨known, numbered⟩ := ih
    have tallies := op.tallies_echo w.history
    simp only [outcome echo] at tallies
    exact ⟨known, by rw [numbered, tallies]⟩
  | @entry w made op f args h before operands outcome ih =>
    obtain ⟨known, numbered⟩ := ih
    have tallies := op.tallies_echo w.history
    -- a host that gives the arguments back shows the history in which its function is entered
    have entered : op.apply echo w.history = .ok (.value (.slice args)) h := outcome echo
    simp only [entered] at tallies
    have other : ¬ op.Constructs := by
      intro constructs
      obtain ⟨o, subject, -⟩ := tallies.made constructs
      cases subject
    exact ⟨List.subset_append_of_subset_left _ known, by rw [numbered, tallies.kept other]⟩

/-- The object with a number is the result of the construction with that number. -/
theorem Chronicle.getElem?_eq_some_iff (run : Chronicle w made) {o : Object} {i : Nat} :
    made[i]? = some o ↔ o ∈ w.objects ∧ o.number? = some i := by
  obtain ⟨known, numbered⟩ := run.numbered
  have length : made.length = w.history.objects := by
    simpa only [List.length_map, List.length_range] using congrArg List.length numbered
  have number : ∀ o, made[i]? = some o → o.number? = some i := by
    intro o hi
    have lt : i < w.history.objects := length ▸ (List.getElem?_eq_some_iff.1 hi).1
    have same := congrArg (·[i]?) numbered
    simpa only [List.getElem?_map, hi, List.getElem?_range lt, Option.map_some, Option.some.injEq] using same
  constructor
  · exact fun hi => ⟨known (List.mem_of_getElem? hi), number o hi⟩
  · rintro ⟨member, hi⟩
    have individual := run.reachable.individual
    obtain ⟨o', ho'⟩ : ∃ o', made[i]? = some o' :=
      ⟨_, List.getElem?_eq_getElem (length ▸ individual.below o member i hi)⟩
    rw [ho', individual.single o member o' (known (List.mem_of_getElem? ho')) i hi (number o' ho')]

end World

end TaggedUnion
