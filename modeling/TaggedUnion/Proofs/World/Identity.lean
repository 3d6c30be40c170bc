/-
Objects are identical over whole runs. They are compared by their numbers, which tell constructions apart. So
functions, tagged values and unions are equal exactly if they come from one construction, whatever they are made of
and wherever they have been since.
-/
import TaggedUnion.Proofs.World.Chronicle
import TaggedUnion.Value.Equality

namespace TaggedUnion

open Script (Binding)

/-! ## Objects as values -/

/-- An object on its own. -/
def Object.toValue : Object → Value
  | .function f => .function f
  | .tag t => .tag t
  | .tagged x => .tagged x
  | .union u => .union u

/-- Equal objects have the same number. -/
theorem Object.number?_eq_of_beq {o o' : Object} (equal : (o.toValue == o'.toValue) = true) :
    o.number? = o'.number? := by
  cases o with
  | tag => cases o' <;> first | rfl | exact absurd equal Bool.false_ne_true
  | function | tagged | union =>
    cases o' <;> first | exact congrArg some (beq_iff_eq.1 equal) | exact absurd equal Bool.false_ne_true

/-- Every object equals itself. -/
theorem Object.beq_toValue_self (o : Object) : (o.toValue == o.toValue) = true := by
  cases o with
  | tag t => exact beq_self_eq_true t.ident
  | function f => exact beq_self_eq_true f.ident
  | tagged x => exact beq_self_eq_true x.ident
  | union u => exact beq_self_eq_true u.ident

/-! ## Objects of a chronicle -/

namespace World

variable {w : World} {made : List Object}

/-- Whether an object occurs, at any depth, in something that a program can have. -/
def Holds (w : World) (o : Object) : Prop := ∃ b, w.Has b ∧ o ∈ b.objects

theorem Holds.mem {o : Object} (held : w.Holds o) : o ∈ w.objects := by
  obtain ⟨b, has, mem⟩ := held
  exact has mem

/-- Whether two objects are the result of one construction. -/
def FromOne (made : List Object) (o o' : Object) : Prop :=
  ∃ i : Nat, made[i]? = some o ∧ made[i]? = some o'

/-- Separate constructions give separate objects, also of equal contents. -/
theorem Chronicle.beq_toValue_iff_index_eq (run : Chronicle w made) {o o' : Object} {i j : Nat}
    (hi : made[i]? = some o) (hj : made[j]? = some o') : (o.toValue == o'.toValue) = true ↔ i = j := by
  constructor
  · intro equal
    have number := (run.getElem?_eq_some_iff.1 hi).2
    have number' := (run.getElem?_eq_some_iff.1 hj).2
    rw [← Object.number?_eq_of_beq equal, number, Option.some.injEq] at number'
    exact number'
  · rintro rfl
    obtain rfl := Option.some.inj (hi.symm.trans hj)
    exact o.beq_toValue_self

theorem Chronicle.existsUnique_index (run : Chronicle w made) {o : Object} (numbered : o.number?.isSome)
    (held : w.Holds o) : ∃! i : Nat, made[i]? = some o := by
  obtain ⟨i, hi⟩ := Option.isSome_iff_exists.1 numbered
  refine ⟨i, run.getElem?_eq_some_iff.2 ⟨held.mem, hi⟩, fun j hj => ?_⟩
  exact Option.some.inj ((run.getElem?_eq_some_iff.1 hj).2.symm.trans hi)

theorem Chronicle.beq_toValue_iff (run : Chronicle w made) {o o' : Object} (numbered : o.number?.isSome)
    (held : w.Holds o) (held' : w.Holds o') : (o.toValue == o'.toValue) = true ↔ FromOne made o o' := by
  constructor
  · intro equal
    obtain ⟨i, hi⟩ := Option.isSome_iff_exists.1 numbered
    refine ⟨i, run.getElem?_eq_some_iff.2 ⟨held.mem, hi⟩, run.getElem?_eq_some_iff.2 ⟨held'.mem, ?_⟩⟩
    rw [← Object.number?_eq_of_beq equal, hi]
  · rintro ⟨i, hi, hi'⟩
    obtain rfl := Option.some.inj (hi.symm.trans hi')
    exact o.beq_toValue_self

/-- An object with the next number is not equal to any that is there. -/
theorem Reachable.beq_toValue_of_new (run : w.Reachable) {o o' : Object} (new : o.number? = some w.history.objects)
    (held : w.Holds o') : (o.toValue == o'.toValue) = false := by
  rw [← Bool.not_eq_true]
  intro equal
  rw [Object.number?_eq_of_beq equal] at new
  exact absurd (run.individual.below o' held.mem _ new) (Nat.lt_irrefl _)

end World

/-! ## Ways of values -/

/-- A list of entries is made of known objects if each of the values in it is. -/
theorem Value.objectsEntries_subset_iff {es : List (String × Value)} {os : List Object} :
    objectsEntries es ⊆ os ↔ ∀ e ∈ es, e.2.objects ⊆ os := by
  constructor
  · exact fun h e he => List.Subset.trans (objects_subset_objectsEntries he) h
  · intro h o ho
    rw [objectsEntries_eq_flatMap] at ho
    obtain ⟨e, he, ho⟩ := List.mem_flatMap.1 ho
    exact h e he ho

namespace Operation

variable {op : Operation}

theorem IsMatch.value_mem {u : Union} {v : Value} {read : Except Error Switch} (isMatch : op.IsMatch u v read) :
    .value v ∈ op.operands := by
  cases isMatch <;> exact List.mem_cons_of_mem _ List.mem_cons_self

/-- What is called gets the payload of an operand or the arguments of the operation, or nothing. -/
theorem Calls.args_cases {r : Option Record} {c : Callable} {args : List Value} (calls : op.Calls r c args) :
    (∃ v x, .value v ∈ op.operands ∧ v.tagged? = some x ∧ args = x.payload) ∨
    (∃ v, op = .call v args) ∨ args = [] := by
  cases calls with
  | unwrap f tagged own => exact .inl ⟨_, _, List.mem_cons_of_mem _ List.mem_cons_self, tagged, rfl⟩
  | call args callable => exact .inr (.inl ⟨_, rfl⟩)
  | dispatch isMatch made covered picked =>
    rcases Switch.choose?_cases picked with ⟨x, handler, tagged, -, rfl⟩ | ⟨handler, -, rfl⟩
    · exact .inl ⟨_, x, isMatch.value_mem, tagged, rfl⟩
    · exact .inr (.inr rfl)

end Operation

/-! ## Identical objects -/

namespace World

variable {w : World} {made : List Object}

/-- What is on its way in an operation that comes down to a call in a world. -/
structure Passes (w : World) (op : Operation) (c : Callable) (args : List Value) : Prop where
  /-- What is called gets the payload of an operand or the arguments of the operation, or nothing. -/
  args_eq : (∃ v x, .value v ∈ op.operands ∧ v.tagged? = some x ∧ args = x.payload) ∨
    (∃ v, op = .call v args) ∨ args = []
  /-- A tag that is called wraps them into something new. -/
  wrapped : ∀ t, c.tag? = some t → ∀ host, ∃ x h, op.apply host w.history = .ok (.value (.tagged x)) h ∧
    x.tag = t ∧ x.payload = args ∧ ∀ y, w.Holds (.tagged y) → (Value.tagged x == .tagged y) = false
  /-- A function of the host is called itself, and what comes of the call is what it gives. -/
  returned : ∀ ident label, c = .function ⟨ident, .host label⟩ → ∃ h, ∀ host : Host,
    op.apply host w.history = (Binding.value <$> host ⟨ident, .host label⟩ args) h

theorem Reachable.passes (run : w.Reachable) {op : Operation} {r : Option Record} {c : Callable} {args : List Value}
    (calls : op.Calls r c args) : w.Passes op c args where
  args_eq := calls.args_cases
  wrapped := by
    intro t tag host
    have count := w.history.objects_recording r
    rw [calls.apply_eq]
    refine ⟨_, _, Run.map_apply_of_ok (Callable.call_of_tag tag ..) _, rfl, rfl, fun y hy => ?_⟩
    exact run.beq_toValue_of_new (o := .tagged _) (congrArg some count) hy
  returned := by
    rintro ident label rfl
    exact ⟨_, fun host => calls.apply_eq host w.history⟩

/-- What the chronicle of a run tells of the identity of objects in the world that the run leads to. -/
structure ObjectsIdentical (w : World) (made : List Object) : Prop where
  chronicled : ∀ w' : World, w'.Reachable ↔ ∃ made', Chronicle w' made'
  goes_on : ∀ w', w.Step w' → ∃ new, Chronicle w' (made ++ new)
  apart : ∀ (i j : Nat) o o', made[i]? = some o → made[j]? = some o' → ((o.toValue == o'.toValue) = true ↔ i = j)
  made_once : ∀ o, w.Holds o → o.number?.isSome → ∃! i : Nat, made[i]? = some o
  tagged_beq_iff : ∀ x y, w.Holds (.tagged x) → w.Holds (.tagged y) →
    ((Value.tagged x == .tagged y) = true ↔ FromOne made (.tagged x) (.tagged y))
  union_beq_iff : ∀ u u', w.Holds (.union u) → w.Holds (.union u') →
    ((Value.union u == .union u') = true ↔ FromOne made (.union u) (.union u'))
  function_beq_iff : ∀ f g, w.Holds (.function f) → w.Holds (.function g) →
    ((Value.function f == .function g) = true ↔ FromOne made (.function f) (.function g))
  function_itself : ∀ f, (Value.function f).toFunction? w.history = .ok (some f) w.history
  function_new : ∀ v : Value, (∃ t, v = .tag t) ∨ (∃ u, v = .union u) →
    ∃ f h, v.toFunction? w.history = .ok (some f) h ∧ ∀ g, w.Holds (.function g) → (Value.function f == .function g) = false
  wrap_new : ∀ (t : Tag) payload, ∃ x h, t.wrap payload w.history = .ok (.tagged x) h ∧ x.tag = t ∧
    x.payload = payload ∧ ∀ y, w.Holds (.tagged y) → (Value.tagged x == .tagged y) = false
  in_slice : ∀ vs, w.Has (.value (.slice vs)) ↔ ∀ v ∈ vs, w.Has (.value v)
  in_map : ∀ es, w.Has (.value (.map es)) ↔ ∀ e ∈ es, w.Has (.value e.2)
  in_payload : ∀ x, w.Has (.value (.tagged x)) → ∀ v ∈ x.payload, w.Has (.value v)
  passes : ∀ (op : Operation) r c args, op.Calls r c args → w.Passes op c args
  union_of_named : ∀ n, w.Has (.named n) → (Binding.named n).toValue? = some (.union n.union) ∧ w.Holds (.union n.union)

/-- Object identity is exact over whole runs. Every reachable world has a chronicle, which goes on with every step
and keeps what has been made. What separate constructions make is unequal, whatever it is made of, and every object
that occurs anywhere came out of one construction, as it was made there. So tagged values, unions and functions are
equal exactly if they come from one construction. A function as a function is itself; a tag or a union as a function
is a new function each time, and what a tag wraps is new each time. On their way values stay what they are: in slices
and maps, in the payload that they are wrapped in, as the payload or the arguments that reach what is called, which
is the host's function itself, in what comes of the call, and as the union of a named union. -/
theorem Chronicle.objects_identical (run : Chronicle w made) : w.ObjectsIdentical made where
  chronicled := fun _ => reachable_iff_exists_chronicle
  goes_on := fun _ next => run.step next
  apart := fun _ _ _ _ hi hj => run.beq_toValue_iff_index_eq hi hj
  made_once := fun _ held numbered => run.existsUnique_index numbered held
  tagged_beq_iff := fun _ _ hx hy => run.beq_toValue_iff rfl hx hy
  union_beq_iff := fun _ _ hu hu' => run.beq_toValue_iff rfl hu hu'
  function_beq_iff := fun _ _ hf hg => run.beq_toValue_iff rfl hf hg
  function_itself := fun _ => rfl
  function_new := by
    rintro v (⟨t, rfl⟩ | ⟨u, rfl⟩)
    · exact ⟨_, _, rfl, fun g hg => run.reachable.beq_toValue_of_new (o := .function _) rfl hg⟩
    · exact ⟨_, _, rfl, fun g hg => run.reachable.beq_toValue_of_new (o := .function _) rfl hg⟩
  wrap_new := fun t payload =>
    ⟨_, _, rfl, rfl, rfl, fun y hy => run.reachable.beq_toValue_of_new (o := .tagged _) rfl hy⟩
  in_slice := fun _ => Value.objectsList_subset_iff
  in_map := fun _ => Value.objectsEntries_subset_iff
  in_payload := by
    intro x has v hv
    have inside : Value.objectsList x.payload ⊆ w.objects := fun o ho =>
      has (List.mem_cons_of_mem _ (List.mem_cons_of_mem _ ho))
    exact Value.objectsList_subset_iff.1 inside v hv
  passes := fun _ _ _ _ calls => run.reachable.passes calls
  union_of_named := fun n has => ⟨rfl, .named n, has, List.mem_cons_self⟩

/-- A tag that wraps its payloads into leaves. -/
def leaf : Tag := .nth 0 (some "Leaf")

/-- The union of one tag, with a number. -/
def leafUnion (ident : Nat) : Union := ⟨ident, [leaf], List.nodup_singleton leaf, List.nodup_singleton "Leaf"⟩

/-- What is made in the world of `leaves`: two leaves of equal contents, one wrapped and one called for, two unions
of the same members, a function of the tag, and a leaf around a slice of the first leaf. -/
def leavesMade : List Object :=
  [.tagged ⟨0, leaf, []⟩, .tagged ⟨1, leaf, []⟩, .union (leafUnion 2), .union (leafUnion 3),
    .function ⟨4, .tag leaf⟩, .tagged ⟨5, leaf, [.slice [.tagged ⟨0, leaf, []⟩]]⟩]

def leaves : World where
  history := ⟨1, 6, #[.recorded (.tagCreated leaf), .called (.tag leaf) [], .recorded (.unionCreated 1),
    .recorded (.unionCreated 1)]⟩
  objects := [.tag leaf, .tagged ⟨0, leaf, []⟩, .tag leaf, .tagged ⟨1, leaf, []⟩, .tag leaf,
    .union (leafUnion 2), .tag leaf, .union (leafUnion 3), .tag leaf, .function ⟨4, .tag leaf⟩, .tag leaf,
    .tagged ⟨5, leaf, [.slice [.tagged ⟨0, leaf, []⟩]]⟩, .tag leaf, .tagged ⟨0, leaf, []⟩, .tag leaf]

theorem leaves_chronicle : Chronicle leaves leavesMade := by
  have other := Operation.not_constructs_of_plain (.inl ⟨some "Leaf", rfl⟩)
  have known : ∀ {w : World}, .tag leaf ∈ w.objects → ∀ a ∈ [Binding.value (.tag leaf)], w.Has a := fun mem =>
    List.forall_mem_singleton.2 (List.cons_subset.2 ⟨mem, List.nil_subset _⟩)
  have named := Chronicle.start.result (.tag (some "Leaf")) (fun _ ha => nomatch ha) (fun _ => rfl) other
  have wrapped := named.construction (.wrap leaf []) (known List.mem_cons_self) (fun _ => rfl) (.wrap leaf [] 0) rfl
  have called := wrapped.construction (.call (.tag leaf) []) (known List.mem_cons_self) (fun _ => rfl)
    (.call (.call [] rfl) rfl 1) rfl
  have union := called.construction (.union [leaf]) (known List.mem_cons_self) (fun _ => rfl)
    (.union (leafUnion 2)) rfl
  have unions := union.construction (.union [leaf]) (known List.mem_cons_self) (fun _ => rfl)
    (.union (leafUnion 3)) rfl
  have function := unions.construction (.toFunction (.tag leaf)) (known List.mem_cons_self) (fun _ => rfl)
    (.functionOfTag leaf 4) rfl
  exact function.construction (.wrap leaf [.slice [.tagged ⟨0, leaf, []⟩]])
    (by simp [Operation.operands, Has, Binding.objects, Value.objects, Value.objectsList]) (fun _ => rfl)
    (.wrap leaf _ 5) rfl

theorem objects_identical_leaves : Chronicle leaves leavesMade ∧
    (Value.tagged ⟨0, leaf, []⟩ == .tagged ⟨1, leaf, []⟩) = false ∧
    (Value.union (leafUnion 2) == .union (leafUnion 3)) = false ∧
    (∃! i : Nat, leavesMade[i]? = some (.tagged ⟨0, leaf, []⟩)) ∧
    ∃ f h, (Value.tag leaf).toFunction? leaves.history = .ok (some f) h ∧
      (Value.function f == .function ⟨4, .tag leaf⟩) = false := by
  have identical := leaves_chronicle.objects_identical
  have around : leaves.Holds (.tagged ⟨0, leaf, []⟩) :=
    ⟨.value (.tagged ⟨5, leaf, [.slice [.tagged ⟨0, leaf, []⟩]]⟩), by
      simp [Has, leaves, Binding.objects, Value.objects, Value.objectsList]⟩
  have function : leaves.Holds (.function ⟨4, .tag leaf⟩) :=
    ⟨.value (.function ⟨4, .tag leaf⟩), by
      simp [Has, leaves, Binding.objects, Value.objects, Function.objects, Code.objects]⟩
  refine ⟨leaves_chronicle, ?_, ?_, identical.made_once _ around rfl, ?_⟩
  · exact Bool.eq_false_iff.2 fun equal => absurd ((identical.apart 0 1 _ _ rfl rfl).1 equal) (by decide)
  · exact Bool.eq_false_iff.2 fun equal => absurd ((identical.apart 2 3 _ _ rfl rfl).1 equal) (by decide)
  · obtain ⟨f, h, made, other⟩ := identical.function_new (.tag leaf) (.inl ⟨leaf, rfl⟩)
    exact ⟨f, h, made, other _ function⟩

end World

end TaggedUnion
