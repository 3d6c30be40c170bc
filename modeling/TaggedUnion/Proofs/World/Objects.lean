/-
The objects in values: everything with an identity of its own that a value is made of, at any depth.
Data has none of its own, so whoever has the objects of a value can put the value together, and whoever
has the value can get at them.
-/
import TaggedUnion.Proofs.NamedUnion.Handlers
import TaggedUnion.Proofs.Switch.Clauses
import TaggedUnion.Proofs.Union.Dispatch
import TaggedUnion.Script.Env

namespace TaggedUnion

open Script (Binding)

/-- Something with an identity of its own. -/
inductive Object where
  | function (f : Function)
  | tag (t : Tag)
  | tagged (x : Tagged Value)
  | union (u : Union)

/-! ## Values -/

/-- A union and its members. -/
def Union.objects (u : Union) : List Object := .union u :: u.tags.map .tag

def Code.objects : Code → List Object
  | .host _ => []
  | .tag t => [.tag t]
  | .union u => u.objects

def Function.objects (f : Function) : List Object := .function f :: f.code.objects

namespace Value

mutual

/-- The objects that a value is made of, at any depth. -/
def objects : Value → List Object
  | .nothing | .int _ | .float _ | .bool _ | .str _ => []
  | .slice vs => objectsList vs
  | .map es => objectsEntries es
  | .function f => f.objects
  | .tag t => [.tag t]
  | .tagged ⟨ident, t, vs⟩ => .tagged ⟨ident, t, vs⟩ :: .tag t :: objectsList vs
  | .union u => u.objects

def objectsList : List Value → List Object
  | [] => []
  | v :: vs => v.objects ++ objectsList vs

def objectsEntries : List (String × Value) → List Object
  | [] => []
  | (_, v) :: es => v.objects ++ objectsEntries es

end

theorem objectsList_eq_flatMap (vs : List Value) : objectsList vs = vs.flatMap objects := by
  induction vs with
  | nil => rfl
  | cons v vs ih => rw [objectsList, ih, List.flatMap_cons]

theorem objectsEntries_eq_flatMap (es : List (String × Value)) :
    objectsEntries es = es.flatMap fun e => e.2.objects := by
  induction es with
  | nil => rfl
  | cons e es ih => rw [objectsEntries, ih, List.flatMap_cons]

@[simp] theorem objectsList_append (vs ws : List Value) :
    objectsList (vs ++ ws) = objectsList vs ++ objectsList ws := by
  simp only [objectsList_eq_flatMap, List.flatMap_append]

/-- A list of values is made of known objects if each of the values is. -/
theorem objectsList_subset_iff {vs : List Value} {os : List Object} :
    objectsList vs ⊆ os ↔ ∀ v ∈ vs, v.objects ⊆ os := by
  rw [objectsList_eq_flatMap]
  constructor
  · exact fun h v hv o ho => h (List.mem_flatMap.2 ⟨v, hv, ho⟩)
  · intro h o ho
    obtain ⟨v, hv, ho⟩ := List.mem_flatMap.1 ho
    exact h v hv ho

theorem objects_subset_objectsEntries {es : List (String × Value)} {e : String × Value} (he : e ∈ es) :
    e.2.objects ⊆ objectsEntries es := by
  rw [objectsEntries_eq_flatMap]
  exact fun o ho => List.mem_flatMap.2 ⟨e, he, ho⟩

theorem objects_of_tag?_eq_some {v : Value} {t : Tag} (h : v.tag? = some t) : v.objects = [.tag t] := by
  rw [tag?_eq_some_iff.1 h, objects]

theorem objects_of_tagged?_eq_some {v : Value} {x : Tagged Value} (h : v.tagged? = some x) :
    v.objects = .tagged x :: .tag x.tag :: objectsList x.payload := by
  cases v <;> cases h
  rfl

end Value

/-! ## Callables, switches, bindings -/

def Callable.objects (c : Callable) : List Object := c.toValue.objects

theorem Value.objects_of_callable?_eq_some {v : Value} {c : Callable} (h : v.callable? = some c) :
    v.objects = c.objects := by
  rw [callable?_eq_some_iff.1 h, Callable.objects]

/-- The objects of a switch are those of its clauses. -/
def Switch.objects (s : Switch) : List Object := Value.objectsList s.clauses

namespace Switch

variable {s : Switch}

theorem objects_subset_iff {os : List Object} : s.objects ⊆ os ↔
    (∀ c ∈ s.cases, .tag c.1 ∈ os ∧ c.2.objects ⊆ os) ∧ ∀ g, s.otherwise = some g → g.objects ⊆ os := by
  rw [objects, clauses, Value.objectsList_append, List.append_subset, Value.objectsList_subset_iff,
    Value.objectsList_subset_iff, List.forall_mem_flatMap]
  refine and_congr (forall₂_congr fun c _ => ?_) ?_
  · simp [Value.objects, Callable.objects]
  · cases s.otherwise <;> simp [Callable.objects]

/-- What a switch picks for a value is made of what the two are made of. -/
theorem objects_of_choose? {v : Value} {c : Choice} (h : s.choose? v = some c) :
    c.handler.objects ⊆ s.objects ∧ Value.objectsList c.args ⊆ v.objects := by
  obtain ⟨inCases, inOtherwise⟩ := objects_subset_iff.1 (List.Subset.refl s.objects)
  rcases choose?_cases h with ⟨x, handler, tagged, listed, rfl⟩ | ⟨handler, catchAll, rfl⟩
  · refine ⟨(inCases (x.tag, handler) listed).2, ?_⟩
    rw [Value.objects_of_tagged?_eq_some tagged]
    exact fun o ho => List.mem_cons_of_mem _ (List.mem_cons_of_mem _ ho)
  · exact ⟨inOtherwise handler catchAll, List.nil_subset _⟩

end Switch

/-- The objects of a named union: those of its union, and the members that are found by their names. -/
def NamedUnion.objects (n : NamedUnion) : List Object := n.union.objects ++ n.members.map fun e => .tag e.2

theorem NamedUnion.objects_subset_iff {n : NamedUnion} {os : List Object} : n.objects ⊆ os ↔ n.union.objects ⊆ os := by
  rw [objects, List.append_subset]
  refine ⟨And.left, fun known => ⟨known, fun o ho => ?_⟩⟩
  obtain ⟨e, he, rfl⟩ := List.mem_map.1 ho
  exact known (List.mem_cons_of_mem _ (List.mem_map_of_mem (mem_members_iff.1 he).1))

/-- The objects of whatever a program can keep. -/
def Script.Binding.objects : Binding → List Object
  | .value v => v.objects
  | .switch s => s.objects
  | .named n => n.objects

end TaggedUnion
