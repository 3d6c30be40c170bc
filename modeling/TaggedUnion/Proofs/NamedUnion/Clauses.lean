/-
The two ways to write a switch over a named union: a list of clauses, a tag and its handler each, and a
map from the names of the tags to their handlers. They are the same computation, and every map from
names of members to handlers is the map of such a list.
-/
import TaggedUnion.Proofs.NamedUnion.Faults
import TaggedUnion.Proofs.Switch.Clauses
import TaggedUnion.Proofs.Union.Order

namespace TaggedUnion.NamedUnion

variable {n : NamedUnion} {pairs : List (Tag × Value)} {otherwise : Option Value} {es : Entries Value}

/-! ## Pairs of members and handlers -/

/-- Whether a list pairs members, none of them twice, with handlers that can be called. -/
structure Pairing (n : NamedUnion) (pairs : List (Tag × Value)) : Prop where
  nodup : (pairs.map Prod.fst).Nodup
  members : pairs.map Prod.fst ⊆ n.union.tags
  callable : ∀ p ∈ pairs, p.2.callable?.isSome

/-- The clauses of a list of pairs, and a catch-all at the end of them. -/
def clausesOf (pairs : List (Tag × Value)) (otherwise : Option Value) : List Value :=
  (pairs.flatMap fun p => [.tag p.1, p.2]) ++ otherwise.toList

/-- The handlers of a list of pairs under the names of their tags. -/
def entriesOf (pairs : List (Tag × Value)) : Entries Value :=
  pairs.filterMap fun p => p.1.name.map fun name => (name, p.2)

theorem mem_entriesOf {name : String} {handler : Value} :
    (name, handler) ∈ entriesOf pairs ↔ ∃ t, (t, handler) ∈ pairs ∧ t.name = some name := by
  simp [entriesOf]

/-- Different members have different names, so no two of their handlers get into each other's place. -/
theorem Pairing.distinct (pairing : n.Pairing pairs) : (entriesOf pairs).Distinct := by
  refine Entries.nodup_map_filterMap pairing.nodup fun p hp q hq e he f hf same => ?_
  obtain ⟨name, hname, rfl⟩ := Option.map_eq_some_iff.1 he
  obtain ⟨name', hname', rfl⟩ := Option.map_eq_some_iff.1 hf
  obtain rfl : name = name' := same
  exact n.union.eq_of_name_eq (pairing.members (List.mem_map_of_mem hp))
    (pairing.members (List.mem_map_of_mem hq)) hname hname'

/-! ## Clauses -/

theorem exists_toValue_of_isSome {v : Value} (h : v.callable?.isSome) : ∃ c : Callable, v = c.toValue := by
  obtain ⟨c, hc⟩ := Option.isSome_iff_exists.1 h
  exact ⟨c, Value.callable?_eq_some_iff.1 hc⟩

theorem exists_cases (callable : ∀ p ∈ pairs, p.2.callable?.isSome) :
    ∃ cases : List (Tag × Callable), pairs = cases.map fun c => (c.1, c.2.toValue) := by
  induction pairs with
  | nil => exact ⟨[], rfl⟩
  | cons p pairs ih =>
    obtain ⟨cases, rfl⟩ := ih fun q hq => callable q (List.mem_cons_of_mem _ hq)
    obtain ⟨handler, h⟩ := exists_toValue_of_isSome (callable p List.mem_cons_self)
    exact ⟨(p.1, handler) :: cases, by rw [List.map_cons, ← h]⟩

theorem clausesOf_eq_clauses (cases : List (Tag × Callable)) (o : Option Callable) :
    clausesOf (cases.map fun c => (c.1, c.2.toValue)) (o.map Callable.toValue) = Switch.clauses ⟨cases, o⟩ := by
  rw [clausesOf, List.flatMap_map, Switch.clauses]

theorem switch_clausesOf (host : Host) (u : Union) (v : Value) (cases : List (Tag × Callable))
    (o : Option Callable) :
    u.switch host v (clausesOf (cases.map fun c => (c.1, c.2.toValue)) (o.map Callable.toValue)) =
      u.run host v ⟨cases, o⟩ := by
  rw [clausesOf_eq_clauses, Union.switch, Switch.ofClauses_clauses]
  rfl

/-! ## The same switch -/

theorem given_map_toValue (o : Option Callable) : given (o.map Callable.toValue) = o.map Callable.toValue := by
  cases o with
  | none => rfl
  | some c => cases c <;> rfl

theorem bind_callable?_map_toValue (o : Option Callable) :
    (o.map Callable.toValue).bind Value.callable? = o := by
  cases o with
  | none => rfl
  | some c => exact c.callable?_toValue

theorem callables_entriesOf (pairing : n.Pairing pairs) (perm : es.Perm (entriesOf pairs)) (o : Option Callable) :
    Callables (.map es) (o.map Callable.toValue) es := by
  refine ⟨rfl, fun e he => ?_, fun g hg => ?_⟩
  · obtain ⟨t, ht, -⟩ := mem_entriesOf.1 (perm.mem_iff.1 he)
    exact pairing.callable _ ht
  · rw [given_map_toValue] at hg
    obtain ⟨c, -, rfl⟩ := Option.map_eq_some_iff.1 hg
    rw [c.callable?_toValue, Option.isSome_some]

theorem map_fst_entriesOf_subset (pairing : n.Pairing pairs) (perm : es.Perm (entriesOf pairs)) :
    es.map Prod.fst ⊆ n.names := by
  intro name mem
  obtain ⟨e, he, rfl⟩ := List.mem_map.1 mem
  obtain ⟨t, ht, hname⟩ := mem_entriesOf.1 (perm.mem_iff.1 he)
  exact mem_names_iff.2 ⟨t, pairing.members (List.mem_map_of_mem ht), hname⟩

/-- The switch of the map of a list of pairs has those pairs as its cases. -/
theorem cases_switchFor_perm {cases : List (Tag × Callable)}
    (pairing : n.Pairing (cases.map fun c => (c.1, c.2.toValue)))
    (perm : es.Perm (entriesOf (cases.map fun c => (c.1, c.2.toValue)))) (o : Option Callable) :
    (n.switchFor es (o.map Callable.toValue)).cases.Perm cases := by
  have nodup : (cases.map Prod.fst).Nodup := by
    have := pairing.nodup
    rwa [List.map_map] at this
  -- no tag is twice in either list, so it is enough that they have the same elements
  rw [List.perm_ext_iff_of_nodup (nodup_tags_switchFor.of_map _) (nodup.of_map _)]
  rintro ⟨t, handler⟩
  rw [mem_cases_switchFor (pairing.distinct.of_perm perm.symm)]
  constructor
  · rintro ⟨member, name, v, hname, mem, hv⟩
    obtain ⟨t', ht', hname'⟩ := mem_entriesOf.1 (perm.mem_iff.1 mem)
    obtain rfl := n.union.eq_of_name_eq member (pairing.members (List.mem_map_of_mem ht')) hname hname'
    obtain ⟨c, hc, same⟩ := List.mem_map.1 ht'
    cases same
    rw [c.2.callable?_toValue] at hv
    cases hv
    exact hc
  · intro hc
    have hp := List.mem_map_of_mem (f := fun c : Tag × Callable => (c.1, c.2.toValue)) hc
    have member := pairing.members (List.mem_map_of_mem hp)
    obtain ⟨name, hname⟩ := Option.isSome_iff_exists.1 (n.named t member)
    exact ⟨member, name, handler.toValue, hname, perm.mem_iff.2 (mem_entriesOf.2 ⟨t, hp, hname⟩),
      handler.callable?_toValue⟩

theorem switch_entriesOf (pairing : n.Pairing pairs) (catchAll : ∀ g, otherwise = some g → g.callable?.isSome)
    (perm : es.Perm (entriesOf pairs)) (host : Host) (v : Value) :
    n.switch host v (.map es) otherwise = n.union.switch host v (clausesOf pairs otherwise) := by
  -- what can be called is a callable as a value, so both sides are about a list of cases
  obtain ⟨cases, rfl⟩ := exists_cases pairing.callable
  obtain ⟨o, rfl⟩ : ∃ o : Option Callable, otherwise = o.map Callable.toValue := by
    cases otherwise with
    | none => exact ⟨none, rfl⟩
    | some g =>
      obtain ⟨c, rfl⟩ := exists_toValue_of_isSome (catchAll g rfl)
      exact ⟨some c, rfl⟩
  have made := switchOf_eq_ok (callables_entriesOf pairing perm o) (map_fst_entriesOf_subset pairing perm)
  have sameCatchAll : (n.switchFor es (o.map Callable.toValue)).otherwise = o := by
    rw [switchFor, given_map_toValue, bind_callable?_map_toValue]
  rw [switch_of_switchOf_eq_ok made, switch_clausesOf]
  exact Union.run_eq_of_perm nodup_tags_switchFor tags_switchFor_subset
    (cases_switchFor_perm pairing perm o) sameCatchAll host v

/-! ## Every map of handlers -/

/-- The members whose names have handlers, with their handlers. -/
def pairsOf (n : NamedUnion) (es : Entries Value) : List (Tag × Value) :=
  es.filterMap fun e => (n.get? e.1).map fun t => (t, e.2)

theorem mem_pairsOf {t : Tag} {handler : Value} :
    (t, handler) ∈ n.pairsOf es ↔ ∃ name, (name, handler) ∈ es ∧ t ∈ n.union.tags ∧ t.name = some name := by
  simp [pairsOf, get?_eq_some_iff]

theorem entriesOf_pairsOf (members : es.map Prod.fst ⊆ n.names) : entriesOf (n.pairsOf es) = es := by
  have kept : ∀ e ∈ es, (((n.get? e.1).map fun t => (t, e.2)).bind fun p =>
      p.1.name.map fun name => (name, p.2)) = some e := by
    intro e he
    obtain ⟨t, ht, hname⟩ := mem_names_iff.1 (members (List.mem_map_of_mem he))
    rw [get?_eq_some_iff.2 ⟨ht, hname⟩, Option.map_some, Option.bind_some, hname, Option.map_some]
  rw [entriesOf, pairsOf, List.filterMap_filterMap, List.filterMap_congr kept, List.filterMap_some]

/-- The pairs of a map are of different members, since a member has one name. -/
theorem pairing_pairsOf (distinct : es.Distinct) (callable : ∀ e ∈ es, e.2.callable?.isSome) :
    n.Pairing (n.pairsOf es) := by
  refine ⟨?_, fun t ht => ?_, fun p hp => ?_⟩
  · refine Entries.nodup_map_filterMap distinct fun e _ f _ p hp q hq same => ?_
    obtain ⟨t, ht, rfl⟩ := Option.map_eq_some_iff.1 hp
    obtain ⟨t', ht', rfl⟩ := Option.map_eq_some_iff.1 hq
    obtain rfl : t = t' := same
    have hname := (get?_eq_some_iff.1 ht).2
    rw [(get?_eq_some_iff.1 ht').2] at hname
    exact (Option.some.inj hname).symm
  · obtain ⟨⟨t, handler⟩, hp, rfl⟩ := List.mem_map.1 ht
    obtain ⟨name, -, member, -⟩ := mem_pairsOf.1 hp
    exact member
  · obtain ⟨name, mem, -⟩ := mem_pairsOf.1 hp
    exact callable _ mem

/-- Handlers by name and clauses are two ways to write one computation. The map of a list of pairs, with
its entries in any order, does what the clauses of the pairs do; every map from names of members to
handlers is the map of such a list; and nothing as a catch-all is no catch-all. -/
theorem switch_eq_switch_clauses (n : NamedUnion) (host : Host) (v : Value) :
    (∀ (pairs : List (Tag × Value)) (otherwise : Option Value) (es : Entries Value), n.Pairing pairs →
      (∀ g, otherwise = some g → g.callable?.isSome) → es.Perm (entriesOf pairs) →
      n.switch host v (.map es) otherwise = n.union.switch host v (clausesOf pairs otherwise)) ∧
    (∀ es : Entries Value, es.Distinct → (∀ e ∈ es, e.2.callable?.isSome) → es.map Prod.fst ⊆ n.names →
      ∃ pairs, n.Pairing pairs ∧ es.Perm (entriesOf pairs)) ∧
    ∀ handlers, n.switch host v handlers (some .nothing) = n.switch host v handlers none := by
  refine ⟨fun pairs otherwise es pairing catchAll perm => switch_entriesOf pairing catchAll perm host v,
    fun es distinct callable members => ?_, fun handlers => rfl⟩
  exact ⟨n.pairsOf es, pairing_pairsOf distinct callable, by rw [entriesOf_pairsOf members]⟩

/-- A square's clause in front of a circle's is a map with a circle's handler in front of a square's. -/
theorem switch_eq_switch_clauses_shapes :
    let circle : Tag := .nth 0 (some "Circle")
    let square : Tag := .nth 1 (some "Square")
    let shapes : NamedUnion := .ofUnion ⟨0, [circle, square], by decide, by decide⟩ (by decide)
    ∀ host v, shapes.switch host v (.map [("Circle", .tag square), ("Square", .tag circle)]) none =
      shapes.union.switch host v [.tag square, .tag circle, .tag circle, .tag square] := by
  intro circle square shapes host v
  have pairing : shapes.Pairing [(square, .tag circle), (circle, .tag square)] := by
    refine ⟨by decide, by decide, fun p hp => ?_⟩
    rcases List.mem_cons.1 hp with rfl | hp
    · rfl
    · rw [List.mem_singleton.1 hp]
      rfl
  exact (switch_eq_switch_clauses shapes host v).1 _ none _ pairing nofun (.swap _ _ [])

end TaggedUnion.NamedUnion
