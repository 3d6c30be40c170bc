/-
New numbers and new names for tags. A relabelling that keeps different tags apart changes no answer: what a
union contains and has, what a tag constructed and owns, which fault a switch has as a cover of a union and
where, and which case a value is dispatched to. So neither the number nor the name of a tag is compared with
anything but itself, even where two names collide. In a reachable world every injection of the allocations
keeps the tags apart, whatever their new numbers and names.
-/
import TaggedUnion.Proofs.Union.Dispatch
import TaggedUnion.Proofs.World.Tags
import Mathlib.Data.List.Forall2
import Mathlib.Data.Set.Function

namespace TaggedUnion

/-! ## Relabelled things -/

/-- The tags of a union under new labels; it is the same union otherwise. -/
structure Union.Relabelled (r : Tag → Tag) (u u' : Union) : Prop where
  ident : u'.ident = u.ident
  tags : u'.tags = u.tags.map r

inductive Code.Relabelled (r : Tag → Tag) : Code → Code → Prop where
  | host (label : Option String) : Relabelled r (.host label) (.host label)
  | tag (t : Tag) : Relabelled r (.tag t) (.tag (r t))
  | union {u u' : Union} (members : u.Relabelled r u') : Relabelled r (.union u) (.union u')

structure Function.Relabelled (r : Tag → Tag) (f f' : Function) : Prop where
  ident : f'.ident = f.ident
  code : f.code.Relabelled r f'.code

/-- A value with new labels for its tags, at any depth. -/
inductive Value.Relabelled (r : Tag → Tag) : Value → Value → Prop where
  | nothing : Relabelled r .nothing .nothing
  | int (i : Int64) : Relabelled r (.int i) (.int i)
  | float (x : Binary64) : Relabelled r (.float x) (.float x)
  | bool (b : Bool) : Relabelled r (.bool b) (.bool b)
  | str (s : String) : Relabelled r (.str s) (.str s)
  | slice {vs ws : List Value} (elements : List.Forall₂ (Relabelled r) vs ws) : Relabelled r (.slice vs) (.slice ws)
  | map {es fs : List (String × Value)} (names : fs.map Prod.fst = es.map Prod.fst)
      (values : List.Forall₂ (Relabelled r) (es.map Prod.snd) (fs.map Prod.snd)) : Relabelled r (.map es) (.map fs)
  | function {f f' : Function} (function : f.Relabelled r f') : Relabelled r (.function f) (.function f')
  | tag (t : Tag) : Relabelled r (.tag t) (.tag (r t))
  | tagged {ident : Nat} {t : Tag} {vs ws : List Value} (payload : List.Forall₂ (Relabelled r) vs ws) :
      Relabelled r (.tagged ⟨ident, t, vs⟩) (.tagged ⟨ident, r t, ws⟩)
  | union {u u' : Union} (members : u.Relabelled r u') : Relabelled r (.union u) (.union u')

def Callable.Relabelled (r : Tag → Tag) (c c' : Callable) : Prop := c.toValue.Relabelled r c'.toValue

structure Switch.Relabelled (r : Tag → Tag) (s s' : Switch) : Prop where
  cases : List.Forall₂ (fun c c' => c'.1 = r c.1 ∧ c.2.Relabelled r c'.2) s.cases s'.cases
  otherwise : Option.Rel (Callable.Relabelled r) s.otherwise s'.otherwise

variable {r : Tag → Tag} {T : Set Tag} {u u' : Union} {s s' : Switch} {v v' : Value}

/-- A relabelled value is constructed by the relabelled tag from the relabelled payload. -/
theorem Value.Relabelled.tagged?_cases (hv : v.Relabelled r v') :
    (v.tagged? = none ∧ v'.tagged? = none) ∨
    ∃ x x', v.tagged? = some x ∧ v'.tagged? = some x' ∧ x'.tag = r x.tag ∧
      List.Forall₂ (Value.Relabelled r) x.payload x'.payload := by
  cases hv with
  | tagged payload => exact .inr ⟨_, _, rfl, rfl, rfl, payload⟩
  | _ => exact .inl ⟨rfl, rfl⟩

namespace Switch.Relabelled

theorem tags_eq (hs : s.Relabelled r s') : s'.tags = s.tags.map r := by
  have same : ∀ {cs cs' : List (Tag × Callable)},
      List.Forall₂ (fun c c' => c'.1 = r c.1 ∧ c.2.Relabelled r c'.2) cs cs' →
        cs'.map Prod.fst = (cs.map Prod.fst).map r := by
    intro cs cs' related
    induction related with
    | nil => rfl
    | cons here _ ih => rw [List.map_cons, here.1, ih]; rfl
  exact same hs.cases

theorem getElem?_cases (hs : s.Relabelled r s') {i : Nat} {t : Tag} {handler : Callable}
    (hi : s.cases[i]? = some (t, handler)) :
    ∃ handler', s'.cases[i]? = some (r t, handler') ∧ handler.Relabelled r handler' := by
  obtain ⟨hlt, here⟩ := List.getElem?_eq_some_iff.1 hi
  obtain ⟨length, related⟩ := List.forall₂_iff_get.1 hs.cases
  obtain ⟨tag, callable⟩ := related i hlt (length ▸ hlt)
  simp only [List.get_eq_getElem, here] at tag callable
  exact ⟨_, by rw [List.getElem?_eq_getElem (length ▸ hlt), ← tag], callable⟩

theorem otherwise_eq_none_iff (hs : s.Relabelled r s') : s'.otherwise = none ↔ s.otherwise = none := by
  have related := hs.otherwise
  generalize s.otherwise = o, s'.otherwise = o' at related
  cases related <;> simp

theorem exists_otherwise (hs : s.Relabelled r s') {g : Callable} (h : s.otherwise = some g) :
    ∃ g', s'.otherwise = some g' ∧ g.Relabelled r g' := by
  have related := hs.otherwise
  rw [h] at related
  generalize s'.otherwise = o' at related
  cases related with
  | some handlers => exact ⟨_, rfl, handlers⟩

end Switch.Relabelled

/-! ## Tags that are kept apart -/

theorem mem_map_iff_of_injOn (apart : Set.InjOn r T) {ts : List Tag} (known : ∀ t ∈ ts, t ∈ T) {t : Tag} (ht : t ∈ T) :
    r t ∈ ts.map r ↔ t ∈ ts := by
  constructor
  · intro mem
    obtain ⟨t', ht', same⟩ := List.mem_map.1 mem
    exact apart (known t' ht') ht same ▸ ht'
  · exact List.mem_map_of_mem

theorem repeatsAt_map_iff (apart : Set.InjOn r T) {ts : List Tag} (known : ∀ t ∈ ts, t ∈ T) {i : Nat} :
    RepeatsAt (ts.map r) i ↔ RepeatsAt ts i := by
  simp only [RepeatsAt, List.getElem?_map, Option.mem_map, ← List.map_take]
  constructor
  · rintro ⟨_, ⟨t, ht, rfl⟩, again⟩
    refine ⟨t, ht, (mem_map_iff_of_injOn apart (fun t ht => ?_) (known t (List.mem_of_getElem? ht))).1 again⟩
    exact known t (List.mem_of_mem_take ht)
  · rintro ⟨t, ht, again⟩
    exact ⟨r t, ⟨t, ht, rfl⟩, List.mem_map_of_mem again⟩

theorem holdsAt_stray_map_iff (apart : Set.InjOn r T) {ts us : List Tag} (known : ∀ t ∈ ts, t ∈ T)
    (members : ∀ t ∈ us, t ∈ T) {i : Nat} : HoldsAt (· ∉ us.map r) (ts.map r) i ↔ HoldsAt (· ∉ us) ts i := by
  simp only [HoldsAt, List.getElem?_map, Option.mem_map]
  constructor
  · rintro ⟨_, ⟨t, ht, rfl⟩, stray⟩
    exact ⟨t, ht, fun mem => stray (List.mem_map_of_mem mem)⟩
  · rintro ⟨t, ht, stray⟩
    exact ⟨r t, ⟨t, ht, rfl⟩, mt (mem_map_iff_of_injOn apart members (known t (List.mem_of_getElem? ht))).1 stray⟩

theorem map_subset_map_iff (apart : Set.InjOn r T) {ts us : List Tag} (known : ∀ t ∈ ts, t ∈ T)
    (members : ∀ t ∈ us, t ∈ T) : ts.map r ⊆ us.map r ↔ ts ⊆ us := by
  constructor
  · exact fun h t ht => (mem_map_iff_of_injOn apart members (known t ht)).1 (h (List.mem_map_of_mem ht))
  · exact List.map_subset r

/-- In a reachable world new allocations that do not collide keep the tags apart, whatever the rest. -/
theorem World.Reachable.injOn_relabel {w : World} (run : w.Reachable) {number : Nat → Nat}
    (injective : number.Injective) (id : Tag → UInt64) (name : Tag → Option String) :
    Set.InjOn (fun t => (⟨number t.ident, id t, name t⟩ : Tag)) {t | w.Occurs t} := by
  intro t ht t' ht' same
  have known : ∀ t, w.Occurs t → t ∈ w.history.created := fun t ht => run.nominal.made t (occurs_iff.1 ht)
  exact (run.nominal.numbered.eq_iff_ident_eq (known t ht) (known t' ht')).2 (injective (Tag.mk.inj same).1)

namespace Union

/-- Whether a union and a switch correspond to others by a relabelling that keeps all tags at hand apart. -/
structure Relabelling (r : Tag → Tag) (T : Set Tag) (u u' : Union) (s s' : Switch) : Prop where
  apart : Set.InjOn r T
  members : ∀ t ∈ u.tags, t ∈ T
  listed : ∀ t ∈ s.tags, t ∈ T
  union : u'.tags = u.tags.map r
  switch : s.Relabelled r s'

theorem contains_relabelled (apart : Set.InjOn r T) (members : ∀ t ∈ u.tags, t ∈ T) (hu : u'.tags = u.tags.map r)
    {t : Tag} (ht : t ∈ T) : u'.contains (r t) = u.contains t := by
  rw [contains, contains, hu, decide_eq_decide, mem_map_iff_of_injOn apart members ht]

theorem owns_relabelled (apart : Set.InjOn r T) {x x' : Tagged Value} (hx : x.tag ∈ T) (tag : x'.tag = r x.tag)
    {t : Tag} (ht : t ∈ T) : (r t).owns x' = t.owns x := by
  rw [Bool.eq_iff_iff, Switch.owns_iff, Switch.owns_iff, tag, apart.eq_iff ht hx]

/-! ## The same faults -/

/-- Whether two errors of the check are about the same fault in the same place: the case at one index that
repeats an earlier one, the case at one index of a stranger, the corresponding members left out, the catch-all. -/
inductive SameFault (r : Tag → Tag) (u u' : Union) (s s' : Switch) : Error → Error → Prop where
  | repeatedCase {i : Nat} {t : Tag} (first : IsLeast {i | RepeatsAt s.tags i} i)
      (first' : IsLeast {i | RepeatsAt s'.tags i} i) (here : s.tags[i]? = some t) (here' : s'.tags[i]? = some (r t)) :
      SameFault r u u' s s' (.repeatedCase t) (.repeatedCase (r t))
  | strayCase {i : Nat} {t : Tag} (first : IsLeast {i | HoldsAt (· ∉ u.tags) s.tags i} i)
      (first' : IsLeast {i | HoldsAt (· ∉ u'.tags) s'.tags i} i) (here : s.tags[i]? = some t)
      (here' : s'.tags[i]? = some (r t)) : SameFault r u u' s s' (.strayCase t) (.strayCase (r t))
  | missingCases {ts : List Tag} (uncovered : ∀ t, t ∈ ts ↔ t ∈ u.tags ∧ t ∉ s.tags)
      (uncovered' : ∀ t, t ∈ ts.map r ↔ t ∈ u'.tags ∧ t ∉ s'.tags) :
      SameFault r u u' s s' (.missingCases ts) (.missingCases (ts.map r))
  | unreachableOtherwise : SameFault r u u' s s' .unreachableOtherwise .unreachableOtherwise

namespace Relabelling

variable (same : Relabelling r T u u' s s')

include same

theorem nodup_iff : s'.tags.Nodup ↔ s.tags.Nodup := by
  rw [same.switch.tags_eq]
  exact ⟨.of_map r, .map_on fun t ht t' ht' => same.apart (same.listed t ht) (same.listed t' ht')⟩

theorem tags_subset_iff : s'.tags ⊆ u'.tags ↔ s.tags ⊆ u.tags := by
  rw [same.switch.tags_eq, same.union, map_subset_map_iff same.apart same.listed same.members]

theorem subset_tags_iff : u'.tags ⊆ s'.tags ↔ u.tags ⊆ s.tags := by
  rw [same.switch.tags_eq, same.union, map_subset_map_iff same.apart same.members same.listed]

theorem check_eq_ok_iff : u'.check s' = .ok () ↔ u.check s = .ok () := by
  rw [Union.check_eq_ok_iff, Union.check_eq_ok_iff, same.nodup_iff, same.tags_subset_iff, same.subset_tags_iff,
    same.switch.otherwise_eq_none_iff]

theorem isLeast_repeatsAt_iff {i : Nat} :
    IsLeast {i | RepeatsAt s'.tags i} i ↔ IsLeast {i | RepeatsAt s.tags i} i := by
  simp only [same.switch.tags_eq, repeatsAt_map_iff same.apart same.listed]

theorem isLeast_stray_iff {i : Nat} :
    IsLeast {i | HoldsAt (· ∉ u'.tags) s'.tags i} i ↔ IsLeast {i | HoldsAt (· ∉ u.tags) s.tags i} i := by
  simp only [same.switch.tags_eq, same.union, holdsAt_stray_map_iff same.apart same.listed same.members]

theorem getElem?_tags {i : Nat} {t : Tag} (here : s.tags[i]? = some t) : s'.tags[i]? = some (r t) := by
  rw [same.switch.tags_eq, List.getElem?_map, here, Option.map_some]

/-- The members left out are left out of the relabelled switch, and no others. -/
theorem mem_map_missing_iff {ts : List Tag} (uncovered : ∀ t, t ∈ ts ↔ t ∈ u.tags ∧ t ∉ s.tags) (t : Tag) :
    t ∈ ts.map r ↔ t ∈ u'.tags ∧ t ∉ s'.tags := by
  rw [same.switch.tags_eq, same.union, List.mem_map]
  constructor
  · rintro ⟨t, ht, rfl⟩
    obtain ⟨member, unlisted⟩ := (uncovered t).1 ht
    exact ⟨List.mem_map_of_mem member,
      mt (mem_map_iff_of_injOn same.apart same.listed (same.members t member)).1 unlisted⟩
  · rintro ⟨mem, unlisted⟩
    obtain ⟨t, member, rfl⟩ := List.mem_map.1 mem
    exact ⟨t, (uncovered t).2 ⟨member, fun listed => unlisted (List.mem_map_of_mem listed)⟩, rfl⟩

theorem exists_sameFault {e : Error} (h : u.check s = .error e) :
    ∃ e', u'.check s' = .error e' ∧ SameFault r u u' s s' e e' := by
  cases coverageFault_of_check h with
  | @repeatedCase i t first here =>
    have first' := same.isLeast_repeatsAt_iff.2 first
    have here' := same.getElem?_tags here
    exact ⟨_, check_of_coverageFault (.repeatedCase first' here'), .repeatedCase first first' here here'⟩
  | @strayCase i t nodup first here =>
    have first' := same.isLeast_stray_iff.2 first
    have here' := same.getElem?_tags here
    exact ⟨_, check_of_coverageFault (.strayCase (same.nodup_iff.2 nodup) first' here'),
      .strayCase first first' here here'⟩
  | @missingCases ts nodup members alone gap inOrder uncovered =>
    have uncovered' := same.mem_map_missing_iff uncovered
    refine ⟨.missingCases (ts.map r), check_of_coverageFault ?_, .missingCases uncovered uncovered'⟩
    exact .missingCases (same.nodup_iff.2 nodup) (same.tags_subset_iff.2 members)
      (same.switch.otherwise_eq_none_iff.2 alone) (mt List.map_eq_nil_iff.1 gap) (same.union ▸ inOrder.map r) uncovered'
  | unreachableOtherwise nodup members full catchAll =>
    refine ⟨_, check_of_coverageFault ?_, .unreachableOtherwise⟩
    refine .unreachableOtherwise (same.nodup_iff.2 nodup) (same.tags_subset_iff.2 members)
      (same.subset_tags_iff.2 full) ?_
    rw [Option.isSome_iff_ne_none] at catchAll ⊢
    rwa [Ne, same.switch.otherwise_eq_none_iff]

end Relabelling

/-! ## The same selection -/

/-- Whether two runs come of the same selection: the case at one index, with corresponding payloads, the
catch-all of either switch, or none. -/
inductive SameSelection (r : Tag → Tag) (s s' : Switch) (v v' : Value) (host host' : Host) :
    Run Value → Run Value → Prop where
  | case {i : Nat} {handler handler' : Callable} {x x' : Tagged Value} (hx : v.tagged? = some x)
      (hx' : v'.tagged? = some x') (payload : List.Forall₂ (Value.Relabelled r) x.payload x'.payload)
      (here : s.cases[i]? = some (x.tag, handler)) (here' : s'.cases[i]? = some (x'.tag, handler'))
      (handlers : handler.Relabelled r handler') :
      SameSelection r s s' v v' host host'
        (do
          Run.record (.toCase v x.tag)
          handler.call host x.payload)
        (do
          Run.record (.toCase v' x'.tag)
          handler'.call host' x'.payload)
  | otherwise {g g' : Callable} (unlisted : ¬ s.Lists v) (unlisted' : ¬ s'.Lists v') (here : s.otherwise = some g)
      (here' : s'.otherwise = some g') (handlers : g.Relabelled r g') :
      SameSelection r s s' v v' host host'
        (do
          Run.record (.toOtherwise v)
          g.call host [])
        (do
          Run.record (.toOtherwise v')
          g'.call host' [])
  | notMember (unlisted : ¬ s.Lists v) (unlisted' : ¬ s'.Lists v') (alone : s.otherwise = none)
      (alone' : s'.otherwise = none) :
      SameSelection r s s' v v' host host' (throw (.notMember v)) (throw (.notMember v'))

theorem Relabelling.lists_iff (same : Relabelling r T u u' s s') (hv : v.Relabelled r v')
    (owner : ∀ x, v.tagged? = some x → x.tag ∈ T) : s'.Lists v' ↔ s.Lists v := by
  rcases hv.tagged?_cases with ⟨hx, hx'⟩ | ⟨x, x', hx, hx', tag, -⟩
  · simp [Switch.Lists, hx, hx']
  · simp only [Switch.Lists, hx, hx', Option.some.injEq, exists_eq_left', tag, same.switch.tags_eq]
    exact mem_map_iff_of_injOn same.apart same.listed (owner x hx)

/-- Where no tag has two cases, a relabelled value goes to the relabelled case. -/
theorem Relabelling.sameSelection_dispatch (same : Relabelling r T u u' s s') (hv : v.Relabelled r v')
    (owner : ∀ x, v.tagged? = some x → x.tag ∈ T) (nodup : s.tags.Nodup) (host host' : Host) :
    SameSelection r s s' v v' host host' (s.dispatch host v) (s'.dispatch host' v') := by
  by_cases listed : s.Lists v
  · obtain ⟨x, hx, ht⟩ := listed
    obtain ⟨⟨t, handler⟩, hc, rfl⟩ := List.mem_map.1 ht
    obtain ⟨i, hi⟩ := List.getElem?_of_mem hc
    obtain ⟨handler', hi', handlers⟩ := same.switch.getElem?_cases hi
    rcases hv.tagged?_cases with ⟨none, -⟩ | ⟨y, x', hy, hx', tag, payload⟩
    · rw [none] at hx
      cases hx
    · obtain rfl : y = x := Option.some.inj (hy.symm.trans hx)
      rw [← tag] at hi'
      rw [Switch.dispatch_of_getElem?_cases nodup hx hi,
        Switch.dispatch_of_getElem?_cases (same.nodup_iff.2 nodup) hx' hi']
      exact .case hx hx' payload hi hi' handlers
  · have unlisted := mt (same.lists_iff hv owner).1 listed
    cases h : s.otherwise with
    | none =>
      have h' := same.switch.otherwise_eq_none_iff.2 h
      rw [Switch.dispatch_eq_throw listed h, Switch.dispatch_eq_throw unlisted h']
      exact .notMember listed unlisted h h'
    | some g =>
      obtain ⟨g', h', handlers⟩ := same.switch.exists_otherwise h
      rw [Switch.dispatch_of_not_lists listed h, Switch.dispatch_of_not_lists unlisted h']
      exact .otherwise listed unlisted h h' handlers

theorem Relabelling.has_eq (same : Relabelling r T u u' s s') (hv : v.Relabelled r v')
    (owner : ∀ x, v.tagged? = some x → x.tag ∈ T) : u'.has v' = u.has v := by
  rcases hv.tagged?_cases with ⟨hx, hx'⟩ | ⟨x, x', hx, hx', tag, -⟩
  · simp only [has, hx, hx']
  · simp only [has, hx, hx', tag]
    exact contains_relabelled same.apart same.members same.union (owner x hx)

theorem Relabelling.is_eq (same : Relabelling r T u u' s s') (hv : v.Relabelled r v')
    (owner : ∀ x, v.tagged? = some x → x.tag ∈ T) {t : Tag} (ht : t ∈ T) : (r t).is v' = t.is v := by
  rcases hv.tagged?_cases with ⟨hx, hx'⟩ | ⟨x, x', hx, hx', tag, -⟩
  · simp only [Tag.is, hx, hx']
  · simp only [Tag.is, hx, hx']
    exact owns_relabelled same.apart (owner x hx) tag ht

/-- Neither the names nor the numbers of tags have a say in matching. Under new labels that keep the tags at hand
apart, whatever names collide, all questions have the same answers; a switch passes the check as before, or
fails for the same fault in the same place, whatever the value; and a switch that passes selects the same
case for a value, with the corresponding payload, the same catch-all, or nothing. New allocations that do
not collide are such labels in every reachable world, with any numbers and names. -/
theorem matching_ignores_labels (same : Relabelling r T u u' s s') (hv : v.Relabelled r v')
    (owner : ∀ x, v.tagged? = some x → x.tag ∈ T) :
    ((∀ t ∈ T, u'.contains (r t) = u.contains t) ∧ u'.has v' = u.has v ∧ (∀ t ∈ T, (r t).is v' = t.is v) ∧
      ∀ t ∈ T, ∀ x x', v.tagged? = some x → v'.tagged? = some x' → (r t).owns x' = t.owns x) ∧
    (u'.check s' = .ok () ↔ u.check s = .ok ()) ∧
    (∀ e, u.check s = .error e → ∃ e', u'.check s' = .error e' ∧ SameFault r u u' s s' e e' ∧
      ∀ host host' v v', u.run host v s = throw e ∧ u'.run host' v' s' = throw e') ∧
    (u.check s = .ok () → ∀ host host',
      SameSelection r s s' v v' host host' (u.run host v s) (u'.run host' v' s')) ∧
    ∀ w : World, w.Reachable → ∀ number : Nat → Nat, number.Injective →
      ∀ (id : Tag → UInt64) (name : Tag → Option String),
        Set.InjOn (fun t => (⟨number t.ident, id t, name t⟩ : Tag)) {t | w.Occurs t} := by
  refine ⟨⟨fun t ht => contains_relabelled same.apart same.members same.union ht, same.has_eq hv owner,
    fun t ht => same.is_eq hv owner ht, fun t ht x x' hx hx' => ?_⟩, same.check_eq_ok_iff, fun e h => ?_,
    fun h host host' => ?_, fun w run number injective id name => run.injOn_relabel injective id name⟩
  · have answer := same.is_eq hv owner ht
    rwa [Tag.is, Tag.is, hx, hx'] at answer
  · obtain ⟨e', h', fault⟩ := same.exists_sameFault h
    exact ⟨e', h', fault, fun host host' v v' => ⟨run_of_check_eq_error h v, run_of_check_eq_error h' v'⟩⟩
  · rw [run_of_check_eq_ok h, run_of_check_eq_ok (same.check_eq_ok_iff.2 h)]
    exact same.sameSelection_dispatch hv owner (Union.check_eq_ok_iff.1 h).1 host host'

/-- A circle and a triangle that both come to be called X are as different as before, and a square without a
name is still a square. -/
theorem matching_ignores_labels_collision :
    let circle : Tag := .nth 0 (some "Circle")
    let square : Tag := .nth 1 (some "Square")
    let triangle : Tag := .nth 2 (some "Triangle")
    let r : Tag → Tag := fun t => .nth (t.ident + 5) (if t.ident = 1 then none else some "X")
    let shapes : Union := ⟨0, [circle, square], by decide, by decide⟩
    let shapes' : Union := ⟨0, [.nth 5 (some "X"), .nth 6 none], by decide, by decide⟩
    let s : Switch := { cases := [(circle, .tag square), (triangle, .tag circle)] }
    let s' : Switch :=
      { cases := [(.nth 5 (some "X"), .tag (.nth 6 none)), (.nth 7 (some "X"), .tag (.nth 5 (some "X")))] }
    let v : Value := .tagged ⟨1, triangle, [.tag circle]⟩
    let v' : Value := .tagged ⟨1, .nth 7 (some "X"), [.tag (.nth 5 (some "X"))]⟩
    Relabelling r {circle, square, triangle} shapes shapes' s s' ∧ v.Relabelled r v' ∧
    shapes'.has v' = shapes.has v ∧ shapes.check s = .error (.strayCase triangle) ∧
    ∃ e', shapes'.check s' = .error e' ∧ SameFault r shapes shapes' s s' (.strayCase triangle) e' := by
  intro circle square triangle r shapes shapes' s s' v v'
  have apart : Set.InjOn r {circle, square, triangle} := by
    rintro t (rfl | rfl | rfl) t' (rfl | rfl | rfl) h <;> first | rfl | cases h
  have switch : s.Relabelled r s' :=
    ⟨.cons ⟨rfl, .tag square⟩ (.cons ⟨rfl, .tag circle⟩ .nil), .none⟩
  have same : Relabelling r {circle, square, triangle} shapes shapes' s s' := by
    refine ⟨apart, ?_, ?_, rfl, switch⟩
    · simp [shapes]
    · simp [Switch.tags, s]
  have hv : v.Relabelled r v' := .tagged (.cons (.tag circle) .nil)
  have owner : ∀ x, v.tagged? = some x → x.tag ∈ ({circle, square, triangle} : Set Tag) := by
    rintro x ⟨rfl⟩
    simp
  have fault : shapes.check s = .error (.strayCase triangle) := rfl
  obtain ⟨⟨-, has, -⟩, -, faults, -⟩ := matching_ignores_labels same hv owner
  obtain ⟨e', h', sameFault, -⟩ := faults _ fault
  exact ⟨same, hv, has, fault, e', h', sameFault⟩

end Union

end TaggedUnion
