/-
Every operation is a course of effects: one lemma for each function of the library, and from them all
operations at once. So every reachable world is one that effects lead to.
-/
import TaggedUnion.Proofs.World.Effects

namespace TaggedUnion

open Script (Binding)

variable {w : World} {host : Host}

/-! ## Tags -/

namespace Tag

theorem follows_create (name : Option String) : (create name).Follows (fun t => [.tag t.1]) w := by
  refine .of_leads (World.Effect.tag name).leads rfl (y := pure ⟨.nth w.history.tags name, rfl⟩) ?_
  exact Run.follows_pure (List.cons_subset.2 ⟨List.mem_cons_self, List.nil_subset _⟩)

theorem follows_createAll (names : List String) :
    (createAll names).Follows (fun ts => ts.1.map .tag) w := by
  induction names generalizing w with
  | nil => exact Run.follows_pure (List.nil_subset _)
  | cons name names ih =>
    rw [createAll]
    refine (follows_create _).bind fun t w₁ _ first => ih.bind fun ts w₂ grown rest => ?_
    exact Run.follows_pure (List.cons_subset.2 ⟨grown (first List.mem_cons_self), rest⟩)

theorem follows_ofValue (name : Value) : (ofValue name).Follows (fun t => [.tag t]) w := by
  unfold ofValue
  split
  · exact (follows_create none).map fun t => List.Subset.refl _
  · exact (follows_create _).map fun t => List.Subset.refl _
  · exact Run.follows_throw _

theorem follows_wrap {t : Tag} {payload : List Value} (known : .tag t ∈ w.objects)
    (knownPayload : Value.objectsList payload ⊆ w.objects) : (t.wrap payload).Follows Value.objects w := by
  refine .of_leads (World.Effect.tagged known knownPayload).leads rfl
    (y := pure (.tagged ⟨w.history.objects, t, payload⟩)) (Run.follows_pure ?_)
  exact List.cons_subset.2 ⟨List.mem_cons_self, List.cons_subset.2
    ⟨List.mem_cons_of_mem _ known, List.subset_cons_of_subset _ knownPayload⟩⟩

theorem follows_unwrap {α : Type} {objects : α → List Object} {t : Tag} {v : Value} {f : List Value → Run α}
    (known : v.objects ⊆ w.objects)
    (hf : ∀ payload, Value.objectsList payload ⊆ w.objects → (f payload).Follows objects w) :
    (t.unwrap v f).Follows objects w := by
  unfold unwrap
  split
  · next x hx =>
    rw [Value.objects_of_tagged?_eq_some hx] at known
    split
    · exact hf _ fun o ho => known (List.mem_cons_of_mem _ (List.mem_cons_of_mem _ ho))
    · exact Run.follows_throw _
  · exact Run.follows_throw _

end Tag

/-! ## Calls -/

theorem Callable.follows_enter (hhost : host.Follows) {c : Callable} {args : List Value}
    (known : c.objects ⊆ w.objects) (knownArgs : Value.objectsList args ⊆ w.objects) :
    (c.enter host args).Follows Value.objects w := by
  cases c with
  | function f =>
    have code : f.code.objects ⊆ w.objects := fun o ho => known (List.mem_cons_of_mem _ ho)
    rw [enter, Function.apply]
    split
    · exact hhost f args w knownArgs
    · next t ht =>
      rw [ht] at code
      exact Tag.follows_wrap (code List.mem_cons_self) knownArgs
    · exact Run.follows_throw _
  | tag t => exact Tag.follows_wrap (known List.mem_cons_self) knownArgs
  | union u => exact Run.follows_throw _

theorem Callable.follows_call (hhost : host.Follows) {c : Callable} {args : List Value}
    (known : c.objects ⊆ w.objects) (knownArgs : Value.objectsList args ⊆ w.objects) :
    (c.call host args).Follows Value.objects w := by
  rw [call_eq]
  exact .of_leads (World.Effect.call known knownArgs).leads rfl (follows_enter hhost known knownArgs)

theorem Callable.follows_toFunction {c : Callable} (known : c.objects ⊆ w.objects) :
    c.toFunction.Follows Function.objects w := by
  have made : ∀ code : Code, code.objects ⊆ w.objects →
      (do return (⟨← Run.freshObject, code⟩ : Function)).Follows Function.objects w := by
    intro code known
    refine .of_leads (World.Effect.function known).leads rfl (y := pure ⟨w.history.objects, code⟩) ?_
    exact Run.follows_pure (List.cons_subset.2
      ⟨List.mem_cons_self, List.subset_cons_of_subset _ known⟩)
  cases c with
  | function f => exact Run.follows_pure known
  | tag t => exact made (.tag t) known
  | union u => exact made (.union u) known

theorem Value.follows_call (hhost : host.Follows) {v : Value} {args : List Value} (known : v.objects ⊆ w.objects)
    (knownArgs : objectsList args ⊆ w.objects) : (v.call host args).Follows objects w := by
  unfold call
  split
  · next c hc =>
    rw [objects_of_callable?_eq_some hc] at known
    exact Callable.follows_call hhost known knownArgs
  · exact Run.follows_throw _

/-! ## Unions -/

namespace Union

theorem follows_create {ts : List Tag} (known : ts.map .tag ⊆ w.objects) :
    (create ts).Follows (fun u => u.1.objects) w := by
  cases h : clash? ts with
  | some e =>
    rw [create_of_clash h]
    exact Run.follows_throw e
  | none =>
    obtain ⟨nodup, nodupNames⟩ := clash?_eq_none_iff.1 h
    rw [create_of_valid nodup nodupNames]
    refine .of_leads (World.Effect.union known nodup nodupNames).leads rfl
      (y := pure ⟨⟨w.history.objects, ts, nodup, nodupNames⟩, rfl⟩) (Run.follows_pure ?_)
    exact List.cons_subset.2 ⟨List.mem_cons_self, List.subset_cons_of_subset _ known⟩

theorem follows_ofValues {vs : List Value} (known : Value.objectsList vs ⊆ w.objects) :
    (ofValues vs).Follows objects w := by
  unfold ofValues
  split
  · refine (follows_create fun o ho => ?_).map fun u => List.Subset.refl _
    obtain ⟨t, ht, rfl⟩ := List.mem_map.1 ho
    obtain ⟨v, hv, hvt⟩ := List.mem_filterMap.1 ht
    refine Value.objectsList_subset_iff.1 known v hv ?_
    rw [Value.objects_of_tag?_eq_some hvt]
    exact List.mem_cons_self
  · exact Run.follows_throw _

end Union

/-! ## Switches -/

theorem Switch.follows_dispatch (hhost : host.Follows) {s : Switch} {v : Value} (known : s.objects ⊆ w.objects)
    (knownValue : v.objects ⊆ w.objects) : (s.dispatch host v).Follows Value.objects w := by
  cases picked : s.choose? v with
  | none =>
    rw [dispatch, picked]
    exact Run.follows_throw _
  | some c =>
    obtain ⟨handler, args⟩ := objects_of_choose? picked
    rw [dispatch, picked]
    simp only [Callable.call_eq]
    exact .of_leads (World.Effect.dispatch known knownValue picked).leads rfl
      (Callable.follows_enter hhost (List.Subset.trans handler known) (List.Subset.trans args knownValue))

theorem Union.follows_run (hhost : host.Follows) {u : Union} {v : Value} {s : Switch}
    (known : s.objects ⊆ w.objects) (knownValue : v.objects ⊆ w.objects) :
    (u.run host v s).Follows Value.objects w := by
  refine (Run.follows_ofExcept (fun _ => []) fun _ _ => List.nil_subset _).bind
    fun _ w' grown _ => ?_
  exact Switch.follows_dispatch hhost (List.Subset.trans known grown) (List.Subset.trans knownValue grown)

theorem Union.follows_switch (hhost : host.Follows) {u : Union} {v : Value} {clauses : List Value}
    (known : Value.objectsList clauses ⊆ w.objects) (knownValue : v.objects ⊆ w.objects) :
    (u.switch host v clauses).Follows Value.objects w := by
  refine (Run.follows_ofExcept Switch.objects fun s made => ?_).bind fun s w' grown known => ?_
  · rw [Switch.objects, Switch.clauses_of_ofClauses made]
    exact known
  · exact follows_run hhost known (List.Subset.trans knownValue grown)

/-! ## Named unions -/

namespace NamedUnion

theorem follows_create (names : List String) : (create names).Follows (fun n => n.union.objects) w := by
  unfold create
  split
  · exact Run.follows_throw _
  · refine (Tag.follows_createAll names).bind fun ts w₁ _ known => ?_
    refine (Union.follows_create known).bind fun u w₂ _ known => ?_
    exact Run.follows_pure known

theorem follows_ofValue (names : Value) : (ofValue names).Follows (fun n => n.union.objects) w := by
  refine (Run.follows_ofExcept (fun _ => []) fun _ _ => List.nil_subset _).bind
    fun names w' _ _ => ?_
  exact follows_create names

/-- The switch of handlers by name is made of the members, the handlers and the catch-all. -/
theorem objects_of_switchOf {n : NamedUnion} {handlers : Value} {otherwise : Option Value} {s : Switch}
    {os : List Object} (made : n.switchOf handlers otherwise = .ok s) (known : n.union.objects ⊆ os)
    (knownHandlers : handlers.objects ⊆ os) (knownOtherwise : ∀ g, otherwise = some g → g.objects ⊆ os) :
    s.objects ⊆ os := by
  obtain ⟨es, map, rfl⟩ := eq_switchFor_of_switchOf made
  refine Switch.objects_subset_iff.2 ⟨?_, fun g hg => ?_⟩
  · rintro ⟨t, handler⟩ hc
    obtain ⟨member, name, -, hlookup⟩ := mem_casesOf.1 hc
    obtain ⟨before, after, split, -⟩ := List.lookup_eq_some_iff.1 hlookup
    have mem : (name, handler) ∈ callableEntries es.byName := by simp [split]
    obtain ⟨v, hv, hcallable⟩ := mem_callableEntries.1 mem
    refine ⟨known (List.mem_cons_of_mem _ (List.mem_map_of_mem member)), ?_⟩
    rw [← Value.objects_of_callable?_eq_some hcallable]
    refine List.Subset.trans (Value.objects_subset_objectsEntries (Entries.mem_byName.1 hv)) ?_
    cases handlers <;> cases map
    exact knownHandlers
  · obtain ⟨v, hv, hcallable⟩ := Option.bind_eq_some_iff.1 hg
    rw [← Value.objects_of_callable?_eq_some hcallable]
    exact knownOtherwise v (Option.filter_eq_some_iff.1 hv).1

theorem follows_switch (hhost : host.Follows) {n : NamedUnion} {v handlers : Value} {otherwise : Option Value}
    (known : n.union.objects ⊆ w.objects) (knownValue : v.objects ⊆ w.objects)
    (knownHandlers : handlers.objects ⊆ w.objects)
    (knownOtherwise : ∀ g, otherwise = some g → g.objects ⊆ w.objects) :
    (n.switch host v handlers otherwise).Follows Value.objects w := by
  refine (Run.follows_ofExcept Switch.objects fun s made => ?_).bind fun s w' grown known => ?_
  · exact objects_of_switchOf made known knownHandlers knownOtherwise
  · exact Union.follows_run hhost known (List.Subset.trans knownValue grown)

end NamedUnion

/-! ## All operations -/

theorem Operation.follows_apply (hhost : host.Follows) {op : Operation} (operands : ∀ a ∈ op.operands, w.Has a) :
    (op.apply host).Follows Binding.objects w := by
  cases op with
  | tag name => exact (Tag.follows_create name).bind fun t w' _ known => Run.follows_pure known
  | tagOf name => exact (Tag.follows_ofValue name).bind fun t w' _ known => Run.follows_pure known
  | wrap t payload =>
    obtain ⟨known, knownPayload⟩ := List.forall_mem_cons.1 operands
    have knownPayload := Value.objectsList_subset_iff.2 (List.forall_mem_map.1 knownPayload)
    exact (Tag.follows_wrap (known List.mem_cons_self) knownPayload).map fun v => List.Subset.refl _
  | unwrap t v f =>
    have knownValue : v.objects ⊆ w.objects := operands (.value v) (by simp [Operation.operands])
    have known : f.objects ⊆ w.objects := operands (.value f.toValue) (by simp [Operation.operands])
    refine (Tag.follows_unwrap knownValue fun payload knownPayload => ?_).map fun v => List.Subset.refl _
    exact Callable.follows_call hhost known knownPayload
  | function label =>
    have own : (Code.host label).objects ⊆ w.objects := List.nil_subset _
    refine .of_leads (World.Effect.function own).leads rfl
      (y := pure (.value (.function ⟨w.history.objects, .host label⟩))) (Run.follows_pure ?_)
    exact List.cons_subset.2 ⟨List.mem_cons_self, List.nil_subset _⟩
  | toFunction c =>
    have known : c.objects ⊆ w.objects := operands (.value c.toValue) List.mem_cons_self
    exact (Callable.follows_toFunction known).bind fun f w' _ known => Run.follows_pure known
  | call v args =>
    obtain ⟨known, knownArgs⟩ := List.forall_mem_cons.1 operands
    have knownArgs := Value.objectsList_subset_iff.2 (List.forall_mem_map.1 knownArgs)
    exact (Value.follows_call hhost known knownArgs).map fun v => List.Subset.refl _
  | union ts =>
    refine (Union.follows_create fun o ho => ?_).bind fun u w' _ known => Run.follows_pure known
    obtain ⟨t, ht, rfl⟩ := List.mem_map.1 ho
    exact List.forall_mem_map.1 operands t ht List.mem_cons_self
  | unionOf vs =>
    have known := Value.objectsList_subset_iff.2 (List.forall_mem_map.1 operands)
    exact (Union.follows_ofValues known).bind fun u w' _ known => Run.follows_pure known
  | run u v s =>
    have knownValue : v.objects ⊆ w.objects := operands (.value v) (by simp [Operation.operands])
    have known : s.objects ⊆ w.objects := operands (.switch s) (by simp [Operation.operands])
    exact (Union.follows_run hhost known knownValue).map fun v => List.Subset.refl _
  | switch u v clauses =>
    obtain ⟨-, operands⟩ := List.forall_mem_cons.1 operands
    obtain ⟨knownValue, knownClauses⟩ := List.forall_mem_cons.1 operands
    have known := Value.objectsList_subset_iff.2 (List.forall_mem_map.1 knownClauses)
    exact (Union.follows_switch hhost known knownValue).map fun v => List.Subset.refl _
  | named names =>
    exact (NamedUnion.follows_create names).map fun n => NamedUnion.objects_subset_iff.2 (List.Subset.refl _)
  | namedOf names =>
    exact (NamedUnion.follows_ofValue names).map fun n => NamedUnion.objects_subset_iff.2 (List.Subset.refl _)
  | namedSwitch n v handlers otherwise =>
    obtain ⟨known, operands⟩ := List.forall_mem_cons.1 operands
    obtain ⟨knownValue, operands⟩ := List.forall_mem_cons.1 operands
    obtain ⟨knownHandlers, knownOtherwise⟩ := List.forall_mem_cons.1 operands
    replace known := NamedUnion.objects_subset_iff.1 known
    refine (NamedUnion.follows_switch hhost known knownValue knownHandlers fun g hg => ?_).map
      fun v => List.Subset.refl _
    exact knownOtherwise (.value g) (by simp [hg])

namespace World

variable {w' : World}

/-- The host whose functions give their arguments back, and so stop where they are entered. -/
def echo : Host := fun _ args => return .slice args

theorem follows_echo : echo.Follows := fun _ _ _ known => Run.follows_pure known

/-- A step is a course of effects, also for a program that has got hold of more. -/
theorem Step.leads {os : List Object} (known : w.objects ⊆ os) (next : w.Step w') :
    ∃ os', Leads ⟨w.history, os⟩ ⟨w'.history, os'⟩ ∧ w'.objects ⊆ os' := by
  have course : ∀ {op : Operation}, (∀ a ∈ op.operands, w.Has a) →
      (op.apply echo).Follows Binding.objects ⟨w.history, os⟩ := fun operands =>
    Operation.follows_apply follows_echo fun a ha => List.Subset.trans (operands a ha) known
  cases next with
  | result op operands outcome =>
    have course := course operands
    simp only [Run.Follows, outcome echo] at course
    obtain ⟨os', leads, made⟩ := course
    exact ⟨os', leads, List.append_subset.2 ⟨List.Subset.trans known leads.objects_subset, made⟩⟩
  | failure op operands outcome =>
    have course := course operands
    simp only [Run.Follows, outcome echo] at course
    obtain ⟨os', leads⟩ := course
    exact ⟨os', leads, List.Subset.trans known leads.objects_subset⟩
  | @entry op f args h operands outcome =>
    have course := course operands
    have entered : op.apply echo w.history = .ok (.value (.slice args)) h := outcome echo
    simp only [Run.Follows, entered] at course
    obtain ⟨os', leads, made⟩ := course
    exact ⟨os', leads, List.append_subset.2 ⟨List.Subset.trans known leads.objects_subset, made⟩⟩

/-- Effects lead to every reachable world. -/
theorem Reachable.leads (run : Reachable w) :
    ∃ os, Leads {} ⟨w.history, os⟩ ∧ w.objects ⊆ os := by
  induction run with
  | start => exact ⟨[], .refl _, List.Subset.refl _⟩
  | step _ next ih =>
    obtain ⟨os, leads, known⟩ := ih
    obtain ⟨os', leads', known'⟩ := next.leads known
    exact ⟨os', leads.trans leads', known'⟩

end World

end TaggedUnion
