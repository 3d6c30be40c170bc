/-
What operations do to a world, said once for all of them: they make tags, unions, tagged values and
functions out of the objects at hand, each with the next number, they call what is at hand, and they put on
record a tag or union that is made and a handler that is picked, right in front of its call. Every
operation is a course of these effects, and so is every run; what each of the effects keeps is kept by all runs.
-/
import TaggedUnion.Proofs.NamedUnion.Handlers
import TaggedUnion.Proofs.World.Operations
import Mathlib.Logic.Relation

namespace TaggedUnion

open Script (Binding)

/-! ## Effects -/

namespace World

/-- The single things that happen to a world, each with the objects that it needs. -/
inductive Effect (w : World) : World → Prop where
  | tag (name : Option String) : w.Effect
      ⟨{ w.history.noting (.recorded (.tagCreated (.nth w.history.tags name))) with tags := w.history.tags + 1 },
        .tag (.nth w.history.tags name) :: w.objects⟩
  | union {ts : List Tag} (known : ts.map .tag ⊆ w.objects) (nodup : ts.Nodup)
      (nodupNames : (ts.filterMap Tag.name).Nodup) : w.Effect
      ⟨{ w.history.noting (.recorded (.unionCreated ts.length)) with objects := w.history.objects + 1 },
        .union ⟨w.history.objects, ts, nodup, nodupNames⟩ :: w.objects⟩
  | tagged {t : Tag} {payload : List Value} (known : .tag t ∈ w.objects)
      (knownPayload : Value.objectsList payload ⊆ w.objects) : w.Effect
      ⟨{ w.history with objects := w.history.objects + 1 },
        .tagged ⟨w.history.objects, t, payload⟩ :: w.objects⟩
  | function {code : Code} (known : code.objects ⊆ w.objects) : w.Effect
      ⟨{ w.history with objects := w.history.objects + 1 }, .function ⟨w.history.objects, code⟩ :: w.objects⟩
  | call {c : Callable} {args : List Value} (known : c.objects ⊆ w.objects)
      (knownArgs : Value.objectsList args ⊆ w.objects) : w.Effect ⟨w.history.noting (.called c args), w.objects⟩
  /-- A switch picks a handler for a value, and the handler is called. -/
  | dispatch {s : Switch} {v : Value} {c : Switch.Choice} (known : s.objects ⊆ w.objects)
      (knownValue : v.objects ⊆ w.objects) (picked : s.choose? v = some c) : w.Effect
      ⟨(w.history.noting (.recorded (c.record v))).noting (.called c.handler c.args), w.objects⟩

/-- Effects one after another. -/
def Leads : World → World → Prop := Relation.ReflTransGen Effect

variable {w w' w'' : World}

theorem Leads.refl (w : World) : w.Leads w := Relation.ReflTransGen.refl

theorem Leads.trans (h : w.Leads w') (h' : w'.Leads w'') : w.Leads w'' := Relation.ReflTransGen.trans h h'

theorem Effect.leads (h : w.Effect w') : w.Leads w' := Relation.ReflTransGen.single h

theorem Effect.objects_subset (h : w.Effect w') : w.objects ⊆ w'.objects := by
  cases h with
  | call | dispatch => exact List.Subset.refl _
  | tag | union | tagged | function => exact List.subset_cons_self _ _

/-- What was known stays known. -/
theorem Leads.objects_subset (h : w.Leads w') : w.objects ⊆ w'.objects := by
  induction h with
  | refl => exact List.Subset.refl _
  | tail _ next ih => exact List.Subset.trans ih next.objects_subset

end World

/-! ## Courses of effects -/

/-- Whether a run in a world is a course of effects, and what it gives is made of what is known at its
end. `objects` tells the objects of what it gives. -/
def Run.Follows {α : Type} (x : Run α) (objects : α → List Object) (w : World) : Prop :=
  match x w.history with
  | .ok a h => ∃ os, w.Leads ⟨h, os⟩ ∧ objects a ⊆ os
  | .error _ h => ∃ os, w.Leads ⟨h, os⟩

/-- Whether the host's functions, with arguments at hand, do nothing but courses of effects. -/
def Host.Follows (host : Host) : Prop :=
  ∀ f args w, Value.objectsList args ⊆ w.objects → (host f args).Follows Value.objects w

namespace Run

variable {α β : Type} {objects : α → List Object} {objects' : β → List Object} {w : World}

theorem follows_pure {a : α} (known : objects a ⊆ w.objects) : (pure a : Run α).Follows objects w :=
  ⟨w.objects, .refl w, known⟩

theorem follows_throw (e : Error) : (throw e : Run α).Follows objects w := ⟨w.objects, .refl w⟩

/-- A check has no effect, and what it gives is known if it is made of what the check is given. -/
theorem follows_ofExcept (objects : α → List Object) {x : Except Error α}
    (known : ∀ a, x = .ok a → objects a ⊆ w.objects) : (ofExcept x).Follows objects w := by
  cases x with
  | ok a => exact follows_pure (known a rfl)
  | error e => exact follows_throw e

/-- An effect in front of a run. -/
theorem Follows.of_leads {x : Run α} {y : Run α} {w' : World} (first : w.Leads w')
    (same : x w.history = y w'.history) (rest : y.Follows objects w') : x.Follows objects w := by
  unfold Follows at rest ⊢
  rw [same]
  cases h : y w'.history with
  | ok a h' =>
    rw [h] at rest
    obtain ⟨os, leads, known⟩ := rest
    exact ⟨os, first.trans leads, known⟩
  | error e h' =>
    rw [h] at rest
    obtain ⟨os, leads⟩ := rest
    exact ⟨os, first.trans leads⟩

theorem Follows.bind {x : Run α} {f : α → Run β} (hx : x.Follows objects w)
    (hf : ∀ a w', w.objects ⊆ w'.objects → objects a ⊆ w'.objects → (f a).Follows objects' w') :
    (x >>= f).Follows objects' w := by
  unfold Follows at hx
  cases h : x w.history with
  | ok a h' =>
    rw [h] at hx
    obtain ⟨os, leads, known⟩ := hx
    refine .of_leads leads ?_ (hf a ⟨h', os⟩ leads.objects_subset known)
    rw [bind_apply, h]
  | error e h' =>
    rw [h] at hx
    unfold Follows
    rw [bind_apply, h]
    exact hx

theorem Follows.map {x : Run α} {f : α → β} (hx : x.Follows objects w)
    (hf : ∀ a, objects' (f a) ⊆ objects a) : (f <$> x).Follows objects' w := by
  rw [map_eq_pure_bind]
  exact hx.bind fun a w' _ known => follows_pure (List.Subset.trans (hf a) known)

end Run

end TaggedUnion
