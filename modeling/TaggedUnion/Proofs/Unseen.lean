/-
Events that are not seen. The history keeps every event, but nothing in the library reads them: what a run does depends
on what it is given and on how many tags and objects have been made. So where the host's own functions take no
notice of some events, two histories that differ in these events alone lead to the same result or error, and to
histories that differ in such events alone again. The functions of scripts take no notice of any event.
-/
import TaggedUnion.Proofs.History
import TaggedUnion.Script.Env

namespace TaggedUnion

variable {α β : Type} {unseen : Event → Bool}

/-! ## What is seen -/

/-- The history without the events that are not seen. -/
def History.without (unseen : Event → Bool) (h : History) : History :=
  { h with events := (h.events.toList.filter fun e => !unseen e).toArray }

/-- What is seen of the outcome of a run: the result or the error, and what is seen of the history. -/
def Run.seen (unseen : Event → Bool) (x : Run α) (h : History) : EStateM.Result Error History α :=
  match x h with
  | .ok a h' => .ok a (h'.without unseen)
  | .error e h' => .error e (h'.without unseen)

/-- Whether a run takes no notice of the events that are not seen. -/
def Run.Overlooks (unseen : Event → Bool) (x : Run α) : Prop :=
  ∀ h h' : History, h.without unseen = h'.without unseen → x.seen unseen h = x.seen unseen h'

/-- Whether the host's own functions take no notice of the events that are not seen. -/
def Host.Overlooks (unseen : Event → Bool) (host : Host) : Prop := ∀ f args, (host f args).Overlooks unseen

namespace History

theorem without_noting (e : Event) (h : History) :
    (h.noting e).without unseen = if unseen e then h.without unseen else (h.without unseen).noting e := by
  cases seen : unseen e <;> simp [without, noting, seen]

end History

namespace Run

theorem overlooks_pure (a : α) : (pure a : Run α).Overlooks unseen :=
  fun _ _ same => congrArg (EStateM.Result.ok a) same

theorem overlooks_throw (e : Error) : (throw e : Run α).Overlooks unseen :=
  fun _ _ same => congrArg (EStateM.Result.error e) same

theorem overlooks_bind {x : Run α} {f : α → Run β} (hx : x.Overlooks unseen) (hf : ∀ a, (f a).Overlooks unseen) :
    (x >>= f).Overlooks unseen := by
  intro h h' same
  have first := hx h h' same
  unfold seen at first ⊢
  rw [bind_apply, bind_apply]
  cases hxh : x h with
  | ok a k =>
    cases hxh' : x h' with
    | ok a' k' =>
      rw [hxh, hxh'] at first
      injection first with result after
      subst result
      exact hf a k k' after
    | error e k' =>
      rw [hxh, hxh'] at first
      cases first
  | error e k =>
    cases hxh' : x h' with
    | ok a k' =>
      rw [hxh, hxh'] at first
      cases first
    | error e' k' =>
      rw [hxh, hxh'] at first
      injection first with error after
      simp only [error, after]

theorem overlooks_note (e : Event) : (note e).Overlooks unseen := by
  intro h h' same
  have noted : ∀ h, (note e).seen unseen h = .ok () ((h.noting e).without unseen) := fun _ => rfl
  rw [noted, noted, History.without_noting, History.without_noting, same]

theorem overlooks_freshObject : freshObject.Overlooks unseen := by
  intro h h' same
  have made : ∀ h, freshObject.seen unseen h = .ok (h.without unseen).objects
      { h.without unseen with objects := (h.without unseen).objects + 1 } := fun _ => rfl
  rw [made, made, same]

/-- An event that is not seen makes no difference to what comes after it. -/
theorem Overlooks.seen_note_bind {x : Run α} (hx : x.Overlooks unseen) {e : Event} (hidden : unseen e = true)
    (h : History) : (note e >>= fun _ => x).seen unseen h = x.seen unseen h := by
  have noted : (note e >>= fun _ => x).seen unseen h = x.seen unseen (h.noting e) := rfl
  rw [noted]
  exact hx _ _ (by rw [History.without_noting, if_pos hidden])

theorem overlooks_ofExcept (x : Except Error α) : (ofExcept x).Overlooks unseen := by
  cases x with
  | ok a => exact overlooks_pure a
  | error e => exact overlooks_throw e

end Run

/-! ## Calls and dispatch -/

theorem Tag.overlooks_wrap (t : Tag) (payload : List Value) : (t.wrap payload).Overlooks unseen :=
  Run.overlooks_bind Run.overlooks_freshObject fun _ => Run.overlooks_pure _

variable {host : Host} (hhost : host.Overlooks unseen)

include hhost

theorem Function.overlooks_apply (f : Function) (args : List Value) : (f.apply host args).Overlooks unseen := by
  unfold apply
  split
  · exact hhost f args
  · exact Tag.overlooks_wrap _ _
  · exact Run.overlooks_throw _

theorem Callable.overlooks_call (c : Callable) (args : List Value) : (c.call host args).Overlooks unseen := by
  rw [call_eq]
  refine Run.overlooks_bind (Run.overlooks_note _) fun _ => ?_
  cases c with
  | function f => exact Function.overlooks_apply hhost f args
  | tag t => exact Tag.overlooks_wrap t args
  | union u => exact Run.overlooks_throw _

theorem Value.overlooks_call (v : Value) (args : List Value) : (v.call host args).Overlooks unseen := by
  unfold call
  split
  · exact Callable.overlooks_call hhost _ args
  · exact Run.overlooks_throw _

theorem Switch.overlooks_dispatch (s : Switch) (v : Value) : (s.dispatch host v).Overlooks unseen := by
  unfold dispatch
  split
  · exact Run.overlooks_bind (Run.overlooks_note _) fun _ => Callable.overlooks_call hhost _ _
  · exact Run.overlooks_throw _

theorem Union.overlooks_run (u : Union) (v : Value) (s : Switch) : (u.run host v s).Overlooks unseen :=
  Run.overlooks_bind (Run.overlooks_ofExcept _) fun _ => Switch.overlooks_dispatch hhost s v

omit hhost

/-! ## The functions of scripts -/

namespace Script.Env

theorem overlooks_required (x : String) (o : Option α) : (required x o).Overlooks unseen := by
  cases o with
  | some a => exact Run.overlooks_pure a
  | none => exact Run.overlooks_throw _

theorem overlooks_sumFrom (total : Int) (vs : List Value) : (sumFrom total vs).Overlooks unseen := by
  fun_induction sumFrom total vs with
  | case1 => exact Run.overlooks_pure _
  | case2 total i vs next fits ih => exact ih
  | case3 => exact Run.overlooks_throw _
  | case4 => exact Run.overlooks_throw _

theorem overlooks_callEach (hhost : host.Overlooks unseen) (f : Value) (vs : List Value) :
    (callEach host f vs).Overlooks unseen := by
  induction vs with
  | nil => exact Run.overlooks_pure _
  | cons v vs ih =>
    refine Run.overlooks_bind (Value.overlooks_call hhost f [v]) fun result => ?_
    exact Run.overlooks_bind ih fun results => Run.overlooks_pure _

theorem overlooks_runBody [Text.Glyphs] (hhost : host.Overlooks unseen) (env : Env) (body : Body Value)
    (args : List Value) :
    (env.runBody host body args).Overlooks unseen := by
  cases body with
  | const | arguments | count | texts => exact Run.overlooks_pure _
  | nth index =>
    rw [runBody]
    split
    · exact Run.overlooks_pure _
    · exact Run.overlooks_throw _
  | sum => exact overlooks_sumFrom 0 args
  | raise => exact Run.overlooks_throw _
  | each x next =>
    refine Run.overlooks_bind (overlooks_required x _) fun f => ?_
    exact Run.overlooks_bind (overlooks_callEach hhost f args) fun results => Value.overlooks_call hhost next results
  | dispatch x y =>
    refine Run.overlooks_bind (overlooks_required x _) fun u => ?_
    exact Run.overlooks_bind (overlooks_required y _) fun s => Union.overlooks_run hhost u _ s

/-- A script cannot tell what happened before, at whatever depth of calls. -/
theorem overlooks_hostTo [Text.Glyphs] (env : Env) (depth : Nat) : (env.hostTo depth).Overlooks unseen := by
  induction depth with
  | zero => exact fun f args => Run.overlooks_throw _
  | succ depth ih =>
    intro f args
    unfold hostTo
    split
    · exact overlooks_runBody ih env _ args
    · exact Run.overlooks_throw _

end Script.Env

end TaggedUnion
