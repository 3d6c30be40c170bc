/-
Histories only grow. A run takes a history on: it unmakes no tag and no object, and it keeps every event
in its place. Calls do so whatever is called, as long as the host's own functions do.
-/
import TaggedUnion.Call

namespace TaggedUnion

/-! ## Running a run -/

namespace Run

variable {α β : Type}

@[simp] theorem pure_apply (a : α) (h : History) : (pure a : Run α) h = .ok a h := rfl

@[simp] theorem throw_apply (e : Error) (h : History) : (throw e : Run α) h = .error e h := rfl

theorem bind_apply (x : Run α) (f : α → Run β) (h : History) :
    (x >>= f) h = match x h with
      | .ok a h' => f a h'
      | .error e h' => .error e h' := by
  show EStateM.bind x f h = _
  unfold EStateM.bind
  cases x h <;> rfl

theorem map_apply_congr {x y : Run α} {h h' : History} (same : x h = y h') (f : α → β) :
    (f <$> x) h = (f <$> y) h' := by
  rw [map_eq_pure_bind, map_eq_pure_bind, bind_apply, bind_apply, same]

theorem map_apply_of_ok {x : Run α} {a : α} {h h' : History} (hx : x h = .ok a h') (f : α → β) :
    (f <$> x) h = .ok (f a) h' := by
  rw [map_eq_pure_bind, bind_apply, hx]
  rfl

theorem map_apply_of_error {x : Run α} {e : Error} {h h' : History} (hx : x h = .error e h') (f : α → β) :
    (f <$> x) h = .error e h' := by
  rw [map_eq_pure_bind, bind_apply, hx]

@[simp] theorem ofExcept_ok (a : α) : ofExcept (.ok a) = pure a := rfl

@[simp] theorem ofExcept_error (e : Error) : ofExcept (.error e : Except Error α) = throw e := rfl

theorem tryCatch_apply (x : Run α) (f : Error → Run α) (h : History) :
    (tryCatch x f : Run α) h = match x h with
      | .ok a h' => .ok a h'
      | .error e h' => f e h' := by
  show EStateM.tryCatch x f h = _
  unfold EStateM.tryCatch
  cases x h <;> rfl

/-- The history that a run leaves behind, whether it gives a result or fails. -/
def after (x : Run α) (h : History) : History :=
  match x h with
  | .ok _ h' => h'
  | .error _ h' => h'

theorem after_of_error {x : Run α} {h h' : History} {e : Error} (hx : x h = .error e h') :
    x.after h = h' := by
  rw [after, hx]

theorem after_map (f : α → β) (x : Run α) (h : History) : (f <$> x).after h = x.after h := by
  rw [after, after, map_eq_pure_bind, bind_apply]
  cases x h <;> rfl

end Run

/-! ## Growth -/

/-- Whether a history goes on from another: nothing that was made is unmade, and the events of the
earlier one are the first events of the later one. -/
structure History.Continues (h h' : History) : Prop where
  tags : h.tags ≤ h'.tags
  objects : h.objects ≤ h'.objects
  events : h.events.toList <+: h'.events.toList

theorem History.Continues.refl (h : History) : h.Continues h :=
  ⟨Nat.le_refl _, Nat.le_refl _, List.prefix_refl _⟩

theorem History.Continues.trans {h₁ h₂ h₃ : History} (h₁₂ : h₁.Continues h₂) (h₂₃ : h₂.Continues h₃) :
    h₁.Continues h₃ :=
  ⟨Nat.le_trans h₁₂.tags h₂₃.tags, Nat.le_trans h₁₂.objects h₂₃.objects, h₁₂.events.trans h₂₃.events⟩

/-- The history with one event more. -/
def History.noting (h : History) (e : Event) : History := { h with events := h.events.push e }

/-- Whether a run takes every history on. -/
def Run.Grows {α : Type} (x : Run α) : Prop := ∀ h : History, h.Continues (x.after h)

/-- Whether the host's own functions take every history on. -/
def Host.Grows (host : Host) : Prop := ∀ f args, (host f args).Grows

namespace Run

variable {α β : Type}

theorem grows_pure (a : α) : (pure a : Run α).Grows := History.Continues.refl

theorem grows_throw (e : Error) : (throw e : Run α).Grows := History.Continues.refl

theorem grows_bind {x : Run α} {f : α → Run β} (hx : x.Grows) (hf : ∀ a, (f a).Grows) :
    (x >>= f).Grows := by
  intro h
  have first := hx h
  unfold after at first ⊢
  rw [bind_apply]
  cases hxh : x h with
  | ok a h' =>
    rw [hxh] at first
    exact first.trans (hf a h')
  | error e h' =>
    rw [hxh] at first
    exact first

theorem after_note (e : Event) (h : History) :
    (note e).after h = { h with events := h.events.push e } := rfl

theorem grows_note (e : Event) : (note e).Grows := by
  intro h
  rw [after_note]
  exact ⟨Nat.le_refl _, Nat.le_refl _, by simp⟩

theorem grows_freshObject : freshObject.Grows :=
  fun h => ⟨Nat.le_refl h.tags, Nat.le_succ h.objects, List.prefix_refl _⟩

theorem size_events_lt_after_note {x : Run α} (hx : x.Grows) (e : Event) (h : History) :
    h.events.size < ((note e >>= fun _ => x).after h).events.size := by
  have rest := (hx ((note e).after h)).events.length_le
  rw [after_note] at rest
  simp only [Array.length_toList, Array.size_push] at rest
  exact rest

end Run

/-! ## Calls -/

theorem Tag.grows_wrap (t : Tag) (payload : List Value) : (t.wrap payload).Grows :=
  Run.grows_bind Run.grows_freshObject fun _ => Run.grows_pure _

theorem Union.grows_refuse (u : Union) : u.refuse.Grows := Run.grows_throw _

theorem Function.grows_apply {host : Host} (hhost : host.Grows) (f : Function) (args : List Value) :
    (f.apply host args).Grows := by
  unfold apply
  split
  · exact hhost f args
  · exact Tag.grows_wrap _ _
  · exact Union.grows_refuse _

/-- What a callable does once its call is an event of the history. -/
def Callable.enter (host : Host) (c : Callable) (args : List Value) : Run Value :=
  match c with
  | .function f => f.apply host args
  | .tag t => t.wrap args
  | .union u => u.refuse

theorem Callable.call_eq (host : Host) (c : Callable) (args : List Value) :
    c.call host args = (do
      Run.note (.called c args)
      c.enter host args) := by
  cases c <;> rfl

/-- A call takes the history on, whatever is called. -/
theorem Callable.grows_call {host : Host} (hhost : host.Grows) (c : Callable) (args : List Value) :
    (c.call host args).Grows := by
  rw [call_eq]
  refine Run.grows_bind (Run.grows_note _) fun _ => ?_
  cases c with
  | function f => exact Function.grows_apply hhost f args
  | tag t => exact Tag.grows_wrap t args
  | union u => exact Union.grows_refuse u

end TaggedUnion
