/-
Worlds, and how programs get from one to the next. A world is a history and the objects that a program has
got hold of. The program applies operations to whatever it can put together from its objects, one after
another. Where an operation calls a function of the host, the function is more of the same program: it
has the arguments as well, its operations are the next ones, and what it gives in the end is the result of the
call. So every moment of a run is reached by single operations, those within a call included, whether it
returns or not.
-/
import TaggedUnion.Proofs.History
import TaggedUnion.Proofs.World.Objects

namespace TaggedUnion

open Script (Binding)

/-! ## Operations -/

/-- The operations that take a history on or call functions, with their operands. -/
inductive Operation where
  | tag (name : Option String)
  | tagOf (name : Value)
  | wrap (t : Tag) (payload : List Value)
  | unwrap (t : Tag) (v : Value) (f : Callable)
  /-- Makes a function of the host's own code. -/
  | function (label : Option String)
  | toFunction (c : Callable)
  | call (v : Value) (args : List Value)
  | union (ts : List Tag)
  | unionOf (vs : List Value)
  | run (u : Union) (v : Value) (s : Switch)
  | switch (u : Union) (v : Value) (clauses : List Value)
  | named (names : List String)
  | namedOf (names : Value)
  | namedSwitch (n : NamedUnion) (v handlers : Value) (otherwise : Option Value)

namespace Operation

def operands : Operation → List Binding
  | .tag _ | .function _ | .named _ => []
  | .tagOf v | .namedOf v => [.value v]
  | .wrap t payload => .value (.tag t) :: payload.map .value
  | .unwrap t v f => [.value (.tag t), .value v, .value f.toValue]
  | .toFunction c => [.value c.toValue]
  | .call v args => .value v :: args.map .value
  | .union ts => ts.map fun t => .value (.tag t)
  | .unionOf vs => vs.map .value
  | .run u v s => [.value (.union u), .value v, .switch s]
  | .switch u v clauses => .value (.union u) :: .value v :: clauses.map .value
  | .namedSwitch n v handlers otherwise =>
    .named n :: .value v :: .value handlers :: otherwise.toList.map .value

/-- What an operation does, where `host` runs the host's functions. -/
def apply (host : Host) : Operation → Run Binding
  | .tag name => do return .value (.tag (← Tag.create name).1)
  | .tagOf name => do return .value (.tag (← Tag.ofValue name))
  | .wrap t payload => Binding.value <$> t.wrap payload
  | .unwrap t v f => Binding.value <$> t.unwrap v fun payload => f.call host payload
  | .function label => do return .value (.function ⟨← Run.freshObject, .host label⟩)
  | .toFunction c => do return .value (.function (← c.toFunction))
  | .call v args => Binding.value <$> v.call host args
  | .union ts => do return .value (.union (← Union.create ts).1)
  | .unionOf vs => do return .value (.union (← Union.ofValues vs))
  | .run u v s => Binding.value <$> u.run host v s
  | .switch u v clauses => Binding.value <$> u.switch host v clauses
  | .named names => Binding.named <$> NamedUnion.create names
  | .namedOf names => Binding.named <$> NamedUnion.ofValue names
  | .namedSwitch n v handlers otherwise => Binding.value <$> n.switch host v handlers otherwise

end Operation

/-! ## Outcomes -/

/-- Whether the outcome of a run is settled without the host, or is what becomes of a call of one of the
host's functions. -/
def Run.HandsOver (x : Host → Run Value) (h : History) : Prop :=
  (∃ r, ∀ host, x host h = r) ∨ ∃ f args h', ∀ host, x host h = host f args h'

namespace Run

theorem HandsOver.of_eq {x y : Host → Run Value} {h h' : History} (hy : HandsOver y h')
    (same : ∀ host, x host h = y host h') : HandsOver x h := by
  rcases hy with ⟨r, settled⟩ | ⟨f, args, h'', called⟩
  · exact .inl ⟨r, fun host => (same host).trans (settled host)⟩
  · exact .inr ⟨f, args, h'', fun host => (same host).trans (called host)⟩

theorem handsOver_const (x : Run Value) (h : History) : HandsOver (fun _ => x) h := .inl ⟨x h, fun _ => rfl⟩

theorem handsOver_ofExcept_bind {α : Type} (x : Except Error α) {f : Host → α → Run Value} {h : History}
    (hf : ∀ a, HandsOver (fun host => f host a) h) : HandsOver (fun host => ofExcept x >>= f host) h := by
  cases x with
  | ok a => exact (hf a).of_eq fun _ => rfl
  | error e => exact handsOver_const (throw e) h

end Run

theorem Callable.handsOver_call (c : Callable) (args : List Value) (h : History) :
    Run.HandsOver (fun host => c.call host args) h := by
  have entered : Run.HandsOver (fun host => c.enter host args) (h.noting (.called c args)) := by
    cases c with
    | function f =>
      obtain ⟨ident, code⟩ := f
      cases code with
      | host label => exact .inr ⟨_, args, _, fun _ => rfl⟩
      | tag t => exact Run.handsOver_const (t.wrap args) _
      | union u => exact Run.handsOver_const u.refuse _
    | tag t => exact Run.handsOver_const (t.wrap args) _
    | union u => exact Run.handsOver_const u.refuse _
  exact entered.of_eq fun host => by rw [call_eq]; rfl

theorem Switch.handsOver_dispatch (s : Switch) (v : Value) (h : History) :
    Run.HandsOver (fun host => s.dispatch host v) h := by
  unfold dispatch
  cases s.choose? v with
  | none => exact Run.handsOver_const _ h
  | some c => exact (c.handler.handsOver_call c.args (h.noting (.recorded (c.record v)))).of_eq fun _ => rfl

theorem Union.handsOver_run (u : Union) (v : Value) (s : Switch) (h : History) :
    Run.HandsOver (fun host => u.run host v s) h :=
  Run.handsOver_ofExcept_bind _ fun _ => s.handsOver_dispatch v h

/-- An operation gives a result, fails, or has a function of the host called and leaves the rest to it;
what it does up to there is the same for every host. -/
theorem Operation.apply_cases (op : Operation) (h : History) :
    (∃ b h', ∀ host, op.apply host h = .ok b h') ∨ (∃ e h', ∀ host, op.apply host h = .error e h') ∨
    ∃ f args h', ∀ host, op.apply host h = (Binding.value <$> host f args) h' := by
  have ofValue : ∀ {x : Host → Run Value}, Run.HandsOver x h → (∀ host, op.apply host = Binding.value <$> x host) →
      (∃ r, ∀ host, op.apply host h = r) ∨
      ∃ f args h', ∀ host, op.apply host h = (Binding.value <$> host f args) h' := by
    rintro x (⟨r, settled⟩ | ⟨f, args, h', called⟩) same
    · refine .inl ⟨(Binding.value <$> fun _ => r : Run Binding) h, fun host => ?_⟩
      rw [same]
      exact Run.map_apply_congr (settled host) _
    · refine .inr ⟨f, args, h', fun host => ?_⟩
      rw [same]
      exact Run.map_apply_congr (called host) _
  have outcome : (∃ r, ∀ host, op.apply host h = r) ∨
      ∃ f args h', ∀ host, op.apply host h = (Binding.value <$> host f args) h' := by
    cases op with
    | tag | tagOf | wrap | function | toFunction | union | unionOf | named | namedOf =>
      exact .inl ⟨_, fun _ => rfl⟩
    | unwrap t v f =>
      refine ofValue (x := fun host => t.unwrap v fun payload => f.call host payload) ?_ fun _ => rfl
      unfold Tag.unwrap
      split
      · split
        · exact f.handsOver_call _ h
        · exact Run.handsOver_const _ h
      · exact Run.handsOver_const _ h
    | call v args =>
      refine ofValue (x := fun host => v.call host args) ?_ fun _ => rfl
      unfold Value.call
      split
      · next c _ => exact c.handsOver_call args h
      · exact Run.handsOver_const _ h
    | run u v s => exact ofValue (u.handsOver_run v s h) fun _ => rfl
    | switch u v clauses =>
      exact ofValue (Run.handsOver_ofExcept_bind _ fun s => u.handsOver_run v s h) fun _ => rfl
    | namedSwitch n v handlers otherwise =>
      exact ofValue (Run.handsOver_ofExcept_bind _ fun s => n.union.handsOver_run v s h) fun _ => rfl
  rcases outcome with ⟨r, settled⟩ | called
  · cases r with
    | ok b h' => exact .inl ⟨b, h', settled⟩
    | error e h' => exact .inr (.inl ⟨e, h', settled⟩)
  · exact .inr (.inr called)

/-! ## Worlds -/

/-- A history, and the objects that a program has got hold of in it. -/
structure World where
  history : History := {}
  objects : List Object := []

namespace World

/-- Whether a program can have something: it is made of objects that the program has got hold of. -/
def Has (w : World) (b : Binding) : Prop := b.objects ⊆ w.objects

/-- What one operation on things at hand makes of a world. Its outcome is the same for every host, as
the host has a part in it only from the moment when one of its functions is called. -/
inductive Step (w : World) : World → Prop where
  | result (op : Operation) {b : Binding} {h : History} (operands : ∀ a ∈ op.operands, w.Has a)
      (outcome : ∀ host, op.apply host w.history = .ok b h) : w.Step ⟨h, w.objects ++ b.objects⟩
  | failure (op : Operation) {e : Error} {h : History} (operands : ∀ a ∈ op.operands, w.Has a)
      (outcome : ∀ host, op.apply host w.history = .error e h) : w.Step ⟨h, w.objects⟩
  /-- A function of the host is called; what comes of the call comes of the operation. -/
  | entry (op : Operation) {f : Function} {args : List Value} {h : History}
      (operands : ∀ a ∈ op.operands, w.Has a)
      (outcome : ∀ host, op.apply host w.history = (Binding.value <$> host f args) h) :
      w.Step ⟨h, w.objects ++ Value.objectsList args⟩

/-- Whatever operation a program applies to things at hand, there is a next world. -/
theorem exists_step {w : World} {op : Operation} (operands : ∀ a ∈ op.operands, w.Has a) : ∃ w', w.Step w' := by
  rcases op.apply_cases w.history with ⟨b, h, outcome⟩ | ⟨e, h, outcome⟩ | ⟨f, args, h, outcome⟩
  · exact ⟨_, .result op operands outcome⟩
  · exact ⟨_, .failure op operands outcome⟩
  · exact ⟨_, .entry op operands outcome⟩

/-- The worlds that programs get to, from the one in which nothing has been made. -/
inductive Reachable : World → Prop where
  | start : Reachable {}
  | step {w w' : World} (before : Reachable w) (next : w.Step w') : Reachable w'

end World

end TaggedUnion
