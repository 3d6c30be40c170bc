/-
Records mirror calls, over whole runs. A run is read as call trees: the operations one after another, and within an
operation that has called a function of the host the operations of that function. The history tells the deeds of the
trees in pre-order. So what is recorded for debugging are the handlers that switches have picked, each right in front
of its call and of all that is done within, and what is recorded besides are the tags and the unions that were made.
-/
import TaggedUnion.Proofs.Text.Quoted
import TaggedUnion.Proofs.World.Deeds
import TaggedUnion.Proofs.World.Identity

namespace TaggedUnion

open Script (Binding)

/-! ## Call trees -/

/-- An operation of a run, with its deeds, and the operations of the function that it has called. -/
inductive CallTree where
  | node (op : Operation) (deeds : List Deed) (within : List CallTree)

namespace CallTree

mutual

/-- The deeds of a call tree in pre-order. -/
def preorder : CallTree → List Deed
  | .node _ ds within => ds ++ preorderList within

def preorderList : List CallTree → List Deed
  | [] => []
  | t :: ts => t.preorder ++ preorderList ts

end

mutual

/-- A call tree and all within it. -/
def subtrees : CallTree → List CallTree
  | .node op ds within => .node op ds within :: subtreesList within

def subtreesList : List CallTree → List CallTree
  | [] => []
  | t :: ts => t.subtrees ++ subtreesList ts

end

theorem preorderList_append (ts ts' : List CallTree) :
    preorderList (ts ++ ts') = preorderList ts ++ preorderList ts' := by
  induction ts with
  | nil => rfl
  | cons t ts ih => rw [List.cons_append, preorderList, ih, preorderList, List.append_assoc]

end CallTree

/-! ## Runs as call trees -/

namespace World

open CallTree

variable {w w' w₁ w₂ : World} {ts ts' : List CallTree}

/-- What becomes of a world with the outcome of an operation that is settled without the host. -/
def settle (w : World) : EStateM.Result Error History Binding → World
  | .ok b h => ⟨h, w.objects ++ b.objects⟩
  | .error _ h => ⟨h, w.objects⟩

/-- A run from one world to another, with the trees of its operations. Each of them takes a world on as in
`World.Step`, and where it calls a function of the host, the operations within take the world on from there to where
the function returns or fails, or where the run ends. -/
inductive Performs : World → List CallTree → World → Prop where
  | stop (w : World) : Performs w [] w
  | settled {w w' : World} {ts : List CallTree} (op : Operation) {r : EStateM.Result Error History Binding}
      {ds : List Deed} (operands : ∀ a ∈ op.operands, w.Has a) (outcome : ∀ host, op.apply host w.history = r)
      (does : op.Does w.history ds) (rest : Performs (w.settle r) ts w') : Performs w (.node op ds [] :: ts) w'
  | entry {w w₁ w' : World} {within ts : List CallTree} (op : Operation) {f : Function} {args : List Value}
      {h : History} {ds : List Deed} (operands : ∀ a ∈ op.operands, w.Has a)
      (outcome : ∀ host, op.apply host w.history = (Binding.value <$> host f args) h)
      (does : op.Does w.history ds) (nested : Performs ⟨h, w.objects ++ Value.objectsList args⟩ within w₁)
      (rest : Performs w₁ ts w') : Performs w (.node op ds within :: ts) w'

theorem step_settle {op : Operation} {r : EStateM.Result Error History Binding}
    (operands : ∀ a ∈ op.operands, w.Has a) (outcome : ∀ host, op.apply host w.history = r) : w.Step (w.settle r) := by
  cases r with
  | ok => exact .result op operands outcome
  | error => exact .failure op operands outcome

theorem history_settle {r : EStateM.Result Error History Binding} {x : Run Binding} (outcome : x w.history = r) :
    (w.settle r).history = x.after w.history := by
  rw [Run.after, outcome]
  cases r <;> rfl

theorem Performs.append (run : w.Performs ts w') (more : w'.Performs ts' w₁) : w.Performs (ts ++ ts') w₁ := by
  induction run with
  | stop => exact more
  | settled op operands outcome does rest ih => exact .settled op operands outcome does (ih more)
  | entry op operands outcome does nested rest _ ih => exact .entry op operands outcome does nested (ih more)

/-- Runs go on from what programs get to. -/
theorem Performs.reachable (run : w.Performs ts w') (before : w.Reachable) : w'.Reachable := by
  induction run with
  | stop => exact before
  | settled op operands outcome does rest ih => exact ih (before.step (step_settle operands outcome))
  | entry op operands outcome does nested rest ihNested ih =>
    exact ih (ihNested (before.step (.entry op operands outcome)))

theorem Step.performs (next : w.Step w') : ∃ t, w.Performs [t] w' := by
  cases next with
  | result op operands outcome | failure op operands outcome =>
    obtain ⟨ds, does⟩ := op.exists_does w.history
    exact ⟨_, .settled op operands outcome does (.stop _)⟩
  | entry op operands outcome =>
    obtain ⟨ds, does⟩ := op.exists_does w.history
    exact ⟨_, .entry op operands outcome does (.stop _) (.stop _)⟩

/-- Every reachable world has call trees. -/
theorem reachable_iff_exists_performs : w.Reachable ↔ ∃ ts, Performs {} ts w := by
  constructor
  · intro run
    induction run with
    | start => exact ⟨[], .stop _⟩
    | step _ next ih =>
      obtain ⟨ts, run⟩ := ih
      obtain ⟨t, more⟩ := next.performs
      exact ⟨ts ++ [t], run.append more⟩
  · rintro ⟨ts, run⟩
    exact run.reachable .start

/-! ## Runs of the host's own functions -/

/-- Whether a run of the library, or of the host, in a world comes to performing the operations of some trees. `objects`
tells the objects of what it gives. -/
structure Plays {α : Type} (x : Run α) (objects : α → List Object) (w : World) (ts : List CallTree) (w' : World) :
    Prop where
  performs : w.Performs ts w'
  history : w'.history = x.after w.history
  known : ∀ a h, x w.history = .ok a h → objects a ⊆ w'.objects

/-- An operation is a tree of the run if the function that it calls comes to operations. -/
theorem plays_apply {op : Operation} {host : Host} (operands : ∀ a ∈ op.operands, w.Has a)
    (nested : ∀ f args h, (∀ host', op.apply host' w.history = (Binding.value <$> host' f args) h) →
      ∃ within w', Plays (host f args) Value.objects ⟨h, w.objects ++ Value.objectsList args⟩ within w') :
    ∃ ds within w', Plays (op.apply host) Binding.objects w [.node op ds within] w' := by
  obtain ⟨ds, does⟩ := op.exists_does w.history
  have settled : ∀ r, (∀ host, op.apply host w.history = r) →
      Plays (op.apply host) Binding.objects w [.node op ds []] (w.settle r) := by
    intro r outcome
    refine ⟨.settled op operands outcome does (.stop _), history_settle (outcome host), fun b h made => ?_⟩
    obtain rfl := made.symm.trans (outcome host)
    exact List.subset_append_right _ _
  rcases op.apply_cases w.history with ⟨b, h, outcome⟩ | ⟨e, h, outcome⟩ | ⟨f, args, h, outcome⟩
  · exact ⟨_, _, _, settled _ outcome⟩
  · exact ⟨_, _, _, settled _ outcome⟩
  · obtain ⟨within, w', performs, history, known⟩ := nested f args h outcome
    refine ⟨ds, within, w', .entry op operands outcome does performs (.stop _), ?_, fun b h' made => ?_⟩
    · rw [history, ← Run.after_map Binding.value, Run.after, Run.after, outcome]
    · rw [outcome] at made
      cases returned : host f args h with
      | ok v h'' =>
        cases made.symm.trans (Run.map_apply_of_ok returned Binding.value)
        exact known v _ returned
      | error e h'' => cases made.symm.trans (Run.map_apply_of_error returned Binding.value)

/-! ## The history of a run -/

/-- The history tells the deeds in pre-order. -/
theorem Performs.events (run : w.Performs ts w') :
    w'.history.events.toList = w.history.events.toList ++ (preorderList ts).flatMap Deed.events := by
  induction run with
  | stop w => exact (List.append_nil _).symm
  | settled op operands outcome does rest ih =>
    have first := does.events_after_echo
    rw [← history_settle (outcome echo)] at first
    simp only [ih, first, preorderList, preorder, List.flatMap_append, List.append_assoc, List.nil_append]
  | @entry w w₁ w' within ts op f args h ds operands outcome does nested rest ihNested ih =>
    have first := does.events_after_echo
    have entered : op.apply echo w.history = .ok (.value (.slice args)) h := outcome echo
    rw [Run.after, entered] at first
    simp only [ih, ihNested, first, preorderList, preorder, List.flatMap_append, List.append_assoc]

/-- At every operation a run divides into what was done before it, its tree, and what was done after it. -/
theorem Performs.divide {t : CallTree} (run : w.Performs ts w') (mem : t ∈ subtreesList ts) :
    ∃ before after w₁ w₂, w.Performs before w₁ ∧ w₁.Performs [t] w₂ ∧ w₂.Performs after w' ∧
      preorderList ts = preorderList before ++ t.preorder ++ preorderList after := by
  induction run with
  | stop => cases mem
  | settled op operands outcome does rest ih =>
    rw [subtreesList, subtrees, subtreesList] at mem
    rcases List.mem_append.1 mem with here | later
    · cases List.mem_singleton.1 here
      exact ⟨[], _, _, _, .stop _, .settled op operands outcome does (.stop _), rest, rfl⟩
    · obtain ⟨before, after, w₁, w₂, first, own, last, split⟩ := ih later
      refine ⟨_ :: before, after, w₁, w₂, .settled op operands outcome does first, own, last, ?_⟩
      simp only [preorderList, split, List.append_assoc]
  | entry op operands outcome does nested rest ihNested ih =>
    rw [subtreesList, subtrees, List.cons_append] at mem
    rcases List.mem_cons.1 mem with rfl | mem
    · exact ⟨[], _, _, _, .stop _, .entry op operands outcome does nested (.stop _), rest, rfl⟩
    rcases List.mem_append.1 mem with inside | later
    · -- the call has not returned where what was done before ends, and it returns in what was done after
      obtain ⟨before, after, w₁, w₂, first, own, last, split⟩ := ihNested inside
      refine ⟨[.node op _ before], after ++ _, w₁, w₂, .entry op operands outcome does first (.stop _), own,
        last.append rest, ?_⟩
      simp only [preorderList, preorder, split, preorderList_append, List.append_assoc, List.append_nil]
    · obtain ⟨before, after, w₁, w₂, first, own, last, split⟩ := ih later
      refine ⟨_ :: before, after, w₁, w₂, .entry op operands outcome does nested first, own, last, ?_⟩
      simp only [preorderList, split, List.append_assoc]

theorem Performs.does {op : Operation} {ds : List Deed} {within : List CallTree}
    (run : w.Performs [.node op ds within] w') : op.Does w.history ds := by
  cases run with
  | settled op operands outcome does rest => exact does
  | entry op operands outcome does nested rest => exact does

/-- What an operation within a run does, and that it comes right in front of what is done within its call. -/
theorem Performs.events_at {op : Operation} {ds : List Deed} {within : List CallTree} (run : w.Performs ts w')
    (mem : .node op ds within ∈ subtreesList ts) :
    ∃ before after w₁ w₂, w.Performs before w₁ ∧ w₁.Performs [.node op ds within] w₂ ∧ w₂.Performs after w' ∧
      op.Does w₁.history ds ∧
      w'.history.events.toList = w₁.history.events.toList ++ ds.flatMap Deed.events ++
        (preorderList within).flatMap Deed.events ++ (preorderList after).flatMap Deed.events := by
  obtain ⟨before, after, w₁, w₂, first, own, last, -⟩ := run.divide mem
  refine ⟨before, after, w₁, w₂, first, own, last, own.does, ?_⟩
  simp only [last.events, own.events, preorderList, preorder, List.append_nil, List.flatMap_append, List.append_assoc]

end World

/-- The log of a history: the records alone. -/
def History.records (h : History) : List Record := h.events.toList.filterMap Event.record?

namespace World

open CallTree

variable {w : World} {ts : List CallTree}

/-- What an operation that does `ds` after a history is, seen from what it does, and what it does, seen from what it
is. -/
structure Accounts (op : Operation) (h : History) (ds : List Deed) : Prop where
  /-- A handler is picked by a match that passes its checks, and on record right in front of its call. -/
  dispatches : ∀ v c, .dispatch v c ∈ ds → ∃ u s, op.IsMatch u v (.ok s) ∧ u.check s = .ok () ∧
    ((∃ x handler, v.tagged? = some x ∧ (x.tag, handler) ∈ s.cases ∧
        ds.flatMap Deed.events = [.recorded (.toCase v x.tag), .called handler x.payload]) ∨
      ∃ handler, s.otherwise = some handler ∧
        ds.flatMap Deed.events = [.recorded (.toOtherwise v), .called handler []])
  entry : ∀ f args h', (∀ host, op.apply host h = (Binding.value <$> host f args) h') →
    ∃ d : Deed, ds = [d] ∧ d.call? = some (.function f, args)
  picked : ∀ u v read, op.IsMatch u v read →
    ∀ s c, read = .ok s → u.check s = .ok () → s.choose? v = some c → ds = [.dispatch v c]
  stuck : ∀ u v read, op.IsMatch u v read → (∀ s, read = .ok s → u.check s = .ok () → s.choose? v = none) → ds = []
  tag : ∀ t h', op.MakesTag → (∀ host, op.apply host h = .ok (.value (.tag t)) h') → ds = [.tag t]
  union : ∀ u h', op.MakesUnion → (∀ host, op.apply host h = .ok (.value (.union u)) h') → ds = [.union u.tags.length]
  named : ∀ n h', op.MakesNamed → (∀ host, op.apply host h = .ok (.named n) h') →
    ds = n.union.tags.map .tag ++ [.union n.union.tags.length]
  /-- The tags for names of which one repeats are made, and no union of them. -/
  repeated : ∀ names name, op.Repeats names name → ds = (Tag.series h.tags names).map .tag
  failed : ∀ e h', (∀ host, op.apply host h = .error e h') → ∀ size, .union size ∉ ds
  union_made : ∀ size, .union size ∈ ds →
    (∃ u h', op.MakesUnion ∧ (∀ host, op.apply host h = .ok (.value (.union u)) h') ∧ size = u.tags.length) ∨
    ∃ n h', op.MakesNamed ∧ (∀ host, op.apply host h = .ok (.named n) h') ∧ size = n.union.tags.length

theorem accounts_of_does {op : Operation} {h : History} {ds : List Deed} (does : op.Does h ds) : Accounts op h ds where
  dispatches := fun _ _ mem => does.dispatches mem
  entry := fun _ _ _ entry => does.of_entry entry
  picked := fun _ _ _ isMatch _ _ made covered choice => does.unique (.dispatch isMatch made covered choice)
  stuck := fun _ _ _ isMatch stuck => isMatch.does_nothing stuck does
  tag := fun _ _ makes made => does.unique (.tag makes made)
  union := fun _ _ makes made => does.unique (.union makes made)
  named := fun _ _ makes made => does.unique (.named makes made)
  repeated := fun _ _ repeats => does.unique (.repeated repeats)
  failed := fun _ _ failed size => does.not_mem_union_of_error failed size
  union_made := fun _ mem => does.makes_of_mem_union mem

/-- How the history of a world mirrors the call trees of the run that leads to it. -/
structure Mirrors (w : World) (ts : List CallTree) : Prop where
  events : w.history.events.toList = (preorderList ts).flatMap Deed.events
  records : w.history.records = (preorderList ts).filterMap Deed.record?
  debug : w.history.records.filter (fun r => r.level = .debug) = (preorderList ts).filterMap Deed.choice?
  created : w.history.created = (preorderList ts).filterMap Deed.tag?
  numbered : w.history.Numbered
  /-- What an operation does comes after all that was done before, and right in front of what is done within it. -/
  order : ∀ op ds within, .node op ds within ∈ subtreesList ts →
    ∃ before after w₁ w₂, Performs {} before w₁ ∧ w₁.Performs [.node op ds within] w₂ ∧ w₂.Performs after w ∧
      op.Does w₁.history ds ∧
      w.history.events.toList = w₁.history.events.toList ++ ds.flatMap Deed.events ++
        (preorderList within).flatMap Deed.events ++ (preorderList after).flatMap Deed.events

theorem Performs.mirrors (run : Performs {} ts w) : w.Mirrors ts := by
  have told : w.history.events.toList = (preorderList ts).flatMap Deed.events := run.events
  have log : w.history.records = (preorderList ts).filterMap Deed.record? := by
    rw [History.records, told, Deed.filterMap_record?_flatMap_events]
  exact {
    events := told
    records := log
    debug := by rw [log, Deed.filter_debug_filterMap_record?]
    created := by rw [History.created, told, Deed.filterMap_created?_flatMap_events]
    numbered := (run.reachable .start).nominal.numbered
    order := fun _ _ _ mem => run.events_at mem }

/-- The lines that records are logged as. -/
structure RecordLines [Text.Glyphs] : Prop where
  toCase : ∀ v t, (Record.toCase v t).line =
    "DEBUG " ++ ("dispatching " ++ v.display ++ " to the case for " ++ t.display)
  toOtherwise : ∀ v, (Record.toOtherwise v).line = "DEBUG " ++ ("dispatching " ++ v.display ++ " to the catch-all")
  tagNamed : ∀ (t : Tag) name, t.name = some name → (Record.tagCreated t).line =
    "TRACE " ++ ("created tag #" ++ toString t.id.toNat ++ (" (Some(" ++ Text.quoted name ++ "))"))
  tagAnonymous : ∀ t : Tag, t.name = none → (Record.tagCreated t).line =
    "TRACE " ++ ("created tag #" ++ toString t.id.toNat ++ " (None)")
  union : ∀ size, (Record.unionCreated size).line = "TRACE " ++ ("created union of " ++ toString size ++ " tags")

theorem recordLines [Text.Glyphs] : RecordLines where
  toCase := fun _ _ => rfl
  toOtherwise := fun _ => rfl
  tagNamed := by
    rintro ⟨ident, id, _⟩ name ⟨⟩
    rfl
  tagAnonymous := by
    rintro ⟨ident, id, _⟩ ⟨⟩
    rfl
  union := fun _ => rfl

/-- What is told by the records of a run that has the call trees `ts` and leads to a world. -/
structure RecordsMirrorCalls [Text.Glyphs] (w : World) (ts : List CallTree) : Prop where
  runs : ∀ w', Reachable w' ↔ ∃ ts', Performs {} ts' w'
  goes_on : ∀ (op : Operation) (host : Host), (∀ a ∈ op.operands, w.Has a) →
    (∀ f args h, (∀ host', op.apply host' w.history = (Binding.value <$> host' f args) h) →
      ∃ within w', Plays (host f args) Value.objects ⟨h, w.objects ++ Value.objectsList args⟩ within w') →
    ∃ ds within w', Plays (op.apply host) Binding.objects w [.node op ds within] w' ∧
      Performs {} (ts ++ [.node op ds within]) w'
  does_unique : ∀ (op : Operation) h, ∃! ds, op.Does h ds
  accounts : ∀ (op : Operation) h ds, op.Does h ds → Accounts op h ds
  mirrors : w.Mirrors ts
  lines : RecordLines

/-- Records mirror calls in every run, whatever the handlers do; a run that a program can make has call trees, and each
operation that it applies next is one more, with what the host's functions do within it. What an operation does
is settled by what happened before, and the history tells what the operations do in pre-order. So what is recorded for
debugging are the handlers that switches pick, and each of these records stands right in front of the call, while all
that is done within the call comes after it. It names the tag that constructed the value, or the catch-all. A match
that finds no handler, because of its clauses, its coverage or the value, does nothing. The tags on record are those
that were made, in order; a union is on record where it is made, with its size and after the tags that are
made for it, and one that fails is not. -/
theorem Performs.records_mirror_calls [Text.Glyphs] (run : Performs {} ts w) : w.RecordsMirrorCalls ts where
  runs := fun _ => reachable_iff_exists_performs
  goes_on := by
    intro op host operands nested
    obtain ⟨ds, within, w', plays⟩ := plays_apply operands nested
    exact ⟨ds, within, w', plays, run.append plays.performs⟩
  does_unique := Operation.existsUnique_does
  accounts := fun _ _ _ => accounts_of_does
  mirrors := run.mirrors
  lines := recordLines

/-- A leaf, which is the second object that is made. -/
def sprout : Value := .tagged ⟨1, leaf, []⟩

/-- A function of the host, which is the third. -/
def gardener : Function := ⟨2, .host none⟩

/-- Hands leaves to the host. -/
def tends : Switch := { cases := [(leaf, .function gardener)] }

def regrows : Switch := { cases := [(leaf, .tag leaf)] }

/-- What is done in the garden: the handler of a leaf dispatches the leaf again, and then makes a union of which a name
repeats; at last there is a value that is no leaf. -/
def errands : List CallTree :=
  [.node (.tag (some "Leaf")) [.tag leaf] [], .node (.union [leaf]) [.union 1] [], .node (.wrap leaf []) [] [],
    .node (.function none) [] [],
    .node (.run (leafUnion 0) sprout tends) [.dispatch sprout (.case leaf (.function gardener) [])]
      [.node (.run (leafUnion 0) sprout regrows) [.dispatch sprout (.case leaf (.tag leaf) [])] [],
        .node (.named ["X", "X"]) [.tag (twin 1), .tag (twin 2)] []],
    .node (.run (leafUnion 0) .nothing tends) [] []]

/-- The garden, with so many tags and objects made, and with more events and objects than what it starts with. -/
def garden (tags objects : Nat) (events : List Event) (more : List Object) : World where
  history := ⟨tags, objects, ⟨[.recorded (.tagCreated leaf), .recorded (.unionCreated 1)] ++ events⟩⟩
  objects := [.tag leaf, .union (leafUnion 0), .tag leaf, .tagged ⟨1, leaf, []⟩, .tag leaf, .function gardener] ++ more

/-- The garden after the errands. -/
def tended : World :=
  garden 3 4 [.recorded (.toCase sprout leaf), .called (.function gardener) [], .recorded (.toCase sprout leaf),
    .called (.tag leaf) [], .recorded (.tagCreated (twin 1)), .recorded (.tagCreated (twin 2))]
    [.tagged ⟨3, leaf, []⟩, .tag leaf]

theorem has_garden {tags objects : Nat} {events : List Event} {more : List Object} {v : Value} {s : Switch}
    (value : v = sprout ∨ v = .nothing) (switch : s = tends ∨ s = regrows) :
    ∀ a ∈ (Operation.run (leafUnion 0) v s).operands, (garden tags objects events more).Has a := by
  rcases value with rfl | rfl <;> rcases switch with rfl | rfl <;>
    simp [Operation.operands, Has, Binding.objects, Value.objects, Value.objectsList, Switch.objects, Switch.clauses,
      Callable.toValue, Union.objects, Function.objects, Code.objects, garden, sprout, tends, regrows, gardener, leafUnion]

theorem errands_performed : Performs {} errands tended := by
  have sown : Performs {} (errands.take 4) (garden 1 3 [] []) := by
    refine .settled _ (by simp [Operation.operands]) (fun _ => rfl) (.tag (.tag _) fun _ => rfl) ?_
    refine .settled _ ?_ (fun _ => rfl) (.union (u := leafUnion 0) (.union _) fun _ => rfl) ?_
    · simp [Operation.operands, Has, Binding.objects, Value.objects, settle, leaf]
    refine .settled _ ?_ (fun _ => rfl) (.quiet (.wrap _ _)) ?_
    · simp [Operation.operands, Has, Binding.objects, Value.objects, settle, leaf]
    exact .settled _ (by simp [Operation.operands]) (fun _ => rfl) (.quiet (.function _)) (.stop _)
  have again : firstRepeat? ["X", "X"] = some "X" := by simp [firstRepeat?, firstRepeatIn?]
  let dispatched : World := garden 1 4 [.recorded (.toCase sprout leaf), .called (.function gardener) [],
    .recorded (.toCase sprout leaf), .called (.tag leaf) []] [.tagged ⟨3, leaf, []⟩, .tag leaf]
  have clash : NamedUnion.create ["X", "X"] dispatched.history = .error (.repeatedName "X") tended.history :=
    NamedUnion.create_of_repeat (by decide) again
  have repeated : Performs dispatched
      [.node (.named ["X", "X"]) [.tag (twin 1), .tag (twin 2)] []] tended :=
    .settled _ (by simp [Operation.operands]) (fun _ => Run.map_apply_of_error clash Binding.named)
      (.repeated (.named (by decide) again)) (.stop _)
  have missed : Performs tended [.node (.run (leafUnion 0) .nothing tends) [] []] tended :=
    .settled _ (has_garden (.inr rfl) (.inl rfl)) (fun _ => rfl) (.refused fun _ _ => rfl) (.stop _)
  have nested := Performs.settled (.run (leafUnion 0) sprout regrows)
    (w := garden 1 3 [.recorded (.toCase sprout leaf), .called (.function gardener) []] [])
    (has_garden (.inl rfl) (.inr rfl)) (fun _ => rfl) (.dispatch (.run _ _ _) rfl rfl rfl) repeated
  have called : Performs (garden 1 3 [] []) _ tended := .entry (.run (leafUnion 0) sprout tends)
    (has_garden (.inl rfl) (.inl rfl)) (fun _ => rfl) (.dispatch (.run _ _ _) rfl rfl rfl) nested missed
  exact sown.append called

theorem records_mirror_calls_errands :
    let _ := Text.Glyphs.ascii
    Performs {} errands tended ∧
    tended.history.records.filter (fun r => r.level = .debug) = [.toCase sprout leaf, .toCase sprout leaf] ∧
    tended.history.created = [leaf, twin 1, twin 2] ∧
    tended.history.records = [.tagCreated leaf, .unionCreated 1, .toCase sprout leaf, .toCase sprout leaf,
      .tagCreated (twin 1), .tagCreated (twin 2)] ∧
    (Record.toCase sprout leaf).line = "DEBUG " ++ ("dispatching " ++ sprout.display ++ " to the case for Leaf") ∧
    ∃ ds within w, Performs {} (errands ++ [.node (.call (.function gardener) []) ds within]) w := by
  intro _
  have mirror := Performs.records_mirror_calls errands_performed
  refine ⟨errands_performed, mirror.mirrors.debug, mirror.mirrors.created, mirror.mirrors.records,
    mirror.lines.toCase sprout leaf, ?_⟩
  have known : ∀ a ∈ (Operation.call (.function gardener) []).operands, tended.Has a := by
    simp [Operation.operands, Has, Binding.objects, Value.objects, Function.objects, Code.objects, gardener, tended, garden]
  obtain ⟨ds, within, w, -, run⟩ := mirror.goes_on (.call (.function gardener) []) echo known fun f args h outcome => by
    refine ⟨[], _, .stop _, rfl, fun v h' returned => ?_⟩
    cases returned
    exact List.subset_append_right _ _
  exact ⟨ds, within, w, run⟩

end World

end TaggedUnion
