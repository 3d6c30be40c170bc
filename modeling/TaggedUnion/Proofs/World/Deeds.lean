/-
What operations do on their own account, as far as it goes on record or is a call: they make a tag, they make a union,
they pick a handler through a switch and call it, they call something else. The history tells exactly these deeds,
one after another: a tag or a union is a record, a handler that is picked is a record and its call right after it, and
any other call is no record. What is refused does nothing.
-/
import TaggedUnion.Proofs.World.Chronicle

namespace TaggedUnion

open Script (Binding)

/-! ## Deeds -/

inductive Deed where
  | tag (t : Tag)
  | union (size : Nat)
  /-- A switch calls the handler that it picks for a value. -/
  | dispatch (v : Value) (c : Switch.Choice)
  /-- Something is called, but not by a switch. -/
  | call (c : Callable) (args : List Value)

namespace Deed

def record? : Deed → Option Record
  | .tag t => some (.tagCreated t)
  | .union size => some (.unionCreated size)
  | .dispatch v c => some (c.record v)
  | .call _ _ => none

def call? : Deed → Option (Callable × List Value)
  | .tag _ | .union _ => none
  | .dispatch _ c => some (c.handler, c.args)
  | .call c args => some (c, args)

def tag? : Deed → Option Tag
  | .tag t => some t
  | _ => none

/-- The record of a handler that is picked. -/
def choice? : Deed → Option Record
  | .dispatch v c => some (c.record v)
  | _ => none

/-- What a history tells of a deed: its record, and then its call. -/
def events (d : Deed) : List Event :=
  (d.record?.map Event.recorded).toList ++ (d.call?.map fun c => Event.called c.1 c.2).toList

theorem filterMap_record?_flatMap_events (ds : List Deed) :
    (ds.flatMap events).filterMap Event.record? = ds.filterMap record? := by
  induction ds with
  | nil => rfl
  | cons d ds ih =>
    rw [List.flatMap_cons, List.filterMap_append, ih]
    cases d <;> rfl

theorem filterMap_created?_flatMap_events (ds : List Deed) :
    (ds.flatMap events).filterMap Event.created? = ds.filterMap tag? := by
  induction ds with
  | nil => rfl
  | cons d ds ih =>
    rw [List.flatMap_cons, List.filterMap_append, ih]
    rcases d with t | size | ⟨v, c | c⟩ | c <;> rfl

/-- Handlers that are picked are all that is recorded for debugging. -/
theorem filter_debug_filterMap_record? (ds : List Deed) :
    (ds.filterMap record?).filter (fun r => r.level = .debug) = ds.filterMap choice? := by
  rw [List.filter_filterMap]
  refine List.filterMap_congr fun d _ => ?_
  rcases d with t | size | ⟨v, c | c⟩ | c <;> rfl

theorem flatMap_events_map_tag (ts : List Tag) :
    (ts.map Deed.tag).flatMap events = ts.map fun t => Event.recorded (.tagCreated t) := by
  rw [List.flatMap_map, List.map_eq_flatMap]
  rfl

theorem events_append_inj {d d' : Deed} {es es' : List Event} (same : d.events ++ es = d'.events ++ es') :
    d = d' ∧ es = es' := by
  -- the record in front of a handler's call says whether it is a case or the catch-all
  rcases d with t | size | ⟨v, ⟨t, handler, payload⟩ | handler⟩ | ⟨c, args⟩ <;>
    rcases d' with t' | size' | ⟨v', ⟨t', handler', payload'⟩ | handler'⟩ | ⟨c', args'⟩ <;>
    cases same <;> exact ⟨rfl, rfl⟩

/-- The history tells deeds apart. -/
theorem flatMap_events_injective {ds ds' : List Deed} (same : ds.flatMap events = ds'.flatMap events) : ds = ds' := by
  induction ds generalizing ds' with
  | nil =>
    cases ds' with
    | nil => rfl
    | cons d' ds' => cases d' <;> cases same
  | cons d ds ih =>
    cases ds' with
    | nil => cases d <;> cases same
    | cons d' ds' =>
      obtain ⟨rfl, rest⟩ := events_append_inj same
      rw [ih rest]

end Deed

/-! ## Outcomes of what is recorded -/

variable {op : Operation} {h h' : History} {ds ds' : List Deed}

namespace Operation

inductive MakesTag : Operation → Prop where
  | tag (name : Option String) : MakesTag (.tag name)
  | tagOf (x : Value) : MakesTag (.tagOf x)

inductive MakesUnion : Operation → Prop where
  | union (ts : List Tag) : MakesUnion (.union ts)
  | unionOf (vs : List Value) : MakesUnion (.unionOf vs)

inductive MakesNamed : Operation → Prop where
  | named (names : List String) : MakesNamed (.named names)
  | namedOf (x : Value) : MakesNamed (.namedOf x)

/-- What makes neither tags nor unions and calls nothing. -/
inductive MakesQuietly : Operation → Prop where
  | wrap (t : Tag) (payload : List Value) : MakesQuietly (.wrap t payload)
  | function (label : Option String) : MakesQuietly (.function label)
  | toFunction (c : Callable) : MakesQuietly (.toFunction c)

theorem MakesTag.outcome (makes : op.MakesTag) : (∃ e, op.Refuses e) ∨
    ∃ name, ∀ host h, op.apply host h = .ok (.value (.tag (.nth h.tags name))) (h.withTags [.nth h.tags name]) := by
  cases makes with
  | tag name => exact .inr ⟨name, fun _ _ => rfl⟩
  | tagOf x =>
    cases x with
    | nothing => exact .inr ⟨none, fun _ _ => rfl⟩
    | str s => exact .inr ⟨some s, fun _ _ => rfl⟩
    | _ => exact .inl ⟨_, fun _ _ => rfl⟩

theorem MakesUnion.outcome (makes : op.MakesUnion) : (∃ e, op.Refuses e) ∨
    ∃ (ts : List Tag) (nodup : ts.Nodup) (nodupNames : (ts.filterMap Tag.name).Nodup), ∀ host h,
      op.apply host h = .ok (.value (.union ⟨h.objects, ts, nodup, nodupNames⟩)) (h.withUnion ts.length) := by
  cases makes with
  | union ts => exact (refuses_or_makes_union fun _ => rfl).imp_right fun made => ⟨ts, made⟩
  | unionOf vs =>
    by_cases tags : Union.misfits vs = []
    · exact (refuses_or_makes_union (unionOf_apply tags)).imp_right fun made => ⟨_, made⟩
    · exact .inl ⟨_, refuses_unionOf tags⟩

theorem MakesNamed.outcome (makes : op.MakesNamed) :
    (∃ e, op.Refuses e) ∨ (∃ names name, op.Repeats names name) ∨
    ∃ (names : List String) (nodup : names.Nodup), ∀ host h,
      op.apply host h = .ok (.named (.ofSeries h.objects h.tags nodup))
        ((h.withTags (Tag.series h.tags names)).withUnion (Tag.series h.tags names).length) := by
  cases makes with
  | named names =>
    cases found : names.find? fun name => decide (name ∈ NamedUnion.reserved) with
    | some name => exact .inl ⟨_, refuses_named found⟩
    | none =>
      have free : ∀ name ∈ names, name ∉ NamedUnion.reserved := by simpa using found
      rcases repeats_or_makes_named (fun _ => rfl) free with ⟨name, again⟩ | ⟨nodup, made⟩
      · exact .inr (.inl ⟨names, name, .named free again⟩)
      · exact .inr (.inr ⟨names, nodup, made⟩)
  | namedOf x =>
    rcases NamedUnion.fault_or_texts x with ⟨e, fault⟩ | ⟨names, rfl, free⟩
    · exact .inl ⟨e, fun host h => Run.map_apply_congr (NamedUnion.ofValue_of_fault fault h) Binding.named⟩
    · rcases repeats_or_makes_named (namedOf_apply names) free with ⟨name, again⟩ | ⟨nodup, made⟩
      · exact .inr (.inl ⟨names, name, .namedOf free again⟩)
      · exact .inr (.inr ⟨names, nodup, made⟩)

/-! ## What operations do -/

/-- What an operation does after a history, apart from what the host's functions do that it calls. -/
inductive Does (op : Operation) (h : History) : List Deed → Prop where
  | tag {t : Tag} {h' : History} (makes : op.MakesTag)
      (outcome : ∀ host, op.apply host h = .ok (.value (.tag t)) h') : Does op h [.tag t]
  | union {u : Union} {h' : History} (makes : op.MakesUnion)
      (outcome : ∀ host, op.apply host h = .ok (.value (.union u)) h') : Does op h [.union u.tags.length]
  /-- The tags of a named union are made for it, and first. -/
  | named {n : NamedUnion} {h' : History} (makes : op.MakesNamed)
      (outcome : ∀ host, op.apply host h = .ok (.named n) h') :
      Does op h (n.union.tags.map .tag ++ [.union n.union.tags.length])
  /-- A repeated name is found when the tags have been made, and there is no union. -/
  | repeated {names : List String} {name : String} (repeats : op.Repeats names name) :
      Does op h ((Tag.series h.tags names).map .tag)
  | call {c : Callable} {args : List Value} (calls : op.Calls none c args) : Does op h [.call c args]
  | dispatch {u : Union} {v : Value} {read : Except Error Switch} {s : Switch} {c : Switch.Choice}
      (isMatch : op.IsMatch u v read) (made : read = .ok s) (covered : u.check s = .ok ())
      (picked : s.choose? v = some c) : Does op h [.dispatch v c]
  | refused {e : Error} (refuses : op.Refuses e) : Does op h []
  /-- Tagged values and functions are made without a record. -/
  | quiet (makes : op.MakesQuietly) : Does op h []

theorem Calls.exists_does {r : Option Record} {c : Callable} {args : List Value} (calls : op.Calls r c args)
    (h : History) : ∃ ds, op.Does h ds := by
  cases calls with
  | unwrap _ tagged own => exact ⟨_, .call (.unwrap c tagged own)⟩
  | call args callable => exact ⟨_, .call (.call args callable)⟩
  | dispatch isMatch made covered picked => exact ⟨_, .dispatch isMatch made covered picked⟩

theorem MakesTag.exists_does (makes : op.MakesTag) (h : History) : ∃ ds, op.Does h ds := by
  rcases makes.outcome with ⟨e, refuses⟩ | ⟨name, made⟩
  · exact ⟨_, .refused refuses⟩
  · exact ⟨_, .tag makes fun host => made host h⟩

theorem MakesUnion.exists_does (makes : op.MakesUnion) (h : History) : ∃ ds, op.Does h ds := by
  rcases makes.outcome with ⟨e, refuses⟩ | ⟨ts, nodup, nodupNames, made⟩
  · exact ⟨_, .refused refuses⟩
  · exact ⟨_, .union makes fun host => made host h⟩

theorem MakesNamed.exists_does (makes : op.MakesNamed) (h : History) : ∃ ds, op.Does h ds := by
  rcases makes.outcome with ⟨e, refuses⟩ | ⟨names, name, repeats⟩ | ⟨names, nodup, made⟩
  · exact ⟨_, .refused refuses⟩
  · exact ⟨_, .repeated repeats⟩
  · exact ⟨_, .named makes fun host => made host h⟩

theorem exists_does (op : Operation) (h : History) : ∃ ds, op.Does h ds := by
  by_cases calls : ∃ r c args, op.Calls r c args
  · obtain ⟨r, c, args, calls⟩ := calls
    exact calls.exists_does h
  · have uncalled : ∀ r c args, ¬ op.Calls r c args := fun r c args called => calls ⟨r, c, args, called⟩
    have refused : (∃ e, op.Refuses e) → ∃ ds, op.Does h ds := fun ⟨_, refuses⟩ => ⟨_, .refused refuses⟩
    cases op with
    | tag name => exact (MakesTag.tag name).exists_does h
    | tagOf x => exact (MakesTag.tagOf x).exists_does h
    | wrap t payload => exact ⟨_, .quiet (.wrap t payload)⟩
    | unwrap t v f => exact refused (refuses_unwrap_of_not_calls uncalled)
    | function label => exact ⟨_, .quiet (.function label)⟩
    | toFunction c => exact ⟨_, .quiet (.toFunction c)⟩
    | call v args => exact refused (refuses_call_of_not_calls uncalled)
    | union ts => exact (MakesUnion.union ts).exists_does h
    | unionOf vs => exact (MakesUnion.unionOf vs).exists_does h
    | run u v s => exact refused ((IsMatch.run u v s).refuses uncalled)
    | switch u v clauses => exact refused ((IsMatch.switch u v clauses).refuses uncalled)
    | named names => exact (MakesNamed.named names).exists_does h
    | namedOf x => exact (MakesNamed.namedOf x).exists_does h
    | namedSwitch n v handlers otherwise => exact refused ((IsMatch.namedSwitch n v handlers otherwise).refuses uncalled)

end Operation

/-! ## The history tells what has been done -/

namespace History

theorem events_noting (h : History) (e : Event) : (h.noting e).events.toList = h.events.toList ++ [e] :=
  Array.toList_push

theorem events_withUnion (h : History) (size : Nat) :
    (h.withUnion size).events.toList = h.events.toList ++ [Deed.union size].flatMap Deed.events :=
  h.events_noting (.recorded (.unionCreated size))

theorem events_withTags (h : History) (ts : List Tag) :
    (h.withTags ts).events.toList = h.events.toList ++ (ts.map Deed.tag).flatMap Deed.events := by
  rw [Deed.flatMap_events_map_tag, withTags, Array.toList_appendList]

theorem events_recording_noting (h : History) (d : Deed) {c : Callable} {args : List Value}
    (call : d.call? = some (c, args)) :
    ((h.recording d.record?).noting (.called c args)).events.toList = h.events.toList ++ d.events := by
  rw [events_noting, Deed.events, call]
  cases d.record? with
  | none => rfl
  | some r =>
    rw [recording, events_noting, List.append_assoc]
    rfl

end History

/-- Where it stops at the host's functions, a call is an event and nothing more. -/
theorem Callable.events_after_call_echo (c : Callable) (args : List Value) (h : History) :
    ((c.call World.echo args).after h).events = (h.noting (.called c args)).events := by
  cases c with
  | function f =>
    obtain ⟨ident, code⟩ := f
    cases code <;> rfl
  | tag | union => rfl

namespace Operation

theorem MakesQuietly.events_after_echo (makes : op.MakesQuietly) :
    ((op.apply World.echo).after h).events = h.events := by
  cases makes with
  | wrap | function => rfl
  | toFunction c => cases c <;> rfl

/-- What is done in a call is told by the call and the record in front of it. -/
theorem Calls.events_after_echo {d : Deed} {c : Callable} {args : List Value} (calls : op.Calls d.record? c args)
    (call : d.call? = some (c, args)) :
    ((op.apply World.echo).after h).events.toList = h.events.toList ++ [d].flatMap Deed.events := by
  have same : (op.apply World.echo).after h = (Binding.value <$> c.call World.echo args).after (h.recording d.record?) := by
    rw [Run.after, Run.after, calls.apply_eq]
  rw [List.flatMap_singleton, ← h.events_recording_noting d call, ← Callable.events_after_call_echo, same, Run.after_map]

/-- Where it stops at the host's functions, an operation goes on with the history by the events of its deeds. -/
theorem Does.events_after_echo (does : op.Does h ds) :
    ((op.apply World.echo).after h).events.toList = h.events.toList ++ ds.flatMap Deed.events := by
  cases does with
  | @tag t h' makes outcome =>
    rcases makes.outcome with ⟨e, refuses⟩ | ⟨name, made⟩
    · cases (refuses World.echo h).symm.trans (outcome World.echo)
    · cases (made World.echo h).symm.trans (outcome World.echo)
      rw [Run.after, made]
      exact h.events_withTags [_]
  | @union u h' makes outcome =>
    rcases makes.outcome with ⟨e, refuses⟩ | ⟨ts, nodup, nodupNames, made⟩
    · cases (refuses World.echo h).symm.trans (outcome World.echo)
    · cases (made World.echo h).symm.trans (outcome World.echo)
      rw [Run.after, made]
      exact h.events_withUnion _
  | @named n h' makes outcome =>
    rcases makes.outcome with ⟨e, refuses⟩ | ⟨names, name, repeats⟩ | ⟨names, nodup, made⟩
    · cases (refuses World.echo h).symm.trans (outcome World.echo)
    · cases (repeats.apply_eq World.echo h).symm.trans (outcome World.echo)
    · cases (made World.echo h).symm.trans (outcome World.echo)
      rw [Run.after, made, List.flatMap_append, ← List.append_assoc, ← History.events_withTags]
      exact History.events_withUnion _ _
  | repeated repeats =>
    rw [Run.after, repeats.apply_eq]
    exact h.events_withTags _
  | @call c args calls => exact Calls.events_after_echo (d := .call c args) calls rfl
  | dispatch isMatch made covered picked => exact Calls.events_after_echo (.dispatch isMatch made covered picked) rfl
  | refused refuses =>
    rw [Run.after, refuses]
    exact (List.append_nil _).symm
  | quiet makes =>
    rw [makes.events_after_echo]
    exact (List.append_nil _).symm

/-- What an operation does is settled by what happened before. -/
theorem Does.unique (does : op.Does h ds) (does' : op.Does h ds') : ds = ds' := by
  have same := does.events_after_echo.symm.trans does'.events_after_echo
  exact Deed.flatMap_events_injective (List.append_cancel_left same)

theorem existsUnique_does (op : Operation) (h : History) : ∃! ds, op.Does h ds := by
  obtain ⟨ds, does⟩ := op.exists_does h
  exact ⟨ds, does, fun ds' does' => does'.unique does⟩

/-! ## Functions of the host -/

/-- If an operation comes to a function of the host, that is what it calls. -/
theorem Calls.eq_of_entry {r : Option Record} {c : Callable} {args args' : List Value} {f : Function}
    (calls : op.Calls r c args) (entry : ∀ host, op.apply host h = (Binding.value <$> host f args') h') :
    c = .function f ∧ args = args' := by
  -- a host that gives back what it is asked to run
  let told : Host := fun g args => return .slice (.function g :: args)
  have same := (calls.apply_eq told h).symm.trans (entry told)
  cases c with
  | function g =>
    obtain ⟨ident, code⟩ := g
    cases code <;> cases same
    exact ⟨rfl, rfl⟩
  | tag | union => cases same

theorem Does.of_entry {f : Function} {args : List Value} (does : op.Does h ds)
    (entry : ∀ host, op.apply host h = (Binding.value <$> host f args) h') :
    ∃ d : Deed, ds = [d] ∧ d.call? = some (.function f, args) := by
  have entered := entry World.echo
  cases does with
  | tag makes outcome | union makes outcome | named makes outcome =>
    cases (outcome World.echo).symm.trans entered
  | repeated repeats => cases (repeats.apply_eq World.echo h).symm.trans entered
  | refused refuses => cases (refuses World.echo h).symm.trans entered
  | quiet makes =>
    cases makes with
    | wrap | function => cases entered
    | toFunction c => cases c <;> cases entered
  | call calls =>
    obtain ⟨rfl, rfl⟩ := calls.eq_of_entry entry
    exact ⟨_, rfl, rfl⟩
  | @dispatch u v read s c isMatch made covered picked =>
    obtain ⟨callee, own⟩ := (Calls.dispatch isMatch made covered picked).eq_of_entry entry
    exact ⟨_, rfl, by rw [Deed.call?, callee, own]⟩

/-! ## Deeds of one kind -/

/-- Unions are on record for what makes them, and only there. -/
theorem Does.makes_of_mem_union {size : Nat} (does : op.Does h ds) (mem : .union size ∈ ds) :
    (∃ u h', op.MakesUnion ∧ (∀ host, op.apply host h = .ok (.value (.union u)) h') ∧ size = u.tags.length) ∨
    ∃ n h', op.MakesNamed ∧ (∀ host, op.apply host h = .ok (.named n) h') ∧ size = n.union.tags.length := by
  cases does with
  | union makes outcome =>
    cases List.mem_singleton.1 mem
    exact .inl ⟨_, _, makes, outcome, rfl⟩
  | @named n h' makes outcome =>
    have own : size = n.union.tags.length := by simpa using mem
    exact .inr ⟨_, _, makes, outcome, own⟩
  | repeated repeats => simp at mem
  | tag | call | dispatch => cases List.mem_singleton.1 mem
  | refused | quiet => cases mem

/-- A union that fails is not on record. -/
theorem Does.not_mem_union_of_error {e : Error} (does : op.Does h ds)
    (failed : ∀ host, op.apply host h = .error e h') (size : Nat) : .union size ∉ ds := by
  intro mem
  rcases does.makes_of_mem_union mem with ⟨u, h'', -, outcome, -⟩ | ⟨n, h'', -, outcome, -⟩
  · cases (failed World.echo).symm.trans (outcome World.echo)
  · cases (failed World.echo).symm.trans (outcome World.echo)

/-- A dispatch is that of a match, through a switch that was read and covers the union. It is told by the record of the
handler, which names the tag that constructed the value or the catch-all, and by the call right after it. -/
theorem Does.dispatches {v : Value} {c : Switch.Choice} (does : op.Does h ds) (mem : .dispatch v c ∈ ds) :
    ∃ u s, op.IsMatch u v (.ok s) ∧ u.check s = .ok () ∧
      ((∃ x handler, v.tagged? = some x ∧ (x.tag, handler) ∈ s.cases ∧
          ds.flatMap Deed.events = [.recorded (.toCase v x.tag), .called handler x.payload]) ∨
        ∃ handler, s.otherwise = some handler ∧
          ds.flatMap Deed.events = [.recorded (.toOtherwise v), .called handler []]) := by
  cases does with
  | @dispatch u _ read s _ isMatch made covered picked =>
    cases List.mem_singleton.1 mem
    refine ⟨u, s, made ▸ isMatch, covered, ?_⟩
    rcases Switch.choose?_cases picked with ⟨x, handler, tagged, listed, rfl⟩ | ⟨handler, catchAll, rfl⟩
    · exact .inl ⟨x, handler, tagged, listed, rfl⟩
    · exact .inr ⟨handler, catchAll, rfl⟩
  | named | repeated => simp at mem
  | tag | union | call => cases List.mem_singleton.1 mem
  | refused | quiet => cases mem

/-- A match that finds no handler does nothing. -/
theorem IsMatch.does_nothing {u : Union} {v : Value} {read : Except Error Switch} (isMatch : op.IsMatch u v read)
    (stuck : ∀ s, read = .ok s → u.check s = .ok () → s.choose? v = none) (does : op.Does h ds) : ds = [] := by
  have uncalled : ∀ r c args, ¬ op.Calls r c args := by
    intro r c args calls
    cases calls with
    | unwrap | call => cases isMatch
    | dispatch isMatch' made covered picked =>
      obtain ⟨rfl, rfl, rfl⟩ := isMatch.unique isMatch'
      cases (stuck _ made covered).symm.trans picked
  obtain ⟨e, refuses⟩ := isMatch.refuses uncalled
  exact does.unique (.refused refuses)

end Operation

end TaggedUnion
