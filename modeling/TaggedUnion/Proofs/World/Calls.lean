/-
Which operations come down to a call, and which are constructions. Unwrapping passes a payload on, calling calls,
and a match calls the handler it picks, after a record of it; what these operations give is what becomes of the
call. All others settle their outcome alone. Of those, only a named union with a repeated name leaves something
behind where it fails. What succeeds makes one object if it is a construction, and none if it is not.
-/
import TaggedUnion.Proofs.NamedUnion.Creation

namespace TaggedUnion

open Script (Binding)

variable {op : Operation} {b : Binding} {h h' : History}

/-- The history with one record more, if there is one. -/
def History.recording (h : History) : Option Record → History
  | some r => h.noting (.recorded r)
  | none => h

theorem History.objects_recording (h : History) (r : Option Record) : (h.recording r).objects = h.objects := by
  cases r <;> rfl

/-! ## Unwrapping -/

/-- A tag that did not construct a value refuses to unwrap it, whatever was to be done with the payload. -/
theorem Tag.unwrap_of_not_is {α : Type} {t : Tag} {v : Value} (stranger : t.is v = false) (f : List Value → Run α) :
    t.unwrap v f = throw (.cannotUnwrap v t) := by
  rw [unwrap]
  cases tagged : v.tagged? with
  | none => rfl
  | some x =>
    rw [Tag.is, tagged] at stranger
    exact if_neg (Bool.eq_false_iff.1 stranger)

/-- A tag that constructed a value leaves the rest to what is done with the payload. -/
theorem Tag.unwrap_of_owns {α : Type} {t : Tag} {v : Value} {x : Tagged Value} (tagged : v.tagged? = some x)
    (own : t.owns x = true) (f : List Value → Run α) : t.unwrap v f = f x.payload := by
  rw [unwrap, tagged]
  exact if_pos own

namespace Operation

/-! ## Calls -/

/-- The match that an operation is: of which union, for which value, and through what has been read as a switch. -/
inductive IsMatch : Operation → Union → Value → Except Error Switch → Prop where
  | run (u : Union) (v : Value) (s : Switch) : IsMatch (.run u v s) u v (.ok s)
  | switch (u : Union) (v : Value) (clauses : List Value) :
      IsMatch (.switch u v clauses) u v (Switch.ofClauses clauses)
  | namedSwitch (n : NamedUnion) (v handlers : Value) (otherwise : Option Value) :
      IsMatch (.namedSwitch n v handlers otherwise) n.union v (n.switchOf handlers otherwise)

/-- What an operation comes down to calling, with which arguments, and after which record. -/
inductive Calls : Operation → Option Record → Callable → List Value → Prop where
  | unwrap {t : Tag} {v : Value} {x : Tagged Value} (f : Callable) (tagged : v.tagged? = some x)
      (own : t.owns x = true) : Calls (.unwrap t v f) none f x.payload
  | call {v : Value} {c : Callable} (args : List Value) (callable : v.callable? = some c) :
      Calls (.call v args) none c args
  | dispatch {op : Operation} {u : Union} {v : Value} {read : Except Error Switch} {s : Switch} {c : Switch.Choice}
      (isMatch : op.IsMatch u v read) (made : read = .ok s) (covered : u.check s = .ok ())
      (picked : s.choose? v = some c) : Calls op (some (c.record v)) c.handler c.args

/-- Whether an operation makes a named union of names that are free, but of which one repeats, and the first
that does. -/
inductive Repeats : Operation → List String → String → Prop where
  | named {names : List String} {name : String} (free : ∀ name ∈ names, name ∉ NamedUnion.reserved)
      (again : firstRepeat? names = some name) : Repeats (.named names) names name
  | namedOf {names : List String} {name : String} (free : ∀ name ∈ names, name ∉ NamedUnion.reserved)
      (again : firstRepeat? names = some name) : Repeats (.namedOf (.slice (names.map .str))) names name

theorem IsMatch.apply_eq {u : Union} {v : Value} {read : Except Error Switch} (isMatch : op.IsMatch u v read)
    (host : Host) : op.apply host = Binding.value <$> (do
      let s ← Run.ofExcept read
      u.run host v s) := by
  cases isMatch <;> rfl

/-- An operation that comes down to a call gives what the call gives, and fails as it fails. -/
theorem Calls.apply_eq {r : Option Record} {c : Callable} {args : List Value} (calls : op.Calls r c args)
    (host : Host) (h : History) : op.apply host h = (Binding.value <$> c.call host args) (h.recording r) := by
  cases calls with
  | unwrap f tagged own =>
    refine Run.map_apply_congr ?_ Binding.value
    rw [Tag.unwrap_of_owns tagged own]
    rfl
  | call args callable =>
    refine Run.map_apply_congr ?_ Binding.value
    rw [Value.call, callable]
    rfl
  | dispatch isMatch made covered picked =>
    rw [isMatch.apply_eq, made]
    refine Run.map_apply_congr ?_ Binding.value
    rw [Run.ofExcept_ok, pure_bind, Union.run_of_check_eq_ok covered, Switch.dispatch, picked]
    rfl

end Operation

/-! ## Constructions -/

/-- The number that an object got when it was made; tags are numbered among themselves. -/
def Object.number? : Object → Option Nat
  | .function f => some f.ident
  | .tag _ => none
  | .tagged x => some x.ident
  | .union u => some u.ident

/-- The tag that a callable wraps its arguments with, if it is one or was made from one. -/
def Callable.tag? : Callable → Option Tag
  | .tag t | .function ⟨_, .tag t⟩ => some t
  | _ => none

/-- The object that a result is as such, apart from what it is made of. -/
def Script.Binding.subject? : Binding → Option Object
  | .value (.function f) => some (.function f)
  | .value (.tagged x) => some (.tagged x)
  | .value (.union u) => some (.union u)
  | .named n => some (.union n.union)
  | _ => none

theorem Script.Binding.subject?_mem_objects {b : Binding} {o : Object} (subject : b.subject? = some o) :
    o ∈ b.objects := by
  unfold subject? at subject
  split at subject <;> cases subject <;> exact List.mem_cons_self

/-- A call that comes to a tag makes the tagged value of the arguments. -/
theorem Callable.call_of_tag {c : Callable} {t : Tag} (tag : c.tag? = some t) (host : Host) (args : List Value)
    (h : History) : c.call host args h =
      .ok (.tagged ⟨h.objects, t, args⟩) { h.noting (.called c args) with objects := h.objects + 1 } := by
  unfold tag? at tag
  split at tag <;> cases tag <;> rfl

namespace Operation

/-- What an operation makes other than tags, where it succeeds: an object of these contents, with some number. -/
inductive Makes : Operation → Object → Prop where
  | wrap (t : Tag) (payload : List Value) (ident : Nat) : Makes (.wrap t payload) (.tagged ⟨ident, t, payload⟩)
  /-- A tag is called, be it as a handler or as a catch-all. -/
  | call {op : Operation} {r : Option Record} {c : Callable} {args : List Value} {t : Tag}
      (calls : op.Calls r c args) (tag : c.tag? = some t) (ident : Nat) : Makes op (.tagged ⟨ident, t, args⟩)
  | function (label : Option String) (ident : Nat) : Makes (.function label) (.function ⟨ident, .host label⟩)
  | functionOfTag (t : Tag) (ident : Nat) : Makes (.toFunction (.tag t)) (.function ⟨ident, .tag t⟩)
  | functionOfUnion (u : Union) (ident : Nat) : Makes (.toFunction (.union u)) (.function ⟨ident, .union u⟩)
  | union (u : Union) : Makes (.union u.tags) (.union u)
  | unionOf {vs : List Value} (u : Union) (members : u.tags = vs.filterMap Value.tag?) :
      Makes (.unionOf vs) (.union u)
  | named (n : NamedUnion) : Makes (.named n.names) (.union n.union)
  | namedOf (n : NamedUnion) : Makes (.namedOf (.slice (n.names.map .str))) (.union n.union)

/-- Whether an operation, where it succeeds, makes an object that is no tag. -/
def Constructs (op : Operation) : Prop := ∃ o, op.Makes o

/-- Making a tag is no construction, and neither is asking for a function as a function. -/
theorem not_constructs_of_plain
    (plain : (∃ name, op = .tag name) ∨ (∃ v, op = .tagOf v) ∨ ∃ f, op = .toFunction (.function f)) :
    ¬ op.Constructs := by
  rintro ⟨o, makes⟩
  rcases plain with ⟨name, rfl⟩ | ⟨v, rfl⟩ | ⟨f, rfl⟩ <;>
    cases makes with | call calls => cases calls with | dispatch isMatch => cases isMatch

/-- Whether the objects are counted on by what an operation makes: a construction gives what it makes, with the next
number, and the others give what was there. -/
structure Tallies (op : Operation) (b : Binding) (h h' : History) : Prop where
  made : op.Constructs → ∃ o, b.subject? = some o ∧ op.Makes o ∧ o.number? = some h.objects ∧
    h'.objects = h.objects + 1
  kept : ¬ op.Constructs → h'.objects = h.objects

theorem Makes.tallies {o : Object} (makes : op.Makes o) (subject : b.subject? = some o)
    (number : o.number? = some h.objects) (count : h'.objects = h.objects + 1) : op.Tallies b h h' :=
  ⟨fun _ => ⟨o, subject, makes, number, count⟩, fun other => absurd ⟨o, makes⟩ other⟩

theorem tallies_of_not_constructs (other : ¬ op.Constructs) (count : h'.objects = h.objects) : op.Tallies b h h' :=
  ⟨fun constructs => absurd constructs other, fun _ => count⟩

/-! ## Outcomes without a call -/

/-- Whether an operation fails and leaves nothing behind, whatever happened before it and whoever the host is. -/
def Refuses (op : Operation) (e : Error) : Prop := ∀ host h, op.apply host h = .error e h

/-- Whether an operation gives a result, whatever happened before it and whoever the host is. -/
def Succeeds (op : Operation) : Prop := ∀ host h, ∃ b h', op.apply host h = .ok b h' ∧ op.Tallies b h h'

/-- What cannot be read as a switch is refused before the union or the value is looked at. -/
theorem IsMatch.refuses_of_read {u : Union} {v : Value} {read : Except Error Switch} {e : Error}
    (isMatch : op.IsMatch u v read) (unreadable : read = .error e) : op.Refuses e := by
  intro host h
  rw [isMatch.apply_eq, unreadable]
  rfl

/-- A switch that does not cover the union is refused before the value is looked at. -/
theorem IsMatch.refuses_of_check {u : Union} {v : Value} {read : Except Error Switch} {s : Switch} {e : Error}
    (isMatch : op.IsMatch u v read) (made : read = .ok s) (uncovered : u.check s = .error e) : op.Refuses e := by
  intro host h
  rw [isMatch.apply_eq, made, Run.ofExcept_ok, pure_bind, Union.run_of_check_eq_error uncovered]
  rfl

theorem IsMatch.refuses {u : Union} {v : Value} {read : Except Error Switch} (isMatch : op.IsMatch u v read)
    (uncalled : ∀ r c args, ¬ op.Calls r c args) : ∃ e, op.Refuses e := by
  cases made : read with
  | error e => exact ⟨e, isMatch.refuses_of_read made⟩
  | ok s =>
    cases covered : u.check s with
    | error e => exact ⟨e, isMatch.refuses_of_check made covered⟩
    | ok =>
      cases picked : s.choose? v with
      | some c => exact absurd (.dispatch isMatch made covered picked) (uncalled _ _ _)
      | none =>
        refine ⟨.notMember v, fun host h => ?_⟩
        rw [isMatch.apply_eq, made, Run.ofExcept_ok, pure_bind, Union.run_of_check_eq_ok covered, Switch.dispatch, picked]
        rfl

/-- What makes a union of tags is refused if they clash. -/
theorem refuses_or_makes_union {ts : List Tag} (same : ∀ host, op.apply host = (Operation.union ts).apply host) :
    (∃ e, op.Refuses e) ∨ ∃ (nodup : ts.Nodup) (nodupNames : (ts.filterMap Tag.name).Nodup), ∀ host h,
      op.apply host h = .ok (.value (.union ⟨h.objects, ts, nodup, nodupNames⟩)) (h.withUnion ts.length) := by
  cases clash : Union.clash? ts with
  | some e =>
    refine .inl ⟨e, fun host h => ?_⟩
    rw [same, apply, Union.create_of_clash clash]
    rfl
  | none =>
    obtain ⟨nodup, nodupNames⟩ := Union.clash?_eq_none_iff.1 clash
    refine .inr ⟨nodup, nodupNames, fun host h => ?_⟩
    rw [same, apply, Union.create_of_valid nodup nodupNames]
    rfl

theorem unionOf_apply {vs : List Value} (tags : Union.misfits vs = []) (host : Host) :
    (Operation.unionOf vs).apply host = (Operation.union (vs.filterMap Value.tag?)).apply host := by
  have made : Union.ofValues vs = Subtype.val <$> Union.create (vs.filterMap Value.tag?) := by
    simp only [Union.ofValues, tags]
  simp only [apply, made, bind_map_left]

theorem refuses_unionOf {vs : List Value} (misfit : Union.misfits vs ≠ []) :
    (Operation.unionOf vs).Refuses (.notTags (Union.misfits vs)) := by
  have refused : Union.ofValues vs = throw (.notTags (Union.misfits vs)) := by
    unfold Union.ofValues
    split
    · contradiction
    · rfl
  intro host h
  rw [apply, refused]
  rfl

theorem namedOf_apply (names : List String) (host : Host) :
    (Operation.namedOf (.slice (names.map .str))).apply host = (Operation.named names).apply host := by
  simp only [apply, NamedUnion.ofValue, NamedUnion.namesOf_map_str, Run.ofExcept_ok, pure_bind]

/-- What makes a named union of names that are free does so, unless one repeats. -/
theorem repeats_or_makes_named {names : List String} (same : ∀ host, op.apply host = (Operation.named names).apply host)
    (free : ∀ name ∈ names, name ∉ NamedUnion.reserved) :
    (∃ name, firstRepeat? names = some name) ∨ ∃ nodup : names.Nodup, ∀ host h,
      op.apply host h = .ok (.named (.ofSeries h.objects h.tags nodup))
        ((h.withTags (Tag.series h.tags names)).withUnion (Tag.series h.tags names).length) := by
  cases again : firstRepeat? names with
  | some name => exact .inl ⟨name, rfl⟩
  | none =>
    refine .inr ⟨firstRepeat?_eq_none_iff.1 again, fun host h => ?_⟩
    rw [same]
    exact Run.map_apply_of_ok (NamedUnion.create_of_nodup free _) Binding.named

/-- A repeat among the names is found when all the tags have been made, and they stay made. -/
theorem Repeats.apply_eq {names : List String} {name : String} (repeats : op.Repeats names name) (host : Host)
    (h : History) :
    op.apply host h = .error (.repeatedName name) (h.withTags (Tag.series h.tags names)) := by
  have named : (∀ name ∈ names, name ∉ NamedUnion.reserved) → firstRepeat? names = some name →
      (Operation.named names).apply host h =
        .error (.repeatedName name) (h.withTags (Tag.series h.tags names)) := by
    intro free again
    exact Run.map_apply_of_error (NamedUnion.create_of_repeat free again) Binding.named
  cases repeats with
  | named free again => exact named free again
  | namedOf free again => exact (congrFun (namedOf_apply names host) h).trans (named free again)

theorem refuses_unwrap {t : Tag} {v : Value} (f : Callable) (stranger : t.is v = false) :
    (Operation.unwrap t v f).Refuses (.cannotUnwrap v t) := by
  intro host h
  rw [apply, Tag.unwrap_of_not_is stranger]
  rfl

theorem refuses_call {v : Value} (args : List Value) (noCallable : v.callable? = none) :
    (Operation.call v args).Refuses (.notCallable v.kind) := by
  intro host h
  rw [apply, Value.call, noCallable]
  rfl

theorem refuses_unwrap_of_not_calls {t : Tag} {v : Value} {f : Callable}
    (uncalled : ∀ r c args, ¬ (Operation.unwrap t v f).Calls r c args) : ∃ e, (Operation.unwrap t v f).Refuses e := by
  have stranger : t.is v = false := by
    rw [Tag.is]
    split
    · next x tagged => exact Bool.eq_false_iff.2 fun own => uncalled _ _ _ (.unwrap f tagged own)
    · rfl
  exact ⟨_, refuses_unwrap f stranger⟩

theorem refuses_call_of_not_calls {v : Value} {args : List Value}
    (uncalled : ∀ r c args', ¬ (Operation.call v args).Calls r c args') : ∃ e, (Operation.call v args).Refuses e := by
  cases callable : v.callable? with
  | some c => exact absurd (.call args callable) (uncalled _ _ _)
  | none => exact ⟨_, refuses_call args callable⟩

theorem refuses_named {names : List String} {name : String}
    (found : (names.find? fun name => decide (name ∈ NamedUnion.reserved)) = some name) :
    (Operation.named names).Refuses (.reservedName name) := by
  intro host h
  rw [apply, NamedUnion.create, found]
  rfl

/-- An operation that does not come down to a call gives a result or is refused without a trace, but for named
unions with a repeated name. -/
theorem outcome_of_not_calls (uncalled : ∀ r c args, ¬ op.Calls r c args) :
    (∃ e, op.Refuses e) ∨ (∃ names name, op.Repeats names name) ∨ op.Succeeds := by
  cases op with
  | tag name =>
    have other := not_constructs_of_plain (.inl ⟨name, rfl⟩)
    exact .inr (.inr fun _ h => ⟨_, _, rfl, tallies_of_not_constructs other rfl⟩)
  | tagOf v =>
    have other := not_constructs_of_plain (.inr (.inl ⟨v, rfl⟩))
    cases v with
    | nothing | str => exact .inr (.inr fun _ h => ⟨_, _, rfl, tallies_of_not_constructs other rfl⟩)
    | _ => exact .inl ⟨_, fun _ _ => rfl⟩
  | wrap t payload => exact .inr (.inr fun _ h => ⟨_, _, rfl, (Makes.wrap t payload _).tallies rfl rfl rfl⟩)
  | function label => exact .inr (.inr fun _ h => ⟨_, _, rfl, (Makes.function label _).tallies rfl rfl rfl⟩)
  | toFunction c =>
    cases c with
    | function f =>
      have other := not_constructs_of_plain (.inr (.inr ⟨f, rfl⟩))
      exact .inr (.inr fun _ h => ⟨_, _, rfl, tallies_of_not_constructs other rfl⟩)
    | tag t => exact .inr (.inr fun _ h => ⟨_, _, rfl, (Makes.functionOfTag t _).tallies rfl rfl rfl⟩)
    | union u => exact .inr (.inr fun _ h => ⟨_, _, rfl, (Makes.functionOfUnion u _).tallies rfl rfl rfl⟩)
  | unwrap t v f => exact .inl (refuses_unwrap_of_not_calls uncalled)
  | call v args => exact .inl (refuses_call_of_not_calls uncalled)
  | union ts =>
    rcases @refuses_or_makes_union (.union ts) ts fun _ => rfl with refuses | ⟨nodup, nodupNames, made⟩
    · exact .inl refuses
    · have makes (ident : Nat) := Makes.union ⟨ident, ts, nodup, nodupNames⟩
      exact .inr (.inr fun host h => ⟨_, _, made host h, (makes h.objects).tallies rfl rfl rfl⟩)
  | unionOf vs =>
    by_cases tags : Union.misfits vs = []
    · rcases refuses_or_makes_union (unionOf_apply tags) with refuses | ⟨nodup, nodupNames, made⟩
      · exact .inl refuses
      · exact .inr (.inr fun host h => ⟨_, _, made host h, (Makes.unionOf _ rfl).tallies rfl rfl rfl⟩)
    · exact .inl ⟨_, refuses_unionOf tags⟩
  | run u v s => exact .inl ((IsMatch.run u v s).refuses uncalled)
  | switch u v clauses => exact .inl ((IsMatch.switch u v clauses).refuses uncalled)
  | namedSwitch n v handlers otherwise => exact .inl ((IsMatch.namedSwitch n v handlers otherwise).refuses uncalled)
  | named names =>
    cases found : names.find? fun name => decide (name ∈ NamedUnion.reserved) with
    | some name => exact .inl ⟨_, refuses_named found⟩
    | none =>
      have free : ∀ name ∈ names, name ∉ NamedUnion.reserved := by simpa using found
      rcases @repeats_or_makes_named (.named names) names (fun _ => rfl) free with ⟨name, again⟩ | ⟨nodup, made⟩
      · exact .inr (.inl ⟨names, name, .named free again⟩)
      · have makes : ∀ n : NamedUnion, n.names = names → (Operation.named names).Makes (.union n.union) :=
          fun n own => own ▸ .named n
        exact .inr (.inr fun host h => ⟨_, _, made host h, (makes _ NamedUnion.names_ofSeries).tallies rfl rfl rfl⟩)
  | namedOf x =>
    rcases NamedUnion.fault_or_texts x with ⟨e, fault⟩ | ⟨names, rfl, free⟩
    · exact .inl ⟨e, fun host h => Run.map_apply_congr (NamedUnion.ofValue_of_fault fault h) Binding.named⟩
    · rcases repeats_or_makes_named (namedOf_apply names) free with ⟨name, again⟩ | ⟨nodup, made⟩
      · exact .inr (.inl ⟨names, name, .namedOf free again⟩)
      · have makes : ∀ n : NamedUnion, n.names = names →
            (Operation.namedOf (.slice (names.map .str))).Makes (.union n.union) := fun n own => own ▸ .namedOf n
        exact .inr (.inr fun host h => ⟨_, _, made host h, (makes _ NamedUnion.names_ofSeries).tallies rfl rfl rfl⟩)

end Operation

end TaggedUnion
