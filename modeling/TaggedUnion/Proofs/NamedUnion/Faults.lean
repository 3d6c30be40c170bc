/-
Faults of a switch by name. Of several faults the first of these is reported: the handlers are no map,
the first of them by name that cannot be called, a catch-all that cannot be called, the first by name
that is no member's, and then what the check of coverage finds. They are found before the value is
looked at, so every value meets the same one; and since the handlers are visited by name, their order
does not matter.
-/
import TaggedUnion.Proofs.NamedUnion.Handlers
import TaggedUnion.Proofs.Text.ByteOrder
import TaggedUnion.Proofs.Text.Quoted
import TaggedUnion.Proofs.Union.Dispatch

namespace TaggedUnion.NamedUnion

variable {n : NamedUnion} {handlers : Value} {otherwise : Option Value} {es : Entries Value}

/-! ## Faults -/

/-- Whether a map of handlers and a catch-all, if one is given, can all be called. -/
structure Callables (handlers : Value) (otherwise : Option Value) (es : Entries Value) : Prop where
  map : handlers.map? = some es
  callable : ∀ e ∈ es, e.2.callable?.isSome
  catchAll : ∀ g, given otherwise = some g → g.callable?.isSome

/-- What is wrong with handlers by name: the fault that comes first in the order of the stages, with
what is to blame for it. Names are compared by their bytes. -/
inductive SwitchFault (n : NamedUnion) (handlers : Value) (otherwise : Option Value) : Error → Prop where
  /-- The handlers are something else than a map. -/
  | handlersNotMap (noMap : handlers.map? = none) : SwitchFault n handlers otherwise (.handlersNotMap handlers.kind)
  /-- The least name whose handler cannot be called. -/
  | handlerNotCallable {es : Entries Value} {name : String} {handler : Value} (map : handlers.map? = some es)
      (mem : (name, handler) ∈ es) (bad : handler.callable? = none)
      (least : ∀ e ∈ es, e.2.callable? = none → Text.bytes name ≤ Text.bytes e.1) :
      SwitchFault n handlers otherwise (.handlerNotCallable name handler.kind)
  /-- A catch-all that cannot be called, beside handlers that can. -/
  | otherwiseNotCallable {es : Entries Value} {g : Value} (map : handlers.map? = some es)
      (callable : ∀ e ∈ es, e.2.callable?.isSome) (present : given otherwise = some g)
      (bad : g.callable? = none) : SwitchFault n handlers otherwise (.otherwiseNotCallable g.kind)
  /-- The least name that no member has. -/
  | strayHandler {es : Entries Value} {name : String} (callables : Callables handlers otherwise es)
      (mem : name ∈ es.map Prod.fst) (stray : name ∉ n.names)
      (least : ∀ name' ∈ es.map Prod.fst, name' ∉ n.names → Text.bytes name ≤ Text.bytes name') :
      SwitchFault n handlers otherwise (.strayHandler name)
  /-- The members without a handler, in the order of the union, if there is no catch-all. -/
  | missingCases {es : Entries Value} {ts : List Tag} (callables : Callables handlers otherwise es)
      (members : es.map Prod.fst ⊆ n.names) (alone : given otherwise = none) (gap : ts ≠ [])
      (inOrder : ts.Sublist n.union.tags)
      (uncovered : ∀ t, t ∈ ts ↔ t ∈ n.union.tags ∧ ∀ name, t.name = some name → name ∉ es.map Prod.fst) :
      SwitchFault n handlers otherwise (.missingCases ts)
  /-- A catch-all although every member has a handler. -/
  | unreachableOtherwise {es : Entries Value} (callables : Callables handlers otherwise es)
      (members : es.map Prod.fst ⊆ n.names) (full : n.names ⊆ es.map Prod.fst)
      (catchAll : (given otherwise).isSome) : SwitchFault n handlers otherwise .unreachableOtherwise

/-! ## The stages -/

theorem find?_bad_eq_none_iff :
    (es.byName.find? fun e => e.2.callable?.isNone) = none ↔ ∀ e ∈ es, e.2.callable?.isSome := by
  simp [List.find?_eq_none, Entries.mem_byName, Option.isSome_iff_ne_none]

theorem find?_bad_eq_some_iff (distinct : es.Distinct) {name : String} {handler : Value} :
    (es.byName.find? fun e => e.2.callable?.isNone) = some (name, handler) ↔
      (name, handler) ∈ es ∧ handler.callable? = none ∧
        ∀ e ∈ es, e.2.callable? = none → Text.bytes name ≤ Text.bytes e.1 := by
  simp only [Entries.find?_byName_eq_some_iff distinct, Option.isNone_iff_eq_none, Text.le_iff_bytes_le]

theorem catchAllOf_eq_ok (catchAll : ∀ g, given otherwise = some g → g.callable?.isSome) :
    catchAllOf otherwise = .ok ((given otherwise).bind Value.callable?) := by
  rw [catchAllOf_eq]
  cases h : given otherwise with
  | none => rfl
  | some g =>
    obtain ⟨handler, hg⟩ := Option.isSome_iff_exists.1 (catchAll g h)
    simp only [hg, Option.bind_some]

theorem catchAllOf_eq_error {g : Value} (present : given otherwise = some g) (bad : g.callable? = none) :
    catchAllOf otherwise = .error (.otherwiseNotCallable g.kind) := by
  rw [catchAllOf_eq, present]
  simp only [bad]

/-- The names of handlers that can be called are searched for strangers as they come. -/
theorem map_find?_stray (callable : ∀ e ∈ es, e.2.callable?.isSome) :
    ((callableEntries es.byName).find? fun e => !n.members.contains e.1).map Prod.fst =
      (es.byName.find? fun e => !n.members.contains e.1).map Prod.fst := by
  have same := map_fst_callableEntries fun e he => callable e (Entries.mem_byName.1 he)
  have search : ∀ {α : Type} (l : Entries α), (l.find? fun e => !n.members.contains e.1).map Prod.fst =
      (l.map Prod.fst).find? fun name => !n.members.contains name := fun l => by
    rw [List.find?_map]; rfl
  -- the handlers are other values than before, but the search looks at their names only
  rw [search, search, same]

theorem find?_stray_eq_none_iff (callable : ∀ e ∈ es, e.2.callable?.isSome) :
    ((callableEntries es.byName).find? fun e => !n.members.contains e.1) = none ↔ es.map Prod.fst ⊆ n.names := by
  rw [← Option.map_eq_none_iff (f := Prod.fst), map_find?_stray callable, Option.map_eq_none_iff,
    List.find?_eq_none]
  simp only [Bool.not_eq_true', Bool.not_eq_false, contains_members_iff, Entries.mem_byName]
  exact List.forall_mem_map.symm

/-- The stranger that is found is the one of the least name. -/
theorem find?_stray_eq_some_iff (distinct : es.Distinct) (callable : ∀ e ∈ es, e.2.callable?.isSome)
    {name : String} :
    (∃ handler, ((callableEntries es.byName).find? fun e => !n.members.contains e.1) = some (name, handler)) ↔
      name ∈ es.map Prod.fst ∧ name ∉ n.names ∧
        ∀ name' ∈ es.map Prod.fst, name' ∉ n.names → Text.bytes name ≤ Text.bytes name' := by
  have found : ∀ {α : Type} {o : Option (String × α)}, (∃ a, o = some (name, a)) ↔ o.map Prod.fst = some name := by
    intro α o
    rw [Option.map_eq_some_iff]
    exact ⟨fun ⟨a, h⟩ => ⟨_, h, rfl⟩, fun ⟨a, h, same⟩ => ⟨a.2, by rw [h, ← same]⟩⟩
  rw [found, map_find?_stray callable, ← found]
  simp only [Entries.find?_byName_eq_some_iff distinct, Bool.not_eq_true', ← Bool.not_eq_true, contains_members_iff,
    ← Text.le_iff_bytes_le, List.forall_mem_map]
  constructor
  · rintro ⟨v, mem, stray, least⟩
    exact ⟨List.mem_map_of_mem mem, stray, least⟩
  · rintro ⟨mem, stray, least⟩
    obtain ⟨e, he, rfl⟩ := List.mem_map.1 mem
    exact ⟨e.2, he, stray, least⟩

/-! ## The switch that comes out -/

theorem callables_byName_eq_ok (callable : ∀ e ∈ es, e.2.callable?.isSome) :
    callables es.byName = .ok (callableEntries es.byName) := by
  rw [callables_eq, find?_bad_eq_none_iff.2 callable]

/-- Where everything can be called, a stranger is all that can be wrong before the check of coverage. -/
theorem switchOf_of_callables (callables : Callables handlers otherwise es) :
    n.switchOf handlers otherwise =
      match (callableEntries es.byName).find? fun e => !n.members.contains e.1 with
      | some e => .error (.strayHandler e.1)
      | none => .ok (n.switchFor es otherwise) := by
  rw [switchOf, callables.map]
  simp only [callables_byName_eq_ok callables.callable, catchAllOf_eq_ok callables.catchAll]
  rfl

theorem switchOf_eq_ok (callables : Callables handlers otherwise es) (members : es.map Prod.fst ⊆ n.names) :
    n.switchOf handlers otherwise = .ok (n.switchFor es otherwise) := by
  rw [switchOf_of_callables callables, (find?_stray_eq_none_iff callables.callable).2 members]

/-- The order of the handlers does not matter for the switch they make, nor for the fault they have. -/
theorem switchOf_eq_of_perm (distinct : es.Distinct) {fs : Entries Value} (perm : es.Perm fs) :
    n.switchOf (.map es) otherwise = n.switchOf (.map fs) otherwise := by
  simp only [switchOf, Value.map?, Entries.byName_eq_of_perm distinct perm]

theorem uncovered_switchFor_iff (distinct : es.Distinct) (callable : ∀ e ∈ es, e.2.callable?.isSome) {t : Tag} :
    t ∈ n.union.tags ∧ t ∉ (n.switchFor es otherwise).tags ↔
      t ∈ n.union.tags ∧ ∀ name, t.name = some name → name ∉ es.map Prod.fst := by
  rw [mem_tags_switchFor distinct callable]
  refine and_congr_right fun member => ?_
  rw [not_and, not_exists]
  exact ⟨fun h name hname mem => h member name ⟨hname, mem⟩, fun h _ name ⟨hname, mem⟩ => h name hname mem⟩

theorem otherwise_switchFor_eq_none_iff (catchAll : ∀ g, given otherwise = some g → g.callable?.isSome) :
    (n.switchFor es otherwise).otherwise = none ↔ given otherwise = none := by
  show (given otherwise).bind Value.callable? = none ↔ _
  cases h : given otherwise with
  | none => exact iff_of_true rfl rfl
  | some g =>
    obtain ⟨handler, hg⟩ := Option.isSome_iff_exists.1 (catchAll g h)
    rw [Option.bind_some, hg]
    exact iff_of_false (Option.some_ne_none _) (Option.some_ne_none _)

variable {host : Host} {v : Value} {e : Error}

theorem switch_of_switchOf_eq_error (h : n.switchOf handlers otherwise = .error e) :
    n.switch host v handlers otherwise = throw e := by
  rw [switch, h]; rfl

theorem switch_of_switchOf_eq_ok {s : Switch} (h : n.switchOf handlers otherwise = .ok s) :
    n.switch host v handlers otherwise = n.union.run host v s := by
  rw [switch, h]; rfl

/-! ## Faults are reported -/

/-- The fault that the handlers have is reported, whatever the value. -/
theorem switch_of_fault (distinct : ∀ es, handlers.map? = some es → es.Distinct)
    (fault : n.SwitchFault handlers otherwise e) (host : Host) (v : Value) :
    n.switch host v handlers otherwise = throw e := by
  cases fault with
  | handlersNotMap noMap =>
    apply switch_of_switchOf_eq_error
    rw [switchOf, noMap]
  | handlerNotCallable map mem bad least =>
    apply switch_of_switchOf_eq_error
    rw [switchOf, map]
    simp only [callables_eq, (find?_bad_eq_some_iff (distinct _ map)).2 ⟨mem, bad, least⟩]
    rfl
  | otherwiseNotCallable map callable present bad =>
    apply switch_of_switchOf_eq_error
    rw [switchOf, map]
    simp only [callables_byName_eq_ok callable, catchAllOf_eq_error present bad]
    rfl
  | strayHandler callables mem stray least =>
    obtain ⟨handler, found⟩ :=
      (find?_stray_eq_some_iff (distinct _ callables.map) callables.callable).2 ⟨mem, stray, least⟩
    apply switch_of_switchOf_eq_error
    rw [switchOf_of_callables callables, found]
  -- from here on the switch is made, and the fault is one of its coverage
  | missingCases callables members alone gap inOrder uncovered =>
    rw [switch_of_switchOf_eq_ok (switchOf_eq_ok callables members)]
    apply Union.run_of_check_eq_error
    apply Union.check_of_coverageFault
    refine .missingCases nodup_tags_switchFor tags_switchFor_subset
      ((otherwise_switchFor_eq_none_iff callables.catchAll).2 alone) gap inOrder fun t => ?_
    rw [uncovered, uncovered_switchFor_iff (distinct _ callables.map) callables.callable]
  | unreachableOtherwise callables members full catchAll =>
    rw [switch_of_switchOf_eq_ok (switchOf_eq_ok callables members)]
    apply Union.run_of_check_eq_error
    apply Union.check_of_coverageFault
    refine .unreachableOtherwise nodup_tags_switchFor tags_switchFor_subset
      ((tags_subset_switchFor_iff (distinct _ callables.map) callables.callable).2 full) ?_
    rw [Option.isSome_iff_ne_none] at catchAll ⊢
    rwa [Ne, otherwise_switchFor_eq_none_iff callables.catchAll]

theorem fault_of_coverageFault (distinct : es.Distinct) (callables : Callables handlers otherwise es)
    (members : es.map Prod.fst ⊆ n.names) (fault : n.union.CoverageFault (n.switchFor es otherwise) e) :
    n.SwitchFault handlers otherwise e := by
  cases fault with
  -- the cases are made for the members, one each, so neither a repeat nor a stranger is among them
  | repeatedCase first here =>
    have none : firstRepeat? (n.switchFor es otherwise).tags = none :=
      firstRepeat?_eq_none_iff.2 nodup_tags_switchFor
    rw [firstRepeat?_eq_some_iff.2 ⟨_, first, here⟩] at none
    cases none
  | strayCase nodup first here =>
    obtain ⟨t, ht, stray⟩ := first.1
    exact absurd (tags_switchFor_subset (List.mem_of_getElem? ht)) stray
  | missingCases nodup _ alone gap inOrder uncovered =>
    refine .missingCases callables members ((otherwise_switchFor_eq_none_iff callables.catchAll).1 alone) gap
      inOrder fun t => ?_
    rw [uncovered, uncovered_switchFor_iff distinct callables.callable]
  | unreachableOtherwise nodup _ full catchAll =>
    refine .unreachableOtherwise callables members
      ((tags_subset_switchFor_iff distinct callables.callable).1 full) ?_
    rw [Option.isSome_iff_ne_none] at catchAll ⊢
    rwa [Ne, otherwise_switchFor_eq_none_iff callables.catchAll] at catchAll

/-- Handlers without a fault are those whose switch covers the union. -/
theorem fault_or_covered (n : NamedUnion) (otherwise : Option Value)
    (distinct : ∀ es, handlers.map? = some es → es.Distinct) :
    (∃ e, n.SwitchFault handlers otherwise e) ∨
    ∃ es, Callables handlers otherwise es ∧ es.map Prod.fst ⊆ n.names ∧
      n.union.check (n.switchFor es otherwise) = .ok () := by
  -- the stages in their order: each either gives its fault or lets the next one be looked at
  cases map : handlers.map? with
  | none => exact .inl ⟨_, .handlersNotMap map⟩
  | some es =>
    have distinct := distinct es map
    cases bad : es.byName.find? fun e => e.2.callable?.isNone with
    | some e =>
      obtain ⟨mem, bad, least⟩ := (find?_bad_eq_some_iff distinct).1 bad
      exact .inl ⟨_, .handlerNotCallable map mem bad least⟩
    | none =>
      have callable := find?_bad_eq_none_iff.1 bad
      by_cases catchAll : ∀ g, given otherwise = some g → g.callable?.isSome
      · have callables : Callables handlers otherwise es := ⟨map, callable, catchAll⟩
        cases stray : (callableEntries es.byName).find? fun e => !n.members.contains e.1 with
        | some e =>
          obtain ⟨mem, stray, least⟩ := (find?_stray_eq_some_iff distinct callable).1 ⟨e.2, stray⟩
          exact .inl ⟨_, .strayHandler callables mem stray least⟩
        | none =>
          have members := (find?_stray_eq_none_iff callable).1 stray
          cases covered : n.union.check (n.switchFor es otherwise) with
          | error e =>
            exact .inl ⟨e, fault_of_coverageFault distinct callables members (Union.coverageFault_of_check covered)⟩
          | ok => exact .inr ⟨es, callables, members, covered⟩
      · obtain ⟨g, catchAll⟩ := not_forall.1 catchAll
        obtain ⟨present, bad⟩ := Classical.not_imp.1 catchAll
        rw [Option.not_isSome_iff_eq_none] at bad
        exact .inl ⟨_, .otherwiseNotCallable map callable present bad⟩

theorem switch_of_covered (callables : Callables handlers otherwise es) (members : es.map Prod.fst ⊆ n.names)
    (covered : n.union.check (n.switchFor es otherwise) = .ok ()) (host : Host) (v : Value) :
    n.switch host v handlers otherwise = (n.switchFor es otherwise).dispatch host v := by
  rw [switch_of_switchOf_eq_ok (switchOf_eq_ok callables members), Union.run_of_check_eq_ok covered]

/-- A switch by name calls one handler after a record of it, or it fails, but never for a repeat. -/
theorem switch_calls_or_fails (n : NamedUnion) (otherwise : Option Value)
    (distinct : ∀ es, handlers.map? = some es → es.Distinct) (host : Host) (v : Value) :
    (∃ r handler args, n.switch host v handlers otherwise = (do
      Run.record r
      Callable.call host handler args)) ∨
    ∃ e, (∀ t, e ≠ .repeatedCase t) ∧ n.switch host v handlers otherwise = throw e := by
  rcases fault_or_covered n otherwise distinct with ⟨e, fault⟩ | ⟨es, callables, members, covered⟩
  · refine .inr ⟨e, ?_, switch_of_fault distinct fault host v⟩
    rintro t rfl
    cases fault
  · rw [switch_of_covered callables members covered host v]
    rcases Switch.dispatch_cases nodup_tags_switchFor host v with called | ⟨unlisted, alone⟩
    · exact .inl called
    · refine .inr ⟨.notMember v, ?_, Switch.dispatch_eq_throw unlisted alone⟩
      rintro t ⟨⟩

/-- A switch by name does not depend on the order of the handlers, and of its faults the one that comes
first is reported, in these words, whatever the value and before any handler is called. Without a fault
the value goes through a switch that covers the union. A repeat is never reported. The entries of a map
have different names. -/
theorem switch_reports_first_fault [Text.Glyphs] (n : NamedUnion) (handlers : Value) (otherwise : Option Value)
    (distinct : ∀ es, handlers.map? = some es → es.Distinct) :
    (∀ es fs : Entries Value, handlers.map? = some es → es.Perm fs → ∀ host v,
      n.switch host v handlers otherwise = n.switch host v (.map fs) otherwise) ∧
    (∀ e, n.SwitchFault handlers otherwise e → ∀ host v, n.switch host v handlers otherwise = throw e) ∧
    ((∀ e, ¬ n.SwitchFault handlers otherwise e) →
      ∃ es, handlers.map? = some es ∧ n.union.check (n.switchFor es otherwise) = .ok () ∧
        ∀ host v, n.switch host v handlers otherwise = (n.switchFor es otherwise).dispatch host v) ∧
    (∀ host v,
      (∃ r handler args, n.switch host v handlers otherwise = (do
        Run.record r
        Callable.call host handler args)) ∨
      ∃ e, (∀ t, e ≠ .repeatedCase t) ∧ n.switch host v handlers otherwise = throw e) ∧
    (∀ k, (Error.handlersNotMap k).message = "type error: " ++ ("The handlers must be a map, got " ++ k.name)) ∧
    (∀ name k, (Error.handlerNotCallable name k).message =
      "type error: " ++ ("The handler for " ++ name ++ " must be a function, got " ++ k.name)) ∧
    (∀ k, (Error.otherwiseNotCallable k).message =
      "type error: " ++ ("The catch-all must be a function, got " ++ k.name)) ∧
    (∀ name, (Error.strayHandler name).message = "invalid operation: " ++ (name ++ " is not in this union")) ∧
    (∀ ts, (Error.missingCases ts).message = "invalid operation: " ++
      ("Not all cases are covered: missing " ++ ", ".intercalate (ts.map Tag.display))) ∧
    Error.unreachableOtherwise.message = "invalid operation: " ++
      "All cases are covered, so the catch-all is unreachable" := by
  refine ⟨fun es fs map perm host v => ?_, fun e fault => switch_of_fault distinct fault, fun sound => ?_,
    switch_calls_or_fails n otherwise distinct, fun k => rfl, fun name k => rfl, fun k => rfl,
    fun name => rfl, fun ts => rfl, rfl⟩
  · have same : handlers = .map es := by
      cases handlers <;> cases map
      rfl
    rw [same, switch, switch, switchOf_eq_of_perm (distinct es map) perm]
  · rcases fault_or_covered n otherwise distinct with ⟨e, fault⟩ | ⟨es, callables, members, covered⟩
    · exact absurd fault (sound e)
    · exact ⟨es, callables.map, covered, switch_of_covered callables members covered⟩

/-- Of two strangers that cannot be called beside a catch-all that cannot either, the first by name is
reported, in whichever order they come. -/
theorem switch_reports_first_fault_hexagon :
    let circle : Tag := .nth 0 (some "Circle")
    let shapes : NamedUnion := .ofUnion ⟨0, [circle], by decide, by decide⟩ (by decide)
    let es : Entries Value := [("Triangle", .int 3), ("Hexagon", .str "six")]
    (∀ es', (Value.map es).map? = some es' → es'.Distinct) ∧ ∀ host v,
      shapes.switch host v (.map es) (some (.bool true)) = throw (.handlerNotCallable "Hexagon" .str) ∧
      shapes.switch host v (.map es.reverse) (some (.bool true)) = throw (.handlerNotCallable "Hexagon" .str) := by
  intro circle shapes es
  have distinct : ∀ es', (Value.map es).map? = some es' → es'.Distinct := by
    intro es' map
    cases map
    show (es.map Prod.fst).Nodup
    decide
  let _ := Text.Glyphs.ascii
  obtain ⟨anyOrder, reported, -⟩ := switch_reports_first_fault shapes (.map es) (some (.bool true)) distinct
  have fault : shapes.SwitchFault (.map es) (some (.bool true)) (.handlerNotCallable "Hexagon" .str) := by
    have mem : ("Hexagon", Value.str "six") ∈ es := List.mem_cons_of_mem _ List.mem_cons_self
    refine .handlerNotCallable rfl mem rfl ?_
    intro e he _
    rcases List.mem_cons.1 he with rfl | he
    · exact Text.le_iff_bytes_le.1 (by decide)
    · rw [List.mem_singleton.1 he]
      exact List.le_refl _
  refine ⟨distinct, fun host v => ⟨reported _ fault host v, ?_⟩⟩
  rw [← anyOrder es es.reverse rfl (List.reverse_perm es).symm]
  exact reported _ fault host v

end TaggedUnion.NamedUnion
