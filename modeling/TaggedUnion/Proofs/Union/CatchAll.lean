/-
Catch-alls. A catch-all is short for a case of each member that is left out, with a handler that has no use for the
payload and calls the catch-all in its place. The switch that spells these cases out covers the union without a
catch-all, and for every value of the union it comes to the same call. Only values that the union has not got tell the
two apart: they still reach the catch-all, but no case.
-/
import TaggedUnion.Proofs.Text.Quoted
import TaggedUnion.Proofs.Union.Dispatch
import TaggedUnion.Proofs.Unseen

namespace TaggedUnion

variable {host : Host} {f : Function} {label : Option String} {c g : Callable} {u : Union} {s s' : Switch}
  {standIns : List (Tag × Callable)} {v : Value}

/-! ## Stand-ins -/

/-- Whether a handler, whatever it is called with, calls `g` without arguments and does nothing else. -/
def Callable.StandsInFor (host : Host) (c g : Callable) : Prop := ∀ args, c.enter host args = g.call host []

theorem Callable.StandsInFor.call_eq (standsIn : c.StandsInFor host g) (args : List Value) :
    c.call host args = (do
      Run.note (.called c args)
      g.call host []) := by
  rw [Callable.call_eq, standsIn]

/-- The host with other code for one function, which stands in for `g`. -/
def Host.withStandIn (host : Host) (f : Function) (g : Callable) : Host := fun f' args =>
  if f' = f then g.call host [] else host f' args

theorem Callable.call_withStandIn (other : c ≠ .function f) (args : List Value) :
    c.call (host.withStandIn f g) args = c.call host args := by
  cases c with
  | function f' =>
    have different : f' ≠ f := fun same => other (congrArg Callable.function same)
    have kept : host.withStandIn f g f' = host f' := funext fun args => if_neg different
    rw [Callable.call_eq, Callable.call_eq, enter, enter, Function.apply, Function.apply, kept]
  | tag t => rfl
  | union u => rfl

theorem Callable.standsInFor_withStandIn (code : f.code = .host label) (other : g ≠ .function f) :
    (Callable.function f).StandsInFor (host.withStandIn f g) g := by
  intro args
  rw [call_withStandIn other, enter, Function.apply, code]
  exact if_pos rfl

theorem Host.Overlooks.withStandIn {unseen : Event → Bool} (hhost : host.Overlooks unseen) (f : Function)
    (g : Callable) : (host.withStandIn f g).Overlooks unseen := by
  intro f' args
  unfold Host.withStandIn
  split
  · exact Callable.overlooks_call hhost g []
  · exact hhost f' args

/-- Nothing changes for a switch that does not use the function. -/
theorem Switch.dispatch_withStandIn (unused : ∀ c ∈ s.cases, c.2 ≠ .function f)
    (unusedOtherwise : ∀ g', s.otherwise = some g' → g' ≠ .function f) :
    s.dispatch (host.withStandIn f g) v = s.dispatch host v := by
  unfold dispatch
  cases picked : s.choose? v with
  | none => rfl
  | some c =>
    have other : c.handler ≠ .function f := by
      rcases choose?_cases picked with ⟨x, handler, -, mem, rfl⟩ | ⟨handler, catchAll, rfl⟩
      · exact unused _ mem
      · exact unusedOtherwise _ catchAll
    simp only [Callable.call_withStandIn other]

namespace Union

theorem run_withStandIn (unused : ∀ c ∈ s.cases, c.2 ≠ .function f)
    (unusedOtherwise : ∀ g', s.otherwise = some g' → g' ≠ .function f) :
    u.run (host.withStandIn f g) v s = u.run host v s := by
  rw [run, run, Switch.dispatch_withStandIn unused unusedOtherwise]

/-- A value with a case in a switch that passes the check is handed to the handler of the case. -/
theorem run_of_mem_cases (covered : u.check s = .ok ()) {x : Tagged Value} (hx : v.tagged? = some x)
    {handler : Callable} (here : (x.tag, handler) ∈ s.cases) :
    u.run host v s = (do
      Run.record (.toCase v x.tag)
      handler.call host x.payload) := by
  obtain ⟨i, hi⟩ := List.getElem?_of_mem here
  rw [run_of_check_eq_ok covered]
  exact Switch.dispatch_of_getElem?_cases (check_eq_ok_iff.1 covered).1 hx hi

/-! ## Switches that spell the catch-all out -/

/-- Whether `s'` is `s` without its catch-all `g`, but with one case more for each member that has none, in whatever
places, and with handlers that stand in for `g`. -/
structure SpellsOut (host : Host) (u : Union) (s : Switch) (g : Callable) (standIns : List (Tag × Callable))
    (s' : Switch) : Prop where
  closed : s'.otherwise = none
  cases : s'.cases.Perm (s.cases ++ standIns)
  once : (standIns.map Prod.fst).Nodup
  gaps : ∀ t, t ∈ standIns.map Prod.fst ↔ t ∈ u.tags ∧ t ∉ s.tags
  deferring : ∀ c ∈ standIns, c.2.StandsInFor host g

/-- One function can stand in for the catch-all in all the cases. -/
theorem exists_spellsOut (host : Host) (u : Union) (s : Switch) (code : f.code = .host label) (other : g ≠ .function f) :
    ∃ standIns s', u.SpellsOut (host.withStandIn f g) s g standIns s' := by
  have tags : ((u.missing s).map fun t => (t, Callable.function f)).map Prod.fst = u.missing s := by
    rw [List.map_map]
    exact List.map_id _
  refine ⟨(u.missing s).map fun t => (t, .function f), ⟨_, none⟩, rfl, .refl _, ?_, fun t => ?_, fun c hc => ?_⟩
  · rw [tags]
    exact missing_sublist.nodup u.nodup_tags
  · rw [tags]
    exact mem_missing_iff
  · obtain ⟨t, -, rfl⟩ := List.mem_map.1 hc
    exact Callable.standsInFor_withStandIn code other

namespace SpellsOut

variable (spelled : u.SpellsOut host s g standIns s')

include spelled

theorem mem_cases {c : Tag × Callable} : c ∈ s'.cases ↔ c ∈ s.cases ∨ c ∈ standIns := by
  rw [spelled.cases.mem_iff, List.mem_append]

theorem check_eq_ok (covered : u.check s = .ok ()) : u.check s' = .ok () := by
  obtain ⟨nodup, members, -⟩ := check_eq_ok_iff.1 covered
  have perm : s'.tags.Perm (s.tags ++ standIns.map Prod.fst) := by
    rw [Switch.tags, Switch.tags, ← List.map_append]
    exact spelled.cases.map Prod.fst
  have apart : (s.tags ++ standIns.map Prod.fst).Nodup :=
    nodup.append spelled.once fun t listed gap => ((spelled.gaps t).1 gap).2 listed
  have inside : s.tags ++ standIns.map Prod.fst ⊆ u.tags :=
    List.append_subset.2 ⟨members, fun t gap => ((spelled.gaps t).1 gap).1⟩
  have full : u.tags ⊆ s.tags ++ standIns.map Prod.fst := by
    intro t member
    by_cases listed : t ∈ s.tags
    · exact List.mem_append_left _ listed
    · exact List.mem_append_right _ ((spelled.gaps t).2 ⟨member, listed⟩)
  refine check_eq_ok_iff.2 ⟨perm.nodup_iff.2 apart, List.Subset.trans perm.subset inside, fun _ => ?_,
    fun _ => spelled.closed⟩
  exact List.Subset.trans full perm.symm.subset

end SpellsOut

/-! ## The same calls -/

/-- Whether two runs come to the same call: of a handler that `s` has for the value, with the payload, or of `g`, without
arguments, which the second run gets to by a stand-in. -/
inductive SameCall (host : Host) (s : Switch) (g : Callable) (standIns : List (Tag × Callable)) (v : Value) :
    Run Value → Run Value → Prop where
  | case {x : Tagged Value} {handler : Callable} (hx : v.tagged? = some x) (here : (x.tag, handler) ∈ s.cases) :
      SameCall host s g standIns v
        (do
          Run.record (.toCase v x.tag)
          handler.call host x.payload)
        (do
          Run.record (.toCase v x.tag)
          handler.call host x.payload)
  | catchAll {x : Tagged Value} {standIn : Callable} (hx : v.tagged? = some x) (gap : (x.tag, standIn) ∈ standIns) :
      SameCall host s g standIns v
        (do
          Run.record (.toOtherwise v)
          g.call host [])
        (do
          Run.record (.toCase v x.tag)
          Run.note (.called standIn x.payload)
          g.call host [])

/-- The events on the way to a call: what is recorded of dispatches, and the calls of stand-ins. -/
def onTheWay (standIns : List (Tag × Callable)) : Event → Bool
  | .recorded r => r.level = .debug
  | .called c _ => decide (c ∈ standIns.map Prod.snd)

/-- The same call gives the same result or error, if what is on the way to it is not seen. -/
theorem SameCall.seen_eq {x y : Run Value} (same : SameCall host s g standIns v x y)
    (hhost : host.Overlooks (onTheWay standIns)) (h : History) :
    y.seen (onTheWay standIns) h = x.seen (onTheWay standIns) h := by
  cases same with
  | case => rfl
  | @catchAll x standIn hx gap =>
    have call := Callable.overlooks_call hhost g []
    have detour := Run.overlooks_bind (Run.overlooks_note (.called standIn x.payload)) fun _ => call
    have passed : onTheWay standIns (.called standIn x.payload) = true :=
      decide_eq_true (List.mem_map_of_mem (f := Prod.snd) gap)
    exact (detour.seen_note_bind rfl h).trans ((call.seen_note_bind passed h).trans (call.seen_note_bind rfl h).symm)

theorem SpellsOut.sameCall (spelled : u.SpellsOut host s g standIns s') (covered : u.check s = .ok ())
    (catchAll : s.otherwise = some g) (has : u.has v = true) :
    SameCall host s g standIns v (u.run host v s) (u.run host v s') := by
  have covered' := spelled.check_eq_ok covered
  obtain ⟨x, hx, member⟩ := has_iff.1 has
  by_cases listed : x.tag ∈ s.tags
  · obtain ⟨⟨t, handler⟩, here, rfl⟩ := List.mem_map.1 listed
    rw [run_of_mem_cases covered hx here, run_of_mem_cases covered' hx (spelled.mem_cases.2 (.inl here))]
    exact .case hx here
  · obtain ⟨⟨t, standIn⟩, gap, rfl⟩ := List.mem_map.1 ((spelled.gaps x.tag).2 ⟨member, listed⟩)
    have unlisted : ¬ s.Lists v := by
      rintro ⟨y, hy, ht⟩
      cases hx.symm.trans hy
      exact listed ht
    rw [run_of_mem_cases covered' hx (spelled.mem_cases.2 (.inr gap)), (spelled.deferring _ gap).call_eq,
      run_of_check_eq_ok covered, Switch.dispatch_of_not_lists unlisted catchAll]
    exact .catchAll hx gap

theorem run_of_not_has (covered : u.check s = .ok ()) (absent : u.has v = false) :
    (∀ g, s.otherwise = some g → u.run host v s = (do
      Run.record (.toOtherwise v)
      g.call host [])) ∧
    (s.otherwise = none → u.run host v s = throw (.notMember v)) := by
  have unlisted : ¬ s.Lists v := by
    rintro ⟨x, hx, listed⟩
    rw [has_iff.2 ⟨x, hx, (check_eq_ok_iff.1 covered).2.1 listed⟩] at absent
    cases absent
  rw [run_of_check_eq_ok covered]
  exact ⟨fun g catchAll => Switch.dispatch_of_not_lists unlisted catchAll,
    fun alone => Switch.dispatch_eq_throw unlisted alone⟩

/-- A catch-all that passes the check is short for the cases that are missing. They can be spelled out with any function
that is not in use, and however they are spelled out, the check is passed without the catch-all. Every value of the union
comes to the same call: of its own handler, with the payload, or of the former catch-all, without arguments. So the
result or the error is the same, and so is all that is made and called besides, for a host that cannot see the
records of dispatches and the calls of the stand-ins. A value that is not of the union goes to the catch-all, again without
arguments, and is refused without a call where there is none. -/
theorem catchAll_short_for_cases (covered : u.check s = .ok ()) (catchAll : s.otherwise = some g) :
    (∀ (host : Host) (f : Function) label, f.code = .host label → (∀ c ∈ s.cases, c.2 ≠ .function f) →
      g ≠ .function f → (∀ v, u.run (host.withStandIn f g) v s = u.run host v s) ∧
        ∃ standIns s', u.SpellsOut (host.withStandIn f g) s g standIns s') ∧
    ∀ host standIns s', u.SpellsOut host s g standIns s' →
      u.check s' = .ok () ∧
      (∀ v, u.has v = true →
        SameCall host s g standIns v (u.run host v s) (u.run host v s') ∧
        (host.Overlooks (onTheWay standIns) → ∀ h,
          (u.run host v s').seen (onTheWay standIns) h = (u.run host v s).seen (onTheWay standIns) h)) ∧
      ∀ v, u.has v = false →
        u.run host v s = (do
          Run.record (.toOtherwise v)
          g.call host []) ∧
        u.run host v s' = throw (.notMember v) ∧
        ∀ [Text.Glyphs],
          (Error.notMember v).message = "invalid operation: " ++ (v.display ++ " is not a member of this union") := by
  refine ⟨fun host f label code unused other => ⟨fun v => ?_, exists_spellsOut host u s code other⟩,
    fun host standIns s' spelled => ⟨spelled.check_eq_ok covered, fun v has => ?_, fun v absent => ⟨?_, ?_, rfl⟩⟩⟩
  · refine run_withStandIn unused fun g' same => ?_
    rw [catchAll] at same
    exact Option.some.inj same ▸ other
  · have same := spelled.sameCall covered catchAll has
    exact ⟨same, fun hhost h => same.seen_eq hhost h⟩
  · exact (run_of_not_has covered absent).1 g catchAll
  · exact (run_of_not_has (spelled.check_eq_ok covered) absent).2 spelled.closed

/-- A case for squares, in front of the one for circles, in place of the catch-all. -/
theorem catchAll_short_for_cases_shapes :
    let _ := Text.Glyphs.ascii
    let circle : Tag := .nth 0 (some "Circle")
    let square : Tag := .nth 1 (some "Square")
    let shapes : Union := ⟨0, [circle, square], by decide, by decide⟩
    let ofCircle : Callable := .function ⟨1, .host none⟩
    let ofOthers : Callable := .function ⟨2, .host none⟩
    let spare : Function := ⟨3, .host none⟩
    let env : Script.Env := { bodies := [(1, .arguments), (2, .const (.str "other"))] }
    let host : Host := (env.hostTo 1).withStandIn spare ofOthers
    let s : Switch := { cases := [(circle, ofCircle)], otherwise := some ofOthers }
    let s' : Switch := { cases := [(square, .function spare), (circle, ofCircle)] }
    let v : Value := .tagged ⟨4, square, [.int 3]⟩
    shapes.check s = .ok () ∧ shapes.SpellsOut host s ofOthers [(square, .function spare)] s' ∧
    shapes.check s' = .ok () ∧
    (∀ h, (shapes.run host v s').seen (onTheWay [(square, .function spare)]) h =
      (shapes.run host v s).seen (onTheWay [(square, .function spare)]) h) ∧
    (∃ h, shapes.run host v s {} = .ok (.str "other") h) ∧
    shapes.run host .nothing s' = throw (.notMember .nothing) := by
  intro _ circle square shapes ofCircle ofOthers spare env host s s' v
  have covered : shapes.check s = .ok () := rfl
  have spelled : shapes.SpellsOut host s ofOthers [(square, .function spare)] s' := by
    refine ⟨rfl, .swap _ _ [], by decide, fun t => ?_, fun c hc => ?_⟩
    · have apart : square ≠ circle := by decide
      simp only [shapes, s, Switch.tags, List.map_cons, List.map_nil, List.mem_cons, List.not_mem_nil, or_false]
      constructor
      · rintro rfl
        exact ⟨.inr rfl, apart⟩
      · rintro ⟨member, unlisted⟩
        exact member.resolve_left unlisted
    · have code : spare.code = .host none := rfl
      rw [List.mem_singleton.1 hc]
      exact Callable.standsInFor_withStandIn code (by decide)
  obtain ⟨covered', members, others⟩ := (catchAll_short_for_cases covered rfl).2 host _ s' spelled
  have overlooks : host.Overlooks (onTheWay [(square, .function spare)]) :=
    (Script.Env.overlooks_hostTo env 1).withStandIn spare ofOthers
  exact ⟨covered, spelled, covered', (members v rfl).2 overlooks, ⟨_, rfl⟩, (others .nothing rfl).2.1⟩

end Union

end TaggedUnion
