/-
Running scripts. Every step runs, whatever became of the ones before it; a step that succeeds may bind
its result to a variable, and one that fails binds nothing. The answer to a step comes with the calls
of labelled functions and the records that it made.
-/
import TaggedUnion.Script.Eval
import TaggedUnion.Value.Equality

namespace TaggedUnion.Script

/-! ## Answers -/

/-- A value looked at in every way. -/
structure Inspection where
  kind : Kind
  str : Option String
  sliceLength : Option Nat
  mapSize : Option Nat
  isCallable : Bool
  tag : Option Tag
  tagged : Option (Tagged Value)
  isNothing : Bool

inductive Answer where
  | value (v : Value)
  | missing
  | text (s : String)
  | bool (b : Bool)
  | bools (bs : List Bool)
  | count (n : Nat)
  | texts (ss : List String)
  | inspection (i : Inspection)
  | tag (t : Tag)
  | tagged (x : Tagged Value)
  | union (u : Union)
  | switch (s : Switch)
  | named (n : NamedUnion)

/-- What a step gives: its answer, and what is bound to its variable. -/
structure Outcome where
  answer : Answer
  bound : Option Binding := none

/-! ## Commands -/

namespace Outcome

/-- A value, which is bound as well. -/
def value (v : Value) : Outcome := ⟨.value v, some (.value v)⟩

def switch (s : Switch) : Outcome := ⟨.switch s, some (.switch s)⟩

def named (n : NamedUnion) : Outcome := ⟨.named n, some (.named n)⟩

end Outcome

def inspect (v : Value) : Inspection where
  kind := v.kind
  str := v.str?
  sliceLength := v.slice?.map List.length
  mapSize := v.map?.map List.length
  isCallable := v.callable?.isSome
  tag := v.tag?
  tagged := v.tagged?
  isNothing := v.isNothing

def nest (wrap : Value → Run Value) : Nat → Value → Run Value
  | 0, v => return v
  | depth + 1, v => do
    let w ← wrap v
    nest wrap depth w

/-- One layer around a value: a slice of it, or the tagged value with it as the only payload. -/
def layer : Option Tag → Value → Run Value
  | none, v => return .slice [v]
  | some t, v => t.wrap [v]

/-- What is done with the payload of a value: it is given as a slice, or passed to a callable. -/
def payloadTo (host : Host) : Option Value → List Value → Run Value
  | none, payload => return .slice payload
  | some f, payload => f.call host payload

open Eval in
def perform [Text.Glyphs] : Command → Eval Outcome
  | .value e => return .value (← e.eval)
  | .display e => return { answer := .text (← e.eval).display }
  | .debug (.var x) => do
    let b ← required x ((← env).vars.lookup x)
    return { answer := .text b.debug }
  | .debug (.expr e) => return { answer := .text (← e.eval).debug }
  | .inspect e => return { answer := .inspection (inspect (← e.eval)) }
  | .equal a b => do
    let v ← a.eval
    let w ← b.eval
    return { answer := .bool (v == w) }
  | .toFunction e => do
    let v ← e.eval
    match ← ofRun v.toFunction? with
    | some f => return .value (.function f)
    | none => return { answer := .missing }
  | .call f args => do
    let f ← f.eval
    let args ← evalList args
    return .value (← ofRun (f.call (← host) args))
  | .nest e depth tag => do
    let v ← e.eval
    let t ← Operand.tagOption tag
    let w ← ofRun (nest (layer t) depth v)
    return ⟨.count depth, some (.value w)⟩
  | .tagOf name => do
    let name ← name.eval
    return .value (.tag (← ofRun (Tag.ofValue name)))
  | .tag name => return .value (.tag (← ofRun (Tag.create name)))
  | .tagInfo tag => return { answer := .tag (← tag.tag) }
  | .wrap tag args => do
    let t ← tag.tag
    let args ← evalList args
    return .value (← ofRun (t.wrap args))
  | .is tag e => do
    let t ← tag.tag
    return { answer := .bool (t.is (← e.eval)) }
  | .owns tag v => do
    let t ← tag.tag
    return { answer := .bool (t.owns (← v.tagged)) }
  | .unwrap tag e f => do
    let t ← tag.tag
    let v ← e.eval
    let f ← evalOption f
    return .value (← ofRun (t.unwrap v (payloadTo (← host) f)))
  | .taggedInfo v => return { answer := .tagged (← v.tagged) }
  | .owner v => return .value (.tag (← v.tagged).tag)
  | .newcomers tags => return { answer := .bools (newcomers (← Operand.tags tags)) }
  | .unionOf tags => do
    let vs ← evalList tags
    return .value (.union (← ofRun (Union.ofValues vs)))
  | .union tags => do
    let ts ← Operand.tags tags
    return .value (.union (← ofRun (Union.create ts)))
  | .unionInfo u => return { answer := .union (← u.union) }
  | .contains u tag => do
    let u ← u.union
    return { answer := .bool (u.contains (← tag.tag)) }
  | .has u e => do
    let u ← u.union
    return { answer := .bool (u.has (← e.eval)) }
  | .switch u e clauses => do
    let u ← u.union
    let v ← e.eval
    let clauses ← evalList clauses
    return .value (← ofRun (u.switch (← host) v clauses))
  | .emptySwitch => return .switch {}
  | .clauses es => do
    let vs ← evalList es
    return .switch (← ofRun (Run.ofExcept (Switch.ofClauses vs)))
  | .addCase x tag f => do
    let s ← required x ((← env).switch? x)
    let t ← tag.tag
    let handler ← expected (← f.eval).callable?
    return .switch (s.addCase t handler)
  | .otherwise x f => do
    let s ← required x ((← env).switch? x)
    let handler ← expected (← f.eval).callable?
    return .switch (s.withOtherwise handler)
  | .check u x => do
    let u ← u.union
    let s ← required x ((← env).switch? x)
    ofRun (Run.ofExcept (u.check s))
    return { answer := .bool true }
  | .run u e x => do
    let u ← u.union
    let v ← e.eval
    let s ← required x ((← env).switch? x)
    return .value (← ofRun (u.run (← host) v s))
  | .namedOf names => do
    let names ← names.eval
    return .named (← ofRun (NamedUnion.ofValue names))
  | .named names => return .named (← ofRun (NamedUnion.create names))
  | .get x name => do
    let n ← required x ((← env).named? x)
    match n.get? name with
    | some t => return .value (.tag t)
    | none => return { answer := .missing }
  | .index x name => do
    let n ← required x ((← env).named? x)
    return .value (.tag (← memberOf n name))
  | .namedSwitch x e handlers otherwise => do
    let n ← required x ((← env).named? x)
    let v ← e.eval
    let handlers ← handlers.eval
    let otherwise ← evalOption otherwise
    return .value (← ofRun (n.switch (← host) v handlers otherwise))
  | .reserved => return { answer := .texts NamedUnion.reserved }

/-! ## Steps -/

structure Report where
  result : Except Failure Answer
  calls : List (String × List Value)
  records : List Record

/-- The call of a labelled function that an event is, if it is one. -/
def labelledCall? : Event → Option (String × List Value)
  | .called (.function ⟨_, .host (some label)⟩) args => some (label, args)
  | _ => none

def Step.eval [Text.Glyphs] (step : Step) : Eval Answer := do
  let outcome ← perform step.command
  match step.target, outcome.bound with
  | some x, some b => modify fun st => { st with env := st.env.bind x b }
  | _, _ => pure ()
  return outcome.answer

def Step.run [Text.Glyphs] (step : Step) (st : State) : Report × State :=
  let (result, next) : Except Failure Answer × State := match step.eval st with
    | .ok answer next => (.ok answer, next)
    | .error failure next => (.error failure, next)
  let events := next.history.events.toList.drop st.history.events.size
  ({ result, calls := events.filterMap labelledCall?, records := events.filterMap Event.record? }, next)

def runFrom [Text.Glyphs] (st : State) : List Step → List Report
  | [] => []
  | step :: steps =>
    let (report, next) := step.run st
    report :: runFrom next steps

def run [Text.Glyphs] (steps : List Step) : List Report := runFrom {} steps

end TaggedUnion.Script
