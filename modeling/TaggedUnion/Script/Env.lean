/-
What a script's variables hold, and what its functions do when they are called. A function looks its
variables up at the time of the call.
-/
import TaggedUnion.NamedUnion
import TaggedUnion.Script.Syntax

namespace TaggedUnion.Script

inductive Binding where
  | value (v : Value)
  | switch (s : Switch)
  | named (n : NamedUnion)

/-- The variables, and the bodies of the functions that the script has made. -/
structure Env where
  vars : Entries Binding := []
  bodies : List (Nat × Body Value) := []

def Binding.debug [Text.Glyphs] : Binding → String
  | .value v => v.debug
  | .switch s => s.debug
  | .named n => n.debug

/-- The value that a binding stands for; a switch is none. -/
def Binding.toValue? : Binding → Option Value
  | .value v => some v
  | .switch _ => none
  | .named n => some (.union n.union)

namespace Env

/-! ## Look-up -/

def value? (env : Env) (x : String) : Option Value :=
  (env.vars.lookup x).bind Binding.toValue?

def union? (env : Env) (x : String) : Option Union :=
  match env.value? x with
  | some (.union u) => some u
  | _ => none

def switch? (env : Env) (x : String) : Option Switch :=
  match env.vars.lookup x with
  | some (.switch s) => some s
  | _ => none

def named? (env : Env) (x : String) : Option NamedUnion :=
  match env.vars.lookup x with
  | some (.named n) => some n
  | _ => none

def bind (env : Env) (x : String) (b : Binding) : Env :=
  { env with vars := env.vars.insert x b }

/-! ## Functions -/

def failure (text : String) : Error := .raised .handler text

def required {α : Type} (x : String) : Option α → Run α
  | some a => return a
  | none => throw (failure ("unbound " ++ x))

/-- Adds integers to a sum, from left to right, as long as it fits into 64 bits. -/
def sumFrom (total : Int) : List Value → Run Value
  | [] => return .int (Int64.ofInt total)
  | .int i :: vs =>
    let next := total + i.toInt
    if Int64.minValue.toInt ≤ next ∧ next ≤ Int64.maxValue.toInt then sumFrom next vs
    else throw (failure "overflow")
  | v :: _ => throw (failure ("expected Int, got " ++ v.kind.name))

/-- Calls a value once for each argument and gives the results; the first failure ends it. -/
def callEach (host : Host) (f : Value) : List Value → Run (List Value)
  | [] => return []
  | v :: vs => do
    let result ← f.call host [v]
    let results ← callEach host f vs
    return result :: results

/-- Runs the body of a function; `host` runs the functions that it calls. -/
def runBody [Text.Glyphs] (env : Env) (host : Host) (body : Body Value) (args : List Value) : Run Value :=
  match body with
  | .const v => return v
  | .arguments => return .slice args
  | .count => return .int (Int64.ofNat args.length)
  | .texts => return .str (" ".intercalate (args.map Value.display))
  | .nth index =>
    match args[index]? with
    | some v => return v
    | none => throw (failure ("no argument " ++ toString index))
  | .sum => sumFrom 0 args
  | .raise kind text => throw (.raised kind text)
  | .each x next => do
    let f ← required x (env.value? x)
    let results ← callEach host f args
    next.call host results
  | .dispatch x y => do
    let u ← required x (env.union? x)
    let s ← required y (env.switch? y)
    u.run host (args.headD .nothing) s

/-- Runs the functions of a script, to a depth of nested calls. -/
def hostTo [Text.Glyphs] (env : Env) : Nat → Host
  | 0 => fun _ _ => throw (failure "calls are nested too deeply")
  | depth + 1 => fun f args =>
    match env.bodies.lookup f.ident with
    | some body => env.runBody (env.hostTo depth) body args
    | none => throw (failure "unknown function")

def depthLimit : Nat := 1000000

def host [Text.Glyphs] (env : Env) : Host := env.hostTo depthLimit

end Env

end TaggedUnion.Script
