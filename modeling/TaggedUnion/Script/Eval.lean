/-
Evaluation of a script's expressions and operands. Evaluation reads the variables, makes the functions
that the expressions define, and extends the history.
-/
import TaggedUnion.Script.Env

namespace TaggedUnion.Script

inductive Failure where
  | error (e : Error)
  | noMember (e : NamedUnion.NoMember)
  | unbound (x : String)
  | badOperand

/-! ## State -/

/-- The state of a script: its variables and functions, and the history. -/
structure State where
  env : Env := {}
  history : History := {}

abbrev Eval := EStateM Failure State

namespace Eval

def ofRun {α : Type} (x : Run α) : Eval α := fun st =>
  match x st.history with
  | .ok a h => .ok a { st with history := h }
  | .error e h => .error (.error e) { st with history := h }

def required {α : Type} (x : String) : Option α → Eval α
  | some a => return a
  | none => throw (.unbound x)

def expected {α : Type} : Option α → Eval α
  | some a => return a
  | none => throw .badOperand

def env : Eval Env := return (← get).env

def host [Text.Glyphs] : Eval Host := return (← env).host

def newFunction (label : Option String) (body : Body Value) : Eval Value := do
  let ident ← ofRun Run.freshObject
  modify fun st => { st with env := { st.env with bodies := (ident, body) :: st.env.bodies } }
  return .function ⟨ident, .host label⟩

end Eval

def memberOf (n : NamedUnion) (name : String) : Eval Tag :=
  match n.index name with
  | .ok t => return t
  | .error e => throw (.noMember e)

/-! ## Expressions -/

mutual

def Expr.eval : Expr → Eval Value
  | .nothing => return .nothing
  | .int i => return .int i
  | .float x => return .float x
  | .bool b => return .bool b
  | .str s => return .str s
  | .slice es => return .slice (← evalList es)
  | .map es => return .ofEntries (← evalEntries es)
  | .ref x => do Eval.required x ((← Eval.env).value? x)
  | .member x name => do
    let n ← Eval.required x ((← Eval.env).named? x)
    return .tag (← memberOf n name)
  | .function label body => evalBody label body

/-- The function of a body whose expressions are evaluated now. -/
def evalBody (label : Option String) : Body Expr → Eval Value
  | .const e => do Eval.newFunction label (.const (← e.eval))
  | .arguments => Eval.newFunction label .arguments
  | .count => Eval.newFunction label .count
  | .texts => Eval.newFunction label .texts
  | .nth index => Eval.newFunction label (.nth index)
  | .sum => Eval.newFunction label .sum
  | .raise kind text => Eval.newFunction label (.raise kind text)
  | .each f next => do Eval.newFunction label (.each f (← next.eval))
  | .dispatch u s => Eval.newFunction label (.dispatch u s)

def evalList : List Expr → Eval (List Value)
  | [] => return []
  | e :: es => do
    let v ← e.eval
    let vs ← evalList es
    return v :: vs

def evalEntries : List (String × Expr) → Eval (List (String × Value))
  | [] => return []
  | (name, e) :: es => do
    let v ← e.eval
    let vs ← evalEntries es
    return (name, v) :: vs

end

def evalOption : Option Expr → Eval (Option Value)
  | none => return none
  | some e => do return some (← e.eval)

/-! ## Operands -/

namespace Operand

def value : Operand → Eval Value
  | .var x => do Eval.required x ((← Eval.env).value? x)
  | .expr e => e.eval

def tag (o : Operand) : Eval Tag := do Eval.expected (← o.value).tag?

def tagged (o : Operand) : Eval (Tagged Value) := do Eval.expected (← o.value).tagged?

def union (o : Operand) : Eval Union := do
  match ← o.value with
  | .union u => return u
  | _ => throw .badOperand

def tags : List Operand → Eval (List Tag)
  | [] => return []
  | o :: os => do
    let t ← o.tag
    let ts ← tags os
    return t :: ts

def tagOption : Option Operand → Eval (Option Tag)
  | none => return none
  | some o => do return some (← o.tag)

end Operand

end TaggedUnion.Script
