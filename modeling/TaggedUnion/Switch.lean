/-
Switches: tables from tags to handlers, with an optional catch-all. A switch does not know which union
it is used with; whether it covers one is checked there.
-/
import TaggedUnion.Call

namespace TaggedUnion

/-- A table from tags to handlers. -/
structure Switch where
  cases : List (Tag × Callable) := []
  /-- The catch-all, which is called without arguments if there is no case for a value. -/
  otherwise : Option Callable := none
deriving DecidableEq

namespace Switch

def tags (s : Switch) : List Tag := s.cases.map Prod.fst

def addCase (s : Switch) (t : Tag) (handler : Callable) : Switch :=
  { s with cases := s.cases ++ [(t, handler)] }

def withOtherwise (s : Switch) (handler : Callable) : Switch :=
  { s with otherwise := some handler }

/-- The tags of the cases in order, and whether there is a catch-all; handlers are not shown. -/
def debug (s : Switch) : String :=
  "Switch \x7b cases: [" ++
    ", ".intercalate (s.tags.map fun t => "(" ++ t.debug ++ ", <function>)") ++ "], otherwise: " ++
    (if s.otherwise.isSome then "Some(<function>)" else "None") ++ " \x7d"

/-! ## Clauses -/

/-- Reads clauses in order: a tag and its handler each, and at the end, if one value is left over, the
catch-all. `index` is the number of the first clause. -/
def ofClausesFrom (index : Nat) : List Value → Except Error Switch
  | [] => .ok {}
  | [last] =>
    match last.callable? with
    | some handler => .ok { otherwise := some handler }
    | none => .error (.otherwiseNotCallable last.kind)
  | first :: second :: rest =>
    match first.tag?, second.callable? with
    | some t, some handler => do
      let s ← ofClausesFrom (index + 1) rest
      return { s with cases := (t, handler) :: s.cases }
    | some t, none => .error (.clauseNotCallable index t second.kind)
    | none, _ => .error (.clauseNotTag index first.kind)

/-- Reads a list of clauses, as in `[tag, handler, tag, handler, catch-all]`. Repeats and gaps are
left to the check against a union. -/
def ofClauses (clauses : List Value) : Except Error Switch :=
  ofClausesFrom 0 clauses

/-- The list of clauses that a switch is read from. -/
def clauses (s : Switch) : List Value :=
  (s.cases.flatMap fun c => [.tag c.1, c.2.toValue]) ++ (s.otherwise.map Callable.toValue).toList

/-! ## Dispatch -/

/-- The handler that a switch picks for a value: the one of the value's tag, with the payload, or the
catch-all. -/
inductive Choice where
  | case (t : Tag) (handler : Callable) (payload : List Value)
  | otherwise (handler : Callable)

namespace Choice

def handler : Choice → Callable
  | .case _ handler _ => handler
  | .otherwise handler => handler

def args : Choice → List Value
  | .case _ _ payload => payload
  | .otherwise _ => []

def record (v : Value) : Choice → Record
  | .case t _ _ => .toCase v t
  | .otherwise _ => .toOtherwise v

end Choice

/-- The first case whose tag constructed the value. -/
def caseOf? (s : Switch) (v : Value) : Option Choice :=
  match v.tagged? with
  | some x => (s.cases.find? fun c => c.1.owns x).map fun c => .case c.1 c.2 x.payload
  | none => none

def choose? (s : Switch) (v : Value) : Option Choice :=
  match s.caseOf? v with
  | some c => some c
  | none => s.otherwise.map .otherwise

/-- Calls the handler that is picked for a value, after a record of it. -/
def dispatch (host : Host) (s : Switch) (v : Value) : Run Value :=
  match s.choose? v with
  | some c => do
    Run.record (c.record v)
    c.handler.call host c.args
  | none => throw (.notMember v)

end Switch

end TaggedUnion
