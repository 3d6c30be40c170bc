/-
Construction and calls. Calling a tag wraps the arguments into a new tagged value, calling a union
fails, and calling a function runs the host's code or what the function was made from. Every call of a
callable is an event of the history, in front of everything that the call does.
-/
import TaggedUnion.History

namespace TaggedUnion

/-! ## Tags -/

namespace Tag

def create (name : Option String) : Run { t : Tag // t.name = name } := do
  let n ← Run.freshTag
  let t := Tag.nth n name
  Run.record (.tagCreated t)
  return ⟨t, rfl⟩

def createAll : (names : List String) → Run { ts : List Tag // ts.map Tag.name = names.map some }
  | [] => return ⟨[], rfl⟩
  | name :: names => do
    let t ← create (some name)
    let ts ← createAll names
    return ⟨t.1 :: ts.1, by rw [List.map_cons, List.map_cons, t.2, ts.2]⟩

/-- Makes a new tag whose name is a value: a text, or nothing for no name. -/
def ofValue (name : Value) : Run Tag :=
  match name with
  | .nothing => Subtype.val <$> create none
  | .str s => Subtype.val <$> create (some s)
  | v => throw (.tagNameNotText v.kind)

def wrap (t : Tag) (payload : List Value) : Run Value := do
  let ident ← Run.freshObject
  return .tagged ⟨ident, t, payload⟩

/-- Passes the payload of a value to `f` if the tag constructed the value. -/
def unwrap {α : Type} (t : Tag) (v : Value) (f : List Value → Run α) : Run α :=
  match v.tagged? with
  | some x => if t.owns x then f x.payload else throw (.cannotUnwrap v t)
  | none => throw (.cannotUnwrap v t)

end Tag

/-! ## Calls -/

def Union.refuse (u : Union) : Run Value := throw (.unionCalled u)

def Function.apply (host : Host) (f : Function) (args : List Value) : Run Value :=
  match f.code with
  | .host _ => host f args
  | .tag t => t.wrap args
  | .union u => u.refuse

def Callable.call (host : Host) (c : Callable) (args : List Value) : Run Value := do
  Run.note (.called c args)
  match c with
  | .function f => f.apply host args
  | .tag t => t.wrap args
  | .union u => u.refuse

/-- The callable as a function: a function is one already, and for a tag or a union a new function is
made each time. -/
def Callable.toFunction (c : Callable) : Run Function := do
  match c with
  | .function f => return f
  | .tag t => return ⟨← Run.freshObject, .tag t⟩
  | .union u => return ⟨← Run.freshObject, .union u⟩

namespace Value

def call (host : Host) (v : Value) (args : List Value) : Run Value :=
  match v.callable? with
  | some c => c.call host args
  | none => throw (.notCallable v.kind)

def toFunction? (v : Value) : Run (Option Function) :=
  match v.callable? with
  | some c => some <$> c.toFunction
  | none => return none

end Value

end TaggedUnion
