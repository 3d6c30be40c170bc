/-
Named unions: unions of new tags, one for each of a list of names, whose members are looked up by
name. Values are dispatched with handlers by name as well as with a switch.
-/
import TaggedUnion.Union.Match

namespace TaggedUnion

/-- A tag under its name. -/
def Tag.entry? (t : Tag) : Option (String × Tag) := t.name.map fun name => (name, t)

/-- The map from the names of the members to the members. -/
def Union.byName (u : Union) : Entries Tag := .ofList (u.tags.filterMap Tag.entry?)

/-- A union whose members all have names, with the map in which they are looked up. -/
structure NamedUnion where
  union : Union
  members : Entries Tag
  named : ∀ t ∈ union.tags, t.name.isSome
  members_eq : members = union.byName
deriving DecidableEq

namespace NamedUnion

def ofUnion (u : Union) (named : ∀ t ∈ u.tags, t.name.isSome) : NamedUnion := ⟨u, u.byName, named, rfl⟩

/-- The names that no member may have: the union's own operations, and what every function object of
a host has. -/
def reserved : List String :=
  ["has", "match", "namedMatch", "name", "length", "prototype", "constructor", "call", "apply", "bind",
    "toString", "arguments", "caller"]

/-! ## Construction -/

theorem isSome_name_of_map_name_eq {ts : List Tag} {names : List String}
    (h : ts.map Tag.name = names.map some) : ∀ t ∈ ts, t.name.isSome := by
  intro t ht
  have mem : t.name ∈ names.map some := h ▸ List.mem_map_of_mem ht
  obtain ⟨name, -, hname⟩ := List.mem_map.1 mem
  rw [← hname, Option.isSome_some]

/-- Makes a new tag for each name and a union of them. No tag is made if a name is reserved. -/
def create (names : List String) : Run NamedUnion := do
  match names.find? fun name => decide (name ∈ reserved) with
  | some name => throw (.reservedName name)
  | none =>
    let ts ← Tag.createAll names
    let u ← Union.create ts
    return ofUnion u (isSome_name_of_map_name_eq (by rw [u.2, ts.2]))

/-- The texts of a list of values, if all of them are texts; `index` is the number of the first. -/
def textsFrom (index : Nat) : List Value → Except Error (List String)
  | [] => .ok []
  | .str s :: vs => do
    let rest ← textsFrom (index + 1) vs
    return s :: rest
  | v :: _ => .error (.nameNotText index v.kind)

def namesOf (names : Value) : Except Error (List String) :=
  match names.slice? with
  | some vs => textsFrom 0 vs
  | none => .error (.namesNotSlice names.kind)

def ofValue (names : Value) : Run NamedUnion := do
  let names ← Run.ofExcept (namesOf names)
  create names

/-! ## Members -/

def names (n : NamedUnion) : List String := n.union.names

def get? (n : NamedUnion) (name : String) : Option Tag := n.members.lookup name

/-- A member was taken for granted that does not exist. -/
structure NoMember where
  union : Union
  name : String

def NoMember.text [Text.Glyphs] (e : NoMember) : String :=
  e.union.display ++ " has no member " ++ Text.quoted e.name

/-- The member of a name that is taken for granted. -/
def index (n : NamedUnion) (name : String) : Except NoMember Tag :=
  match n.get? name with
  | some t => .ok t
  | none => .error ⟨n.union, name⟩

def debug [Text.Glyphs] (n : NamedUnion) : String :=
  "NamedUnion \x7b union: " ++ n.union.debug ++ ", members: " ++
    Value.braced (n.members.map fun e => Text.quoted e.1 ++ ": " ++ e.2.debug) ++ " \x7d"

/-! ## Handlers by name -/

def callables : Entries Value → Except Error (Entries Callable)
  | [] => .ok []
  | (name, v) :: es =>
    match v.callable? with
    | some handler => do
      let rest ← callables es
      return (name, handler) :: rest
    | none => .error (.handlerNotCallable name v.kind)

/-- The catch-all that is meant by an optional value; nothing means none. -/
def catchAllOf : Option Value → Except Error (Option Callable)
  | none => .ok none
  | some v =>
    if v.isNothing then .ok none
    else
      match v.callable? with
      | some handler => .ok (some handler)
      | none => .error (.otherwiseNotCallable v.kind)

/-- The cases of the members that have a handler under their name, in the order of the union. -/
def casesOf (n : NamedUnion) (handlers : Entries Callable) : List (Tag × Callable) :=
  n.union.tags.filterMap fun t => do
    let name ← t.name
    let handler ← handlers.lookup name
    return (t, handler)

/-- The switch with the handler under a member's name as that member's case, in the order of the union.
Faults are reported in this order: the handlers are no map, the first of them by name that cannot be
called, a catch-all that cannot be called, the first by name that is not a member's. -/
def switchOf (n : NamedUnion) (handlers : Value) (otherwise : Option Value) : Except Error Switch := do
  match handlers.map? with
  | none => .error (.handlersNotMap handlers.kind)
  | some entries =>
    let handlers ← callables entries.byName
    let otherwise ← catchAllOf otherwise
    match handlers.find? fun e => !n.members.contains e.1 with
    | some e => .error (.strayHandler e.1)
    | none => return { cases := n.casesOf handlers, otherwise }

/-- Dispatches a value to the handler under the name of its tag. -/
def switch (host : Host) (n : NamedUnion) (v : Value) (handlers : Value) (otherwise : Option Value) :
    Run Value := do
  let s ← Run.ofExcept (n.switchOf handlers otherwise)
  n.union.run host v s

end NamedUnion

end TaggedUnion
