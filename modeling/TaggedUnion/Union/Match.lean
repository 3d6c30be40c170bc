/-
Matching: a switch is checked to cover a union, every member once, and then a value is dispatched
through it. A catch-all fills gaps, and one that can never be reached is an error.
-/
import TaggedUnion.Switch
import TaggedUnion.Union.Create

namespace TaggedUnion.Union

/-- The members without a case in the switch, in the order of the union. -/
def missing (u : Union) (s : Switch) : List Tag :=
  u.tags.filter fun t => !isKnown s.tags t

/-- Checks that a switch covers every member once. Of several faults the first of these is reported: a
repeated case, a case of a stranger, members left out, a catch-all that cannot be reached. -/
def check (u : Union) (s : Switch) : Except Error Unit :=
  match firstRepeat? s.tags with
  | some t => .error (.repeatedCase t)
  | none =>
    match s.tags.find? fun t => !u.contains t with
    | some t => .error (.strayCase t)
    | none =>
      match u.missing s, s.otherwise with
      | [], none => .ok ()
      | [], some _ => .error .unreachableOtherwise
      | ts, none => .error (.missingCases ts)
      | _, some _ => .ok ()

/-- Dispatches a value through a switch that covers the union. -/
def run (host : Host) (u : Union) (v : Value) (s : Switch) : Run Value := do
  Run.ofExcept (u.check s)
  s.dispatch host v

/-- Dispatches a value through the switch that a list of clauses says. -/
def switch (host : Host) (u : Union) (v : Value) (clauses : List Value) : Run Value := do
  let s ← Run.ofExcept (Switch.ofClauses clauses)
  u.run host v s

end TaggedUnion.Union
