/-
Finite maps from names to values of any type, as lists of entries. The order of the entries has no
meaning: a map is read by look-up, and written or visited in the order of the names.
-/
namespace TaggedUnion

/-- A finite map as the list of its entries; every name occurs once. -/
abbrev Entries (α : Type) := List (String × α)

namespace Entries

variable {α : Type}

/-- The map with `value` under `name`, in place of what was there. -/
def insert (name : String) (value : α) : Entries α → Entries α
  | [] => [(name, value)]
  | e :: es => if e.1 = name then (name, value) :: es else e :: insert name value es

def contains (name : String) (es : Entries α) : Bool := (es.lookup name).isSome

/-- The map of a list of entries; of two entries of one name the later one counts. -/
def ofList (es : List (String × α)) : Entries α :=
  es.foldl (fun m e => m.insert e.1 e.2) []

/-- The entries in ascending order of their names, which is the order of their code points. -/
def byName (es : Entries α) : Entries α :=
  es.mergeSort fun a b => decide (a.1 ≤ b.1)

end Entries

end TaggedUnion
