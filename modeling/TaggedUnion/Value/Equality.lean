/-
Equality of values: data by content, objects by identity. Two maps are equal if they have the same
number of entries and the second holds an equal value under every name of the first.
-/
import TaggedUnion.Value.Basic

namespace TaggedUnion.Value

mutual

/-- Equality of two values; a NaN equals nothing. -/
protected def beq : Value → Value → Bool
  | .nothing, .nothing => true
  | .int i, .int j => i == j
  | .float x, .float y => x == y
  | .bool b, .bool c => b == c
  | .str s, .str t => s == t
  | .slice vs, .slice ws => beqList vs ws
  | .map es, .map fs => es.length == fs.length && beqEntries es fs
  | .function f, .function g => f.same g
  | .tag s, .tag t => s.same t
  | .tagged x, .tagged y => x.same y
  | .union u, .union w => u.same w
  | _, _ => false

def beqList : List Value → List Value → Bool
  | [], [] => true
  | v :: vs, w :: ws => v.beq w && beqList vs ws
  | _, _ => false

/-- Whether every entry of the first list has an equal value under its name in the second. -/
def beqEntries : List (String × Value) → List (String × Value) → Bool
  | [], _ => true
  | (name, v) :: es, fs =>
    (match fs.lookup name with
      | some w => v.beq w
      | none => false) && beqEntries es fs

end

instance : BEq Value := ⟨Value.beq⟩

end TaggedUnion.Value
