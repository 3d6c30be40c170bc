/-
Tags: the constructors of tagged values. A tag is an allocation of its own. With it come a number, which is
shown for a tag without a name and which tags are hashed by, and perhaps a name, which only appears in
texts, so two tags of one name are different tags.
-/
namespace TaggedUnion

/-- A constructor of tagged values. No allocation is given out twice. -/
structure Tag where
  ident : Nat
  id : UInt64
  name : Option String
deriving DecidableEq

namespace Tag

/-- The tag that is made after `n` others. Its number is the state of a counter of 64 bits. -/
def nth (n : Nat) (name : Option String) : Tag := ⟨n, .ofNat n, name⟩

/-- Whether two are the same tag, which is whether they are one allocation. As elements of lists tags are compared as a
whole; among tags that have been made it comes to the same. -/
def same (s t : Tag) : Bool := s.ident == t.ident

/-- A tag is hashed by its number. -/
instance : Hashable Tag := ⟨Tag.id⟩

/-- The name, and the number for a tag without one. -/
def display (t : Tag) : String :=
  match t.name with
  | some name => name
  | none => "Tag#" ++ toString t.id.toNat

/-- The name and the number; an underscore stands for no name. -/
def debug (t : Tag) : String :=
  "Tag(" ++ t.name.getD "_" ++ "#" ++ toString t.id.toNat ++ ")"

end Tag

end TaggedUnion
