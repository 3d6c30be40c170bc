/-
Unions: closed sets of tags. No tag is in one twice, and no two members have the same name. A union is
an object of its own, known by the number it got when it was made; two unions of the same tags are
different unions.
-/
import TaggedUnion.Tag

namespace TaggedUnion

/-- A closed set of tags, in the order in which they were given. -/
structure Union where
  ident : Nat
  tags : List Tag
  nodup_tags : tags.Nodup
  nodup_names : (tags.filterMap Tag.name).Nodup
deriving DecidableEq

namespace Union

def contains (u : Union) (t : Tag) : Bool := decide (t ∈ u.tags)

/-- The names of the members, in order; a member without a name has none here. -/
def names (u : Union) : List String := u.tags.filterMap Tag.name

def same (u w : Union) : Bool := u.ident == w.ident

/-- The members as `Union(A | B)`. -/
def display (u : Union) : String :=
  "Union(" ++ " | ".intercalate (u.tags.map Tag.display) ++ ")"

def debug (u : Union) : String :=
  "Union([" ++ ", ".intercalate (u.tags.map Tag.debug) ++ "])"

end Union

end TaggedUnion
