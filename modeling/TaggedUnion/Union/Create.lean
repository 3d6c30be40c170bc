/-
Making unions. The members of a union are distinct tags, and no two of them have the same name; tags
without a name never clash.
-/
import TaggedUnion.Call
import TaggedUnion.Repeat

namespace TaggedUnion.Union

/-- What is wrong with a list of tags as the members of a union: first a tag that repeats an earlier
one, then a name that does. -/
def clash? (tags : List Tag) : Option Error :=
  match firstRepeat? tags with
  | some t => some (.repeatedTag t)
  | none => (firstRepeat? (tags.filterMap Tag.name)).map .repeatedName

theorem clash?_eq_none_iff {tags : List Tag} :
    clash? tags = none ↔ tags.Nodup ∧ (tags.filterMap Tag.name).Nodup := by
  unfold clash?
  have distinct := @firstRepeat?_eq_none_iff Tag _ _ tags
  have distinctNames := @firstRepeat?_eq_none_iff String _ _ (tags.filterMap Tag.name)
  split <;> simp_all

def create (tags : List Tag) : Run { u : Union // u.tags = tags } :=
  match h : clash? tags with
  | some e => throw e
  | none => do
    Run.record (.unionCreated tags.length)
    let ident ← Run.freshObject
    have valid := clash?_eq_none_iff.1 h
    return ⟨⟨ident, tags, valid.1, valid.2⟩, rfl⟩

/-- A list with a fault makes no union. -/
theorem create_of_clash {tags : List Tag} {e : Error} (h : clash? tags = some e) :
    create tags = throw e := by
  unfold create
  split <;> simp_all

/-- A list without a fault makes a union of exactly its tags, on record in front of it. -/
theorem create_of_valid {tags : List Tag} (h : tags.Nodup) (hn : (tags.filterMap Tag.name).Nodup) :
    create tags = (do
      Run.record (.unionCreated tags.length)
      return ⟨⟨← Run.freshObject, tags, h, hn⟩, rfl⟩) := by
  unfold create
  split
  · next e he => simp [clash?_eq_none_iff.2 ⟨h, hn⟩] at he
  · rfl

def misfits (vs : List Value) : List (Nat × Kind) :=
  vs.zipIdx.filterMap fun p => if p.1.tag?.isNone then some (p.2, p.1.kind) else none

/-- Makes a new union of values, each of which has to be a tag; all that are not are reported. -/
def ofValues (vs : List Value) : Run Union :=
  match misfits vs with
  | [] => Subtype.val <$> create (vs.filterMap Value.tag?)
  | found => throw (.notTags found)

end TaggedUnion.Union
