/-
Making unions of values. What is wrong with the values is found in this order: all of them that are no tags, the
first tag that repeats an earlier one, the first tag whose name an earlier one has as well. Everything else makes a
union of the tags as they come. A tag without a name never clashes with another by name, not even with one that is
named as the other is displayed.
-/
import TaggedUnion.Proofs.Earliest
import TaggedUnion.Proofs.History
import TaggedUnion.Proofs.Switch.Clauses
import TaggedUnion.Union.Create
import Mathlib.Data.List.Nodup
import Mathlib.Data.Set.List

namespace TaggedUnion.Union

variable {vs : List Value} {ts : List Tag} {h : History} {e : Error}

/-! ## Misfits -/

theorem mem_misfits_iff {i : Nat} {k : Kind} :
    (i, k) ∈ misfits vs ↔ ∃ v, vs[i]? = some v ∧ v.tag? = none ∧ v.kind = k := by
  simp only [misfits, List.mem_filterMap, Prod.exists, List.mem_zipIdx_iff_getElem?, Option.ite_none_right_eq_some,
    Option.isNone_iff_eq_none, Option.some.injEq, Prod.mk.injEq]
  constructor
  · rintro ⟨v, j, hv, noTag, rfl, kind⟩
    exact ⟨v, hv, noTag, kind⟩
  · rintro ⟨v, hv, noTag, kind⟩
    exact ⟨v, i, hv, noTag, rfl, kind⟩

theorem pairwise_misfits (vs : List Value) : (misfits vs).Pairwise fun p q => p.1 < q.1 := by
  have ascending : vs.zipIdx.Pairwise fun p q => p.2 < q.2 := by
    have indices : (vs.zipIdx.map Prod.snd).Pairwise (· < ·) := by
      rw [List.zipIdx_map_snd]
      exact List.pairwise_lt_range'
    exact List.pairwise_map.1 indices
  rw [misfits, List.pairwise_filterMap]
  refine ascending.imp fun lt p hp q hq => ?_
  simp only [Option.ite_none_right_eq_some, Option.some.injEq] at hp hq
  rw [← hp.2, ← hq.2]
  exact lt

/-- The values that are no tags are the only list of them in ascending order. -/
theorem eq_misfits {found : List (Nat × Kind)} (ascending : found.Pairwise fun p q => p.1 < q.1)
    (exact : ∀ i k, (i, k) ∈ found ↔ ∃ v, vs[i]? = some v ∧ v.tag? = none ∧ v.kind = k) : found = misfits vs := by
  have nodup : ∀ {l : List (Nat × Kind)}, (l.Pairwise fun p q => p.1 < q.1) → l.Nodup := fun sorted =>
    sorted.imp fun lt same => absurd lt (by rw [same]; exact Nat.lt_irrefl _)
  have perm : found.Perm (misfits vs) := by
    refine (List.perm_ext_iff_of_nodup (nodup ascending) (nodup (pairwise_misfits vs))).2 fun p => ?_
    rw [exact, mem_misfits_iff]
  refine perm.eq_of_pairwise (fun p q _ _ lt gt => ?_) ascending (pairwise_misfits vs)
  exact absurd (Nat.lt_trans lt gt) (Nat.lt_irrefl _)

theorem filterMap_tag?_map_tag (ts : List Tag) : (ts.map Value.tag).filterMap Value.tag? = ts := by
  simp [List.filterMap_map, Function.comp_def, Value.tag?]

theorem misfits_map_tag (ts : List Tag) : misfits (ts.map .tag) = [] := by
  refine List.eq_nil_iff_forall_not_mem.2 fun p hp => ?_
  obtain ⟨v, hv, noTag, -⟩ := mem_misfits_iff.1 hp
  obtain ⟨t, -, rfl⟩ := List.mem_map.1 (List.mem_of_getElem? hv)
  cases noTag

theorem exists_tags_of_misfits_eq_nil (none : misfits vs = []) : ∃ ts : List Tag, vs = ts.map .tag := by
  have tags : ∀ v ∈ vs, ∃ t, Value.tag t = v := by
    intro v hv
    obtain ⟨i, hi⟩ := List.getElem?_of_mem hv
    cases tag : v.tag? with
    | some t => exact ⟨t, (Value.tag?_eq_some_iff.1 tag).symm⟩
    | none =>
      have misfit := mem_misfits_iff.2 ⟨v, hi, tag, rfl⟩
      rw [none] at misfit
      cases misfit
  obtain ⟨ts, rfl⟩ : vs ∈ Set.range (List.map Value.tag) := by rwa [Set.range_list_map]
  exact ⟨ts, rfl⟩

/-! ## Faults -/

/-- What is wrong with values as the members of a union: the fault that comes first in the order of the stages, with
what is to blame for it. -/
inductive MembersFault (vs : List Value) : Error → Prop where
  /-- All places at which there is no tag, in ascending order, each with the kind of what is there. -/
  | notTags {found : List (Nat × Kind)} (some : found ≠ []) (ascending : found.Pairwise fun p q => p.1 < q.1)
      (exact : ∀ i k, (i, k) ∈ found ↔ ∃ v, vs[i]? = .some v ∧ v.tag? = none ∧ v.kind = k) :
      MembersFault vs (.notTags found)
  /-- The earliest tag that is in front of itself, whatever the names are. -/
  | repeatedTag {ts : List Tag} {i : Nat} {t : Tag} (tags : vs = ts.map .tag)
      (first : IsLeast {i | RepeatsAt ts i} i) (here : ts[i]? = some t) : MembersFault vs (.repeatedTag t)
  /-- The name of the earliest tag with a name that a tag in front of it has as well. -/
  | repeatedName {ts : List Tag} {i : Nat} {t : Tag} {name : String} (tags : vs = ts.map .tag) (nodup : ts.Nodup)
      (first : IsLeast {i | KeyRepeatsAt Tag.name ts i} i) (here : ts[i]? = some t) (named : t.name = some name) :
      MembersFault vs (.repeatedName name)

theorem ofValues_map_tag (ts : List Tag) : ofValues (ts.map .tag) = Subtype.val <$> create ts := by
  rw [ofValues, misfits_map_tag]
  exact congrArg (fun ts => (Subtype.val <$> create ts : Run Union)) (filterMap_tag?_map_tag ts)

theorem ofValues_of_clash (clash : clash? ts = some e) : ofValues (ts.map .tag) = throw e := by
  rw [ofValues_map_tag, create_of_clash clash]
  rfl

theorem ofValues_of_fault (fault : MembersFault vs e) : ofValues vs = throw e := by
  cases fault with
  | notTags some ascending exact =>
    rw [eq_misfits ascending exact] at some ⊢
    unfold ofValues
    split
    · contradiction
    · rfl
  | repeatedTag tags first here =>
    subst tags
    exact ofValues_of_clash (by rw [clash?, firstRepeat?_eq_some_iff.2 ⟨_, first, here⟩])
  | repeatedName tags nodup first here named =>
    subst tags
    refine ofValues_of_clash ?_
    rw [clash?, firstRepeat?_eq_none_iff.2 nodup,
      firstRepeat?_filterMap_eq_some_iff.2 ⟨_, first, by rw [here]; exact named⟩]
    rfl

theorem fault_of_clash (clash : clash? ts = some e) : MembersFault (ts.map .tag) e := by
  unfold clash? at clash
  split at clash
  · next t repeated =>
    cases clash
    obtain ⟨i, first, here⟩ := firstRepeat?_eq_some_iff.1 repeated
    exact .repeatedTag rfl first here
  · next distinct =>
    obtain ⟨name, repeated, rfl⟩ := Option.map_eq_some_iff.1 clash
    obtain ⟨i, first, here⟩ := firstRepeat?_filterMap_eq_some_iff.1 repeated
    obtain ⟨t, here, named⟩ := Option.bind_eq_some_iff.1 here
    exact .repeatedName rfl (firstRepeat?_eq_none_iff.1 distinct) first here named

/-- Values have a fault as members of a union, or they are tags that do not clash. -/
theorem fault_or_tags (vs : List Value) :
    (∃ e, MembersFault vs e) ∨ ∃ ts : List Tag, vs = ts.map .tag ∧ ts.Nodup ∧ (ts.filterMap Tag.name).Nodup := by
  by_cases none : misfits vs = []
  · obtain ⟨ts, rfl⟩ := exists_tags_of_misfits_eq_nil none
    cases clash : clash? ts with
    | some e => exact .inl ⟨e, fault_of_clash clash⟩
    | none => exact .inr ⟨ts, rfl, clash?_eq_none_iff.1 clash⟩
  · exact .inl ⟨_, .notTags none (pairwise_misfits vs) fun _ _ => mem_misfits_iff⟩

theorem ofValues_of_valid (nodup : ts.Nodup) (nodupNames : (ts.filterMap Tag.name).Nodup) (h : History) :
    ∃ u h', ofValues (ts.map .tag) h = .ok u h' ∧ u.tags = ts := by
  rw [ofValues_map_tag, create_of_valid nodup nodupNames]
  exact ⟨_, _, rfl, rfl⟩

/-- The names of tags are distinct if no tag has the name of a later one. -/
theorem nodup_filterMap_name_iff :
    (ts.filterMap Tag.name).Nodup ↔ ts.Pairwise fun t t' => ∀ name, t.name = some name → t'.name ≠ some name := by
  rw [List.Nodup, List.pairwise_filterMap]
  refine iff_of_eq (congrArg (List.Pairwise · ts) ?_)
  funext t t'
  refine propext ⟨fun apart name hn hn' => apart name hn name hn' rfl, fun apart name hn name' hn' same => ?_⟩
  exact apart name hn (same ▸ hn')

theorem exists_ofValues_eq_ok_iff : (∃ u h', ofValues vs h = .ok u h') ↔
    ∃ ts : List Tag, vs = ts.map .tag ∧ ts.Nodup ∧
      ts.Pairwise fun t t' => ∀ name, t.name = some name → t'.name ≠ some name := by
  simp only [← nodup_filterMap_name_iff]
  constructor
  · rintro ⟨u, h', made⟩
    rcases fault_or_tags vs with ⟨e, fault⟩ | valid
    · rw [ofValues_of_fault fault] at made
      cases made
    · exact valid
  · rintro ⟨ts, rfl, nodup, nodupNames⟩
    obtain ⟨u, h', made, -⟩ := ofValues_of_valid nodup nodupNames h
    exact ⟨u, h', made⟩

/-- Values make a union exactly if they are distinct tags that share no name, and then its members are these tags in
order. Otherwise the first fault is reported, in these words, and nothing has been made. Tags without a name do not
clash with each other, nor with a tag of whatever name. -/
theorem ofValues_makes_union [Text.Glyphs] (vs : List Value) (h : History) :
    (∀ e h', ofValues vs h = .error e h' ↔ MembersFault vs e ∧ h' = h) ∧
    ((¬ ∃ e, MembersFault vs e) → ∃ u h', ofValues vs h = .ok u h' ∧ u.tags.map .tag = vs) ∧
    ((∃ u h', ofValues vs h = .ok u h') ↔ ∃ ts : List Tag, vs = ts.map .tag ∧ ts.Nodup ∧
      ts.Pairwise fun t t' => ∀ name, t.name = some name → t'.name ≠ some name) ∧
    (∀ (before after : List Tag) t, (before ++ t :: after).Nodup → (∀ a ∈ before ++ after, a.name = none) →
      ∃ u h', ofValues ((before ++ t :: after).map .tag) h = .ok u h') ∧
    (∀ found, (Error.notTags found).message = "invalid argument: " ++
      ("Invalid Tag at position" ++ (if 1 < found.length then "s" else "") ++ " " ++
        ", ".intercalate (found.map fun p => toString p.1) ++ ": got " ++
        ", ".intercalate (found.map fun p => p.2.name))) ∧
    (∀ t, (Error.repeatedTag t).message =
      "duplicate definition: " ++ ("Duplicate Tag " ++ t.display ++ " in union")) ∧
    (∀ name, (Error.repeatedName name).message =
      "duplicate definition: " ++ ("Two Tags in the union have the display name " ++ Text.quoted name)) := by
  have outcome := fault_or_tags vs
  refine ⟨fun e h' => ⟨fun failed => ?_, ?_⟩, fun noFault => ?_, exists_ofValues_eq_ok_iff,
    fun before after t nodup anonymous => ?_, fun found => rfl, fun t => rfl, fun name => rfl⟩
  · rcases outcome with ⟨e', fault⟩ | ⟨ts, rfl, nodup, nodupNames⟩
    · rw [ofValues_of_fault fault] at failed
      cases failed
      exact ⟨fault, rfl⟩
    · obtain ⟨u, h'', made, -⟩ := ofValues_of_valid nodup nodupNames h
      rw [made] at failed
      cases failed
  · rintro ⟨fault, rfl⟩
    rw [ofValues_of_fault fault]
    rfl
  · obtain ⟨ts, rfl, nodup, nodupNames⟩ := outcome.resolve_left noFault
    obtain ⟨u, h', made, tags⟩ := ofValues_of_valid nodup nodupNames h
    exact ⟨u, h', made, by rw [tags]⟩
  · have names : ∀ l : List Tag, (∀ a ∈ l, a.name = none) → l.filterMap Tag.name = [] := fun l none =>
      List.filterMap_eq_nil_iff.2 none
    have single : ((before ++ t :: after).filterMap Tag.name).Nodup := by
      rw [List.filterMap_append, List.filterMap_cons, names before fun a ha => anonymous a (List.mem_append_left _ ha),
        names after fun a ha => anonymous a (List.mem_append_right _ ha)]
      cases t.name <;> simp
    obtain ⟨u, h', made, -⟩ := ofValues_of_valid nodup single h
    exact ⟨u, h', made⟩

/-- A name may be what a tag without a name is displayed as. -/
example : (Tag.nth 0 none).display = "Tag#0" ∧ clash? [.nth 0 none, .nth 1 (some "Tag#0"), .nth 2 none] = none := by
  decide

end TaggedUnion.Union
