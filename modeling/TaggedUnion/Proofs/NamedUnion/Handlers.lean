/-
Handlers by name. A name belongs to one member at most, so the handlers under the names of members are
the cases of a switch over some of the members, none of them twice; and which handler a member gets does
not depend on the order of the handlers.
-/
import TaggedUnion.NamedUnion
import TaggedUnion.Proofs.Union.Coverage
import TaggedUnion.Proofs.Value.Entries
import Mathlib.Data.List.Pairwise

namespace TaggedUnion

/-! ## Names of members -/

/-- Two members of one name are the same. -/
theorem Union.eq_of_name_eq (u : Union) {t t' : Tag} {name : String} (ht : t ∈ u.tags) (ht' : t' ∈ u.tags)
    (h : t.name = some name) (h' : t'.name = some name) : t = t' := by
  by_contra apart
  -- names are distinct in one order of the two members, and so in both
  have distinct := List.pairwise_filterMap.1 u.nodup_names
  have : Std.Symm fun a b : Tag => ∀ x, a.name = some x → ∀ y, b.name = some y → x ≠ y :=
    ⟨fun a b hab x hx y hy => Ne.symm (hab y hy x hx)⟩
  exact distinct.forall ht ht' apart name h name h' rfl

namespace NamedUnion

variable {n : NamedUnion}

theorem mem_names_iff {name : String} : name ∈ n.names ↔ ∃ t ∈ n.union.tags, t.name = some name := by
  simp [names, Union.names]

theorem names_members (n : NamedUnion) : (n.union.tags.filterMap Tag.entry?).map Prod.fst = n.names := by
  rw [List.map_filterMap]
  refine List.filterMap_congr fun t _ => ?_
  rw [Tag.entry?, Option.map_map]
  exact Option.map_id'

/-- The members stand in the map in the order of the union. -/
theorem members_eq_filterMap (n : NamedUnion) : n.members = n.union.tags.filterMap Tag.entry? := by
  rw [n.members_eq, Union.byName, Entries.Distinct.ofList_eq]
  rw [Entries.Distinct, names_members]
  exact n.union.nodup_names

theorem map_fst_members (n : NamedUnion) : n.members.map Prod.fst = n.names := by
  rw [members_eq_filterMap, names_members]

theorem mem_members_iff {name : String} {t : Tag} :
    (name, t) ∈ n.members ↔ t ∈ n.union.tags ∧ t.name = some name := by
  rw [members_eq_filterMap, List.mem_filterMap]
  constructor
  · rintro ⟨t', ht', entry⟩
    obtain ⟨name', hname, same⟩ := Option.map_eq_some_iff.1 entry
    cases same
    exact ⟨ht', hname⟩
  · rintro ⟨ht, hname⟩
    exact ⟨t, ht, by rw [Tag.entry?, hname]; rfl⟩

/-- A name finds the member that has it. -/
theorem get?_eq_some_iff {name : String} {t : Tag} :
    n.get? name = some t ↔ t ∈ n.union.tags ∧ t.name = some name := by
  have distinct : n.members.Distinct := by
    rw [Entries.Distinct, map_fst_members]
    exact n.union.nodup_names
  rw [get?, Entries.lookup_eq_some_iff_mem distinct, mem_members_iff]

theorem contains_members_iff {name : String} : n.members.contains name = true ↔ name ∈ n.names := by
  rw [Entries.contains, Entries.isSome_lookup_iff, map_fst_members]

theorem get?_eq_none_iff {name : String} : n.get? name = none ↔ name ∉ n.names := by
  rw [get?, ← Option.not_isSome_iff_eq_none, Entries.isSome_lookup_iff, map_fst_members]

theorem index_eq_ok_iff {name : String} {t : Tag} : n.index name = .ok t ↔ n.get? name = some t := by
  rw [index]
  cases n.get? name <;> simp

theorem index_of_not_mem {name : String} (stranger : name ∉ n.names) : n.index name = .error ⟨n.union, name⟩ := by
  rw [index, get?_eq_none_iff.2 stranger]

/-! ## Callable entries -/

def callableEntries (es : Entries Value) : Entries Callable :=
  es.filterMap fun e => e.2.callable?.map fun handler => (e.1, handler)

theorem mem_callableEntries {es : Entries Value} {name : String} {handler : Callable} :
    (name, handler) ∈ callableEntries es ↔ ∃ v, (name, v) ∈ es ∧ v.callable? = some handler := by
  simp [callableEntries]

/-- The entries are checked one after another, and the first that cannot be called is reported. -/
theorem callables_eq (es : Entries Value) :
    callables es = match es.find? fun e => e.2.callable?.isNone with
      | some e => .error (.handlerNotCallable e.1 e.2.kind)
      | none => .ok (callableEntries es) := by
  induction es with
  | nil => rfl
  | cons e es ih =>
    obtain ⟨name, v⟩ := e
    rw [callables, List.find?_cons]
    cases h : v.callable? with
    | none => rfl
    | some handler =>
      simp only [ih, Option.isNone_some]
      cases es.find? fun e => e.2.callable?.isNone with
      | some e => rfl
      | none =>
        rw [callableEntries, callableEntries, List.filterMap_cons, h]
        rfl

theorem map_fst_callableEntries {es : Entries Value} (callable : ∀ e ∈ es, e.2.callable?.isSome) :
    (callableEntries es).map Prod.fst = es.map Prod.fst := by
  induction es with
  | nil => rfl
  | cons e es ih =>
    obtain ⟨handler, h⟩ := Option.isSome_iff_exists.1 (callable e List.mem_cons_self)
    have rest := ih fun e' he' => callable e' (List.mem_cons_of_mem _ he')
    rw [List.map_cons, ← rest, callableEntries, List.filterMap_cons, h]
    rfl

theorem distinct_callableEntries {es : Entries Value} (distinct : es.Distinct) :
    (callableEntries es).Distinct := by
  refine Entries.nodup_map_filterMap distinct fun e _ e' _ a ha b hb same => ?_
  obtain ⟨handler, -, rfl⟩ := Option.map_eq_some_iff.1 ha
  obtain ⟨handler', -, rfl⟩ := Option.map_eq_some_iff.1 hb
  exact same

/-! ## The catch-all -/

/-- The catch-all that is given; nothing stands for none. -/
def given (otherwise : Option Value) : Option Value := otherwise.filter fun v => !v.isNothing

theorem catchAllOf_eq (otherwise : Option Value) :
    catchAllOf otherwise = match given otherwise with
      | none => .ok none
      | some v =>
        match v.callable? with
        | some handler => .ok (some handler)
        | none => .error (.otherwiseNotCallable v.kind) := by
  cases otherwise with
  | none => rfl
  | some v =>
    rw [catchAllOf, given, Option.filter_some]
    cases v.isNothing <;> rfl

theorem eq_bind_given {otherwise : Option Value} {o : Option Callable} (meant : catchAllOf otherwise = .ok o) :
    o = (given otherwise).bind Value.callable? := by
  rw [catchAllOf_eq] at meant
  cases present : given otherwise with
  | none =>
    rw [present] at meant
    cases meant
    rfl
  | some v =>
    simp only [present] at meant
    cases callable : v.callable? with
    | none => rw [callable] at meant; cases meant
    | some handler =>
      rw [callable] at meant
      cases meant
      exact callable.symm

/-! ## The cases of the members -/

theorem mem_casesOf {handlers : Entries Callable} {t : Tag} {handler : Callable} :
    (t, handler) ∈ n.casesOf handlers ↔
      t ∈ n.union.tags ∧ ∃ name, t.name = some name ∧ handlers.lookup name = some handler := by
  unfold casesOf
  rw [List.mem_filterMap]
  constructor
  · rintro ⟨t', ht', h⟩
    obtain ⟨name, hname, h⟩ := Option.bind_eq_some_iff.1 h
    obtain ⟨handler', hlookup, h⟩ := Option.bind_eq_some_iff.1 h
    cases h
    exact ⟨ht', name, hname, hlookup⟩
  · rintro ⟨ht, name, hname, hlookup⟩
    refine ⟨t, ht, Option.bind_eq_some_iff.2 ⟨name, hname, ?_⟩⟩
    exact Option.bind_eq_some_iff.2 ⟨handler, hlookup, rfl⟩

/-- The members with a handler are listed in the order of the union. -/
theorem map_fst_casesOf_sublist (handlers : Entries Callable) :
    ((n.casesOf handlers).map Prod.fst).Sublist n.union.tags := by
  unfold casesOf
  induction n.union.tags with
  | nil => exact .slnil
  | cons t ts ih =>
    rw [List.filterMap_cons]
    split
    · exact ih.cons t
    · next c h =>
      obtain ⟨name, -, h⟩ := Option.bind_eq_some_iff.1 h
      obtain ⟨handler, -, h⟩ := Option.bind_eq_some_iff.1 h
      cases h
      exact ih.cons_cons t

/-! ## The switch of the handlers -/

/-- The switch with the case of every member whose name has a handler, and the catch-all that is given. -/
def switchFor (n : NamedUnion) (es : Entries Value) (otherwise : Option Value) : Switch :=
  ⟨n.casesOf (callableEntries es.byName), (given otherwise).bind Value.callable?⟩

variable {es : Entries Value} {otherwise : Option Value}

/-- A switch that comes out of handlers by name is the one for the entries of the map. -/
theorem eq_switchFor_of_switchOf {handlers : Value} {s : Switch} (made : n.switchOf handlers otherwise = .ok s) :
    ∃ es, handlers.map? = some es ∧ s = n.switchFor es otherwise := by
  unfold switchOf at made
  cases map : handlers.map? with
  | none => rw [map] at made; cases made
  | some es =>
    rw [map] at made
    simp only [callables_eq] at made
    cases bad : es.byName.find? fun e => e.2.callable?.isNone with
    | some e => rw [bad] at made; cases made
    | none =>
      rw [bad] at made
      cases catchAll : catchAllOf otherwise with
      | error e => rw [catchAll] at made; cases made
      | ok o =>
        rw [catchAll] at made
        refine ⟨es, rfl, ?_⟩
        rw [switchFor, ← eq_bind_given catchAll]
        cases stray : (callableEntries es.byName).find? fun e => !n.members.contains e.1 with
        | some e => simp only [bind, Except.bind, stray] at made; cases made
        | none => simp only [bind, Except.bind, stray] at made; cases made; rfl

theorem nodup_tags_switchFor : (n.switchFor es otherwise).tags.Nodup :=
  (map_fst_casesOf_sublist _).nodup n.union.nodup_tags

theorem tags_switchFor_subset : (n.switchFor es otherwise).tags ⊆ n.union.tags :=
  (map_fst_casesOf_sublist _).subset

/-- The case of a member is the handler under its name. -/
theorem mem_cases_switchFor (distinct : es.Distinct) {t : Tag} {handler : Callable} :
    (t, handler) ∈ (n.switchFor es otherwise).cases ↔ t ∈ n.union.tags ∧
      ∃ name v, t.name = some name ∧ (name, v) ∈ es ∧ v.callable? = some handler := by
  have distinct' := distinct_callableEntries (distinct.of_perm es.byName_perm.symm)
  simp only [switchFor, mem_casesOf, Entries.lookup_eq_some_iff_mem distinct', mem_callableEntries,
    Entries.mem_byName]
  exact and_congr_right fun _ => exists_congr fun name => exists_and_left.symm

/-- Where all handlers can be called, the members with a case are those whose name has a handler. -/
theorem mem_tags_switchFor (distinct : es.Distinct) (callable : ∀ e ∈ es, e.2.callable?.isSome) {t : Tag} :
    t ∈ (n.switchFor es otherwise).tags ↔
      t ∈ n.union.tags ∧ ∃ name, t.name = some name ∧ name ∈ es.map Prod.fst := by
  constructor
  · intro ht
    obtain ⟨⟨t, handler⟩, hc, rfl⟩ := List.mem_map.1 ht
    obtain ⟨member, name, v, hname, mem, -⟩ := (mem_cases_switchFor distinct).1 hc
    exact ⟨member, name, hname, List.mem_map_of_mem mem⟩
  · rintro ⟨member, name, hname, mem⟩
    obtain ⟨e, he, rfl⟩ := List.mem_map.1 mem
    obtain ⟨handler, hv⟩ := Option.isSome_iff_exists.1 (callable e he)
    exact List.mem_map.2 ⟨(t, handler), (mem_cases_switchFor distinct).2 ⟨member, e.1, e.2, hname, he, hv⟩, rfl⟩

theorem tags_subset_switchFor_iff (distinct : es.Distinct) (callable : ∀ e ∈ es, e.2.callable?.isSome) :
    n.union.tags ⊆ (n.switchFor es otherwise).tags ↔ n.names ⊆ es.map Prod.fst := by
  constructor
  · intro full name hname
    obtain ⟨t, ht, hname⟩ := mem_names_iff.1 hname
    obtain ⟨-, name', hname', mem⟩ := (mem_tags_switchFor distinct callable).1 (full ht)
    rw [hname] at hname'
    exact Option.some.inj hname' ▸ mem
  · intro full t ht
    obtain ⟨name, hname⟩ := Option.isSome_iff_exists.1 (n.named t ht)
    exact (mem_tags_switchFor distinct callable).2 ⟨ht, name, hname, full (mem_names_iff.2 ⟨t, ht, hname⟩)⟩

end NamedUnion

end TaggedUnion
