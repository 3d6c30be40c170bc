/-
Tags are nominal over whole runs. The tags that are made are numbered 0, 1, 2, ... in the order in which
they are made, and no other tag ever occurs in anything that a program gets hold of. So a tag is known by its number
alone: two tags are equal exactly if they were made together, whatever their names.
-/
import TaggedUnion.Proofs.Earliest
import TaggedUnion.Proofs.World.Courses
import TaggedUnion.Value.Equality

namespace TaggedUnion

open Script (Binding)

/-! ## The tags on record -/

/-- The tag that an event puts on record. -/
def Event.created? : Event → Option Tag
  | .recorded (.tagCreated t) => some t
  | _ => none

namespace History

/-- The tags on record, in the order in which they were made. -/
def created (h : History) : List Tag := h.events.toList.filterMap Event.created?

/-- Whether two tags come from one creation. -/
def SameCreation (h : History) (t t' : Tag) : Prop :=
  ∃ i : Nat, h.created[i]? = some t ∧ h.created[i]? = some t'

theorem created_noting (h : History) (e : Event) :
    (h.noting e).created = h.created ++ e.created?.toList := by
  simp only [created, noting, Array.toList_push, List.filterMap_append, List.filterMap_cons, List.filterMap_nil]
  cases e.created? <;> rfl

theorem created_noting_of_none {h : History} {e : Event} (none : e.created? = none) :
    (h.noting e).created = h.created := by
  rw [created_noting, none, Option.toList_none, List.append_nil]

/-- The history with a union of so many tags made. -/
def withUnion (h : History) (size : Nat) : History :=
  { h.noting (.recorded (.unionCreated size)) with objects := h.objects + 1 }

theorem created_withUnion (h : History) (size : Nat) : (h.withUnion size).created = h.created :=
  created_noting_of_none (e := .recorded (.unionCreated size)) rfl

theorem created_dispatch (h : History) (v : Value) (c : Switch.Choice) :
    ((h.noting (.recorded (c.record v))).noting (.called c.handler c.args)).created = h.created := by
  have record : (h.noting (.recorded (c.record v))).created = h.created :=
    created_noting_of_none (by cases c <;> rfl)
  exact (created_noting_of_none rfl).trans record

/-- Whether the tags on record are numbered in the order in which they were made, as allocations and in 64 bits. -/
structure Numbered (h : History) : Prop where
  idents : h.created.map Tag.ident = List.range h.tags
  ids : ∀ t ∈ h.created, t.id = .ofNat t.ident

variable {h : History} {t t' : Tag}

theorem Numbered.getElem?_created (numbered : h.Numbered) (made : t ∈ h.created) : h.created[t.ident]? = some t := by
  obtain ⟨i, hi⟩ := List.getElem?_of_mem made
  have number : (h.created.map Tag.ident)[i]? = some t.ident := by rw [List.getElem?_map, hi]; rfl
  rw [numbered.idents, List.getElem?_eq_some_iff] at number
  obtain ⟨_, number⟩ := number
  rw [List.getElem_range] at number
  rw [← number, hi]

theorem Numbered.ident_lt (numbered : h.Numbered) (made : t ∈ h.created) : t.ident < h.tags := by
  rw [← List.mem_range, ← numbered.idents]
  exact List.mem_map_of_mem made

theorem Numbered.eq_iff_ident_eq (numbered : h.Numbered) (made : t ∈ h.created) (made' : t' ∈ h.created) :
    t = t' ↔ t.ident = t'.ident := by
  constructor
  · exact fun same => congrArg Tag.ident same
  · intro same
    have here := numbered.getElem?_created made
    rw [same, numbered.getElem?_created made'] at here
    exact (Option.some.inj here).symm

/-- The number of a tag is the one it was made with, as long as 64 bits are enough. -/
theorem Numbered.toNat_id (numbered : h.Numbered) (few : h.tags ≤ UInt64.size) (made : t ∈ h.created) :
    t.id.toNat = t.ident := by
  have := numbered.ident_lt made
  rw [numbered.ids t made, UInt64.toNat_ofNat_of_lt' (by omega)]

theorem Numbered.eq_iff_id_eq (numbered : h.Numbered) (few : h.tags ≤ UInt64.size) (made : t ∈ h.created)
    (made' : t' ∈ h.created) : t = t' ↔ t.id = t'.id := by
  rw [numbered.eq_iff_ident_eq made made', ← UInt64.toNat_inj, numbered.toNat_id few made, numbered.toNat_id few made']

theorem Numbered.sameCreation_iff (numbered : h.Numbered) (made : t ∈ h.created) :
    h.SameCreation t t' ↔ t = t' := by
  constructor
  · rintro ⟨i, hi, hi'⟩
    exact Option.some.inj (hi.symm.trans hi')
  · rintro rfl
    exact ⟨t.ident, numbered.getElem?_created made, numbered.getElem?_created made⟩

end History

/-! ## Effects and runs -/

namespace World

variable {w w' : World}

/-- Whether a tag occurs, at any depth, in something that a program can have. -/
def Occurs (w : World) (t : Tag) : Prop := ∃ b, w.Has b ∧ .tag t ∈ b.objects

theorem occurs_iff {t : Tag} : w.Occurs t ↔ .tag t ∈ w.objects := by
  constructor
  · rintro ⟨b, has, mem⟩
    exact has mem
  · intro known
    exact ⟨.value (.tag t), List.cons_subset.2 ⟨known, List.nil_subset _⟩, List.mem_cons_self⟩

/-- One effect makes tags, and it makes one, with the next number; the others make no tag known. -/
theorem Effect.created (next : w.Effect w') :
    (∃ name, w'.history.created = w.history.created ++ [.nth w.history.tags name] ∧
      w'.history.tags = w.history.tags + 1 ∧ w'.objects = .tag (.nth w.history.tags name) :: w.objects) ∨
    (w'.history.created = w.history.created ∧ w'.history.tags = w.history.tags ∧
      ∀ t, .tag t ∈ w'.objects → .tag t ∈ w.objects) := by
  cases next with
  | tag name => exact .inl ⟨name, w.history.created_noting (.recorded (.tagCreated _)), rfl, rfl⟩
  | @union ts known nodup nodupNames =>
    refine .inr ⟨w.history.created_withUnion ts.length, rfl, fun t ht => ?_⟩
    exact (List.mem_cons.1 ht).resolve_left Object.noConfusion
  | tagged | function =>
    refine .inr ⟨rfl, rfl, fun t ht => ?_⟩
    exact (List.mem_cons.1 ht).resolve_left Object.noConfusion
  | @call c args known knownArgs =>
    exact .inr ⟨History.created_noting_of_none (e := .called c args) rfl, rfl, fun _ ht => ht⟩
  | @dispatch s v c known knownValue picked =>
    exact .inr ⟨w.history.created_dispatch v c, rfl, fun _ ht => ht⟩

/-- What every run keeps: the tags on record are numbered in order, and there are no others. -/
structure Nominal (w : World) : Prop where
  numbered : w.history.Numbered
  made : ∀ t, .tag t ∈ w.objects → t ∈ w.history.created

theorem nominal_start : Nominal {} := ⟨⟨rfl, fun _ ht => nomatch ht⟩, fun _ ht => nomatch ht⟩

theorem Effect.nominal (next : w.Effect w') (before : w.Nominal) : w'.Nominal := by
  obtain ⟨numbered, made⟩ := before
  rcases next.created with ⟨name, created, tags, objects⟩ | ⟨created, tags, objects⟩
  · refine ⟨⟨?_, fun t ht => ?_⟩, fun t ht => ?_⟩
    · rw [created, tags, List.map_append, numbered.idents, List.range_succ]
      rfl
    · rw [created, List.mem_append, List.mem_singleton] at ht
      rcases ht with ht | rfl
      exacts [numbered.ids t ht, rfl]
    · rw [created, List.mem_append, List.mem_singleton]
      rw [objects, List.mem_cons, Object.tag.injEq] at ht
      exact ht.symm.imp_left (made t)
  · refine ⟨?_, fun t ht => ?_⟩
    · exact ⟨by rw [created, tags, numbered.idents], by rw [created]; exact numbered.ids⟩
    · rw [created]
      exact made t (objects t ht)

theorem Leads.nominal (leads : w.Leads w') (before : w.Nominal) : w'.Nominal := by
  induction leads with
  | refl => exact before
  | tail _ next ih => exact next.nominal ih

/-- A tag on record stays there, with its number. -/
theorem Leads.created_extends (leads : w.Leads w') : w.history.created <+: w'.history.created := by
  induction leads with
  | refl => exact List.prefix_rfl
  | tail _ next ih =>
    rcases next.created with ⟨name, created, -⟩ | ⟨created, -⟩
    · exact created ▸ ih.trans (List.prefix_append _ _)
    · exact created ▸ ih

theorem Reachable.nominal (run : w.Reachable) : w.Nominal := by
  obtain ⟨os, leads, known⟩ := run.leads
  obtain ⟨numbered, made⟩ := leads.nominal nominal_start
  exact ⟨numbered, fun t ht => made t (known ht)⟩

theorem Step.created_extends (next : w.Step w') : w.history.created <+: w'.history.created := by
  obtain ⟨os, leads, -⟩ := next.leads (List.Subset.refl w.objects)
  exact leads.created_extends

end World

/-! ## Nominal tags -/

namespace World

variable {w : World}

/-- Tags are nominal over whole runs. The tags that are made get the numbers 0, 1, 2, ... in the order in which
they are made, and keep them; every tag that occurs anywhere is one of them as it was made. Two of them are
equal exactly if they are the same allocation, which is exactly if they come from one creation, whatever their names.
Their numbers in 64 bits, and so their hashes, tell up to `UInt64.size` of them apart. A set that is fed tags tells a
tag from those before it by its creation. -/
theorem Reachable.tags_nominal (run : w.Reachable) :
    w.history.created.map Tag.ident = List.range w.history.tags ∧
    (w.history.tags ≤ UInt64.size → w.history.created.map (fun t => t.id.toNat) = List.range w.history.tags ∧
      ∀ t, w.Occurs t → t.id.toNat < w.history.tags) ∧
    (∀ name, ∃ t h, Tag.create name w.history = .ok t h ∧ t.1 = .nth w.history.tags name ∧
      h.created = w.history.created ++ [t.1] ∧ h.tags = w.history.tags + 1) ∧
    (∀ w', w.Step w' → w.history.created <+: w'.history.created) ∧
    (∀ t, w.Occurs t → t.ident < w.history.tags ∧ w.history.created[t.ident]? = some t ∧ t.id = .ofNat t.ident) ∧
    (∀ t t', w.Occurs t → w.Occurs t' → (t = t' ↔ t.same t' = true) ∧ (t = t' ↔ t.ident = t'.ident) ∧
      (t.ident = t'.ident ↔ w.history.SameCreation t t') ∧
      ((Value.tag t == .tag t') = true ↔ w.history.SameCreation t t')) ∧
    (w.history.tags ≤ UInt64.size → ∀ t t', w.Occurs t → w.Occurs t' →
      (t = t' ↔ t.id = t'.id) ∧ (hash t = hash t' ↔ t = t')) ∧
    (∀ ts : List Tag, (∀ t ∈ ts, w.Occurs t) →
      (∀ (i : Nat) t, ts[i]? = some t → ((newcomers ts)[i]? = some true ↔
        ∀ j < i, ∀ t', ts[j]? = some t' → ¬ w.history.SameCreation t' t)) ∧
      (w.history.tags ≤ UInt64.size → newcomers (ts.map hash) = newcomers ts)) := by
  obtain ⟨numbered, made⟩ := run.nominal
  replace made : ∀ t, w.Occurs t → t ∈ w.history.created := fun t ht => made t (occurs_iff.1 ht)
  have told : w.history.tags ≤ UInt64.size → ∀ t t', w.Occurs t → w.Occurs t' → (t = t' ↔ t.id = t'.id) :=
    fun few t t' ht ht' => numbered.eq_iff_id_eq few (made t ht) (made t' ht')
  refine ⟨numbered.idents, fun few => ?_, fun name => ?_, fun w' next => next.created_extends, fun t ht => ?_,
    fun t t' ht ht' => ?_, fun few t t' ht ht' => ⟨told few t t' ht ht', (told few t t' ht ht').symm⟩,
    fun ts hts => ⟨fun i t hi => ?_, fun few => ?_⟩⟩
  · rw [← numbered.idents]
    refine ⟨List.map_congr_left fun t ht => numbered.toNat_id few ht, fun t ht => ?_⟩
    rw [numbered.toNat_id few (made t ht)]
    exact numbered.ident_lt (made t ht)
  · exact ⟨_, _, rfl, rfl, w.history.created_noting (.recorded (.tagCreated _)), rfl⟩
  · exact ⟨numbered.ident_lt (made t ht), numbered.getElem?_created (made t ht), numbered.ids t (made t ht)⟩
  · have equal := numbered.eq_iff_ident_eq (made t ht) (made t' ht')
    have same : t.same t' = true ↔ t.ident = t'.ident := beq_iff_eq
    have together : t.ident = t'.ident ↔ w.history.SameCreation t t' :=
      equal.symm.trans (numbered.sameCreation_iff (made t ht)).symm
    exact ⟨equal.trans same.symm, equal, together, same.trans together⟩
  · rw [getElem?_newcomers, hi, Option.map_some, Option.some.injEq, decide_eq_true_eq]
    constructor
    · intro new j hj t' ht' same
      have here := (numbered.sameCreation_iff (made t' (hts t' (List.mem_of_getElem? ht')))).1 same
      exact new (List.mem_iff_getElem?.2 ⟨j, by rw [List.getElem?_take_of_lt hj, ht', here]⟩)
    · intro apart old
      obtain ⟨j, hj⟩ := List.getElem?_of_mem old
      rw [List.getElem?_take] at hj
      split at hj
      · next earlier =>
        exact apart j earlier t hj ((numbered.sameCreation_iff (made t (hts t (List.mem_of_getElem? hi)))).2 rfl)
      · cases hj
  · exact newcomers_map fun t ht t' ht' same => (told few t t' (hts t ht) (hts t' ht')).2 same

/-- One of several tags of one name. -/
def twin (i : Nat) : Tag := .nth i (some "X")

/-- The world after two tags of one name, a named union of that name twice, which cannot be, and a value
in which the second tag wraps the first. -/
def twins : World where
  history := ⟨4, 1, #[.recorded (.tagCreated (twin 0)), .recorded (.tagCreated (twin 1)),
    .recorded (.tagCreated (twin 2)), .recorded (.tagCreated (twin 3))]⟩
  objects := [.tag (twin 0), .tag (twin 1), .tagged ⟨0, twin 1, [.tag (twin 0)]⟩, .tag (twin 1), .tag (twin 0)]

theorem twins_reachable : twins.Reachable := by
  have first := Reachable.start.step (.result (.tag (some "X")) (by simp [Operation.operands]) fun _ => rfl)
  have second := first.step (.result (.tag (some "X")) (by simp [Operation.operands]) fun _ => rfl)
  have clash : Union.clash? [twin 2, twin 3] = some (.repeatedName "X") := by
    rw [Union.clash?, firstRepeat?_eq_none_iff.2 (by decide)]
    simp [twin, Tag.nth, firstRepeat?, firstRepeatIn?]
  let two : History := ⟨2, 0, #[.recorded (.tagCreated (twin 0)), .recorded (.tagCreated (twin 1))]⟩
  have fault : NamedUnion.create ["X", "X"] two = .error (.repeatedName "X") ⟨4, 0, twins.history.events⟩ := by
    have free : (["X", "X"].find? fun name => decide (name ∈ NamedUnion.reserved)) = none := by decide
    have made : Tag.createAll ["X", "X"] two =
        .ok ⟨[twin 2, twin 3], rfl⟩ ⟨4, 0, twins.history.events⟩ := rfl
    rw [NamedUnion.create, free]
    simp only [Run.bind_apply, made, Union.create_of_clash clash]
    rfl
  have third := second.step (.failure (.named ["X", "X"]) (by simp [Operation.operands])
    fun host => Run.map_apply_of_error fault Binding.named)
  exact third.step (.result (.wrap (twin 1) [.tag (twin 0)])
    (by simp [Operation.operands, Has, Binding.objects, Value.objects, twin]) fun _ => rfl)

theorem tags_nominal_twins : twins.Reachable ∧
    twins.history.created.map Tag.ident = List.range 4 ∧
    (∀ t, twins.Occurs t → t.ident < 4 ∧ twins.history.created[t.ident]? = some t ∧ t.id = .ofNat t.ident) ∧
    twins.Occurs (twin 0) ∧ twins.Occurs (twin 1) ∧ ¬ twins.history.SameCreation (twin 0) (twin 1) ∧
    hash (twin 0) ≠ hash (twin 1) ∧
    newcomers ([twin 1, twin 0, twin 1].map hash) = newcomers [twin 1, twin 0, twin 1] := by
  obtain ⟨numbered, -, -, -, made, same, told, sets⟩ := Reachable.tags_nominal twins_reachable
  have few : twins.history.tags ≤ UInt64.size := by decide
  have zero : twins.Occurs (twin 0) := occurs_iff.2 (by simp [twins])
  have one : twins.Occurs (twin 1) := occurs_iff.2 (by simp [twins])
  refine ⟨twins_reachable, numbered, made, zero, one, ?_, ?_, (sets _ ?_).2 few⟩
  · exact fun together => absurd ((same _ _ zero one).2.2.1.2 together) (by decide)
  · exact fun collide => absurd ((told few _ _ zero one).2.1 collide) (by decide)
  · simp [zero, one]

end World

end TaggedUnion
