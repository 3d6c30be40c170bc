/-
Equal values are written alike. Neither equality nor the text of a value sees the order of entries, so equal values have
one text, unless the two disagree about a number: the zeros are equal and are written differently. Objects are compared
by their identity and written from their contents, so this takes a world, in which one identity belongs to one object.
-/
import TaggedUnion.Proofs.Text.Quoted
import TaggedUnion.Proofs.Value.Equality
import TaggedUnion.Proofs.Value.Text
import TaggedUnion.Proofs.World.Identity

namespace TaggedUnion

/-! ## Zeros -/

namespace Binary64

def zero : Binary64 := ofMagnitude false 0

def negativeZero : Binary64 := ofMagnitude true 0

variable {x y : Binary64}

theorem eq_zero_or_eq_negativeZero (h : x.isZero = true) : x = zero ∨ x = negativeZero := by
  obtain ⟨bits⟩ := x
  have bound : bits.toNat < 2 ^ 64 := bits.toNat_lt
  have magnitude : bits.toNat % 2 ^ 63 = 0 := by simpa [isZero, magnitude] using h
  rcases (by omega : bits.toNat = 0 ∨ bits.toNat = 2 ^ 63) with sign | sign
  · exact .inl (congrArg mk (UInt64.toNat_inj.1 sign))
  · exact .inr (congrArg mk (UInt64.toNat_inj.1 sign))

/-- Equal numbers are the same number, unless they are the two zeros. -/
theorem eq_or_zeros_of_beq (equal : (x == y) = true) :
    x = y ∨ x = zero ∧ y = negativeZero ∨ x = negativeZero ∧ y = zero := by
  obtain ⟨-, -, same | ⟨hx, hy⟩⟩ := beq_iff.1 equal
  · exact .inl same
  · rcases eq_zero_or_eq_negativeZero hx with rfl | rfl <;> rcases eq_zero_or_eq_negativeZero hy with rfl | rfl
    exacts [.inl rfl, .inr (.inl ⟨rfl, rfl⟩), .inr (.inr ⟨rfl, rfl⟩), .inl rfl]

theorem eq_of_beq_of_ne_negativeZero (equal : (x == y) = true) (hx : x ≠ negativeZero) (hy : y ≠ negativeZero) :
    x = y := by
  rcases eq_or_zeros_of_beq equal with same | ⟨-, rfl⟩ | ⟨rfl, -⟩
  exacts [same, absurd rfl hy, absurd rfl hx]

theorem display_zero_ne : zero.display ≠ negativeZero.display := by
  rw [show zero.display = "0" from rfl, show negativeZero.display = "-0" from rfl]
  decide

end Binary64

namespace Value

variable {v w : Value}

/-! ## Equal values -/

/-- What is at a place of equal values is written alike if equal values there are. -/
theorem Agree.map_display_eq [Text.Glyphs] {a b : Option Value} (agree : Agree a b)
    (alike : ∀ v w, a = some v → b = some w → (v == w) = true → v.display = w.display) :
    a.map display = b.map display := by
  cases agree with
  | none => rfl
  | some h => exact congrArg some (alike _ _ rfl rfl h)

/-- Values of one mark are the same data, one allocation of a tag, or objects that are known by the same number. -/
theorem eq_or_number?_eq_of_marked {m : Mark} (marked : v.mark? = some m) (marked' : w.mark? = some m) :
    v = w ∨ (∃ t t' : Tag, v = .tag t ∧ w = .tag t' ∧ t.ident = t'.ident) ∨
      ∃ o o' : Object, v = o.toValue ∧ w = o'.toValue ∧ o.number? = o'.number? ∧ o.number?.isSome := by
  rw [← marked] at marked'
  cases v with
  | slice | map | float => cases marked
  | tag t =>
    cases w <;> simp only [mark?, Option.some.injEq, reduceCtorEq, Mark.tag.injEq] at marked'
    exact .inr (.inl ⟨t, _, rfl, rfl, marked'.symm⟩)
  | function f =>
    cases w <;> simp only [mark?, Option.some.injEq, reduceCtorEq, Mark.function.injEq] at marked'
    exact .inr (.inr ⟨.function f, .function _, rfl, rfl, congrArg some marked'.symm, rfl⟩)
  | tagged x =>
    cases w <;> simp only [mark?, Option.some.injEq, reduceCtorEq, Mark.tagged.injEq] at marked'
    exact .inr (.inr ⟨.tagged x, .tagged _, rfl, rfl, congrArg some marked'.symm, rfl⟩)
  | union u =>
    cases w <;> simp only [mark?, Option.some.injEq, reduceCtorEq, Mark.union.injEq] at marked'
    exact .inr (.inr ⟨.union u, .union _, rfl, rfl, congrArg some marked'.symm, rfl⟩)
  | nothing | int | bool | str =>
    cases w <;> cases marked'
    exact .inl rfl

end Value

theorem Object.mem_objects_toValue (o : Object) : o ∈ o.toValue.objects := by
  cases o <;> exact List.mem_cons_self

namespace World

variable {w : World} {a b : Value}

/-- In a reachable world, values of one mark are the same. -/
theorem Reachable.eq_of_marked (run : w.Reachable) (hasA : w.Has (.value a)) (hasB : w.Has (.value b))
    {m : Mark} (marked : a.mark? = some m) (marked' : b.mark? = some m) : a = b := by
  rcases Value.eq_or_number?_eq_of_marked marked marked' with
    same | ⟨t, t', rfl, rfl, allocation⟩ | ⟨o, o', rfl, rfl, number, numbered⟩
  · exact same
  · have made : t ∈ w.history.created := run.nominal.made t (hasA List.mem_cons_self)
    have made' : t' ∈ w.history.created := run.nominal.made t' (hasB List.mem_cons_self)
    rw [(run.nominal.numbered.eq_iff_ident_eq made made').2 allocation]
  · obtain ⟨i, hi⟩ := Option.isSome_iff_exists.1 numbered
    rw [run.individual.single o (hasA o.mem_objects_toValue) o' (hasB o'.mem_objects_toValue) i hi (number ▸ hi)]

/-- In a reachable world, equal values without a negative zero are written alike. -/
theorem Reachable.display_eq_of_beq [Text.Glyphs] (run : w.Reachable) (hasA : w.Has (.value a))
    (hasB : w.Has (.value b)) (properA : a.Proper) (properB : b.Proper) (equal : (a == b) = true)
    (positiveA : ¬ a.Reaches (.float .negativeZero)) (positiveB : ¬ b.Reaches (.float .negativeZero)) :
    a.display = b.display := by
  induction a using Value.contents_induction generalizing b with
  | slice vs ih =>
    obtain ⟨ws, rfl, agree⟩ := Value.slice_beq_iff.1 equal
    have same : vs.map Value.display = ws.map Value.display := by
      refine List.ext_getElem? fun i => ?_
      rw [List.getElem?_map, List.getElem?_map]
      refine (agree i).map_display_eq fun v w hv hw same => ?_
      have mem := List.mem_of_getElem? hv
      have mem' := List.mem_of_getElem? hw
      exact ih v mem (Value.objectsList_subset_iff.1 hasA v mem) (Value.objectsList_subset_iff.1 hasB w mem')
        (properA.of_getElem? hv) (properB.of_getElem? hw) same (fun rest => positiveA (.slice mem rest))
        (fun rest => positiveB (.slice mem' rest))
    rw [Value.display_slice, Value.display_slice, same]
  | map es ih =>
    obtain ⟨fs, rfl, agree⟩ := (Value.map_beq_iff properA properB).1 equal
    refine Value.display_map_congr properA.distinct properB.distinct fun name => ?_
    refine (agree name).map_display_eq fun v w hv hw same => ?_
    have mem := (Entries.lookup_eq_some_iff_mem properA.distinct).1 hv
    have mem' := (Entries.lookup_eq_some_iff_mem properB.distinct).1 hw
    exact ih _ mem (Value.objectsEntries_subset_iff.1 hasA _ mem) (Value.objectsEntries_subset_iff.1 hasB _ mem')
      (properA.of_lookup hv) (properB.of_lookup hw) same (fun rest => positiveA (.map mem rest))
      (fun rest => positiveB (.map mem' rest))
  | float x =>
    obtain ⟨y, rfl, same⟩ := Value.float_beq_iff.1 equal
    rw [Binary64.eq_of_beq_of_ne_negativeZero same]
    · rintro rfl
      exact positiveA (.refl _)
    · rintro rfl
      exact positiveB (.refl _)
  | marked v m hv => rw [run.eq_of_marked hasA hasB hv ((Value.beq_iff_of_marked hv).1 equal)]

/-- Equal values are written alike, in every world: whatever they are made of, the texts of two values that a program
has got hold of are the same if the values are equal and the negative zero is not reached from them through slices and
maps alone. It is the only exception, as it equals the zero and is written with a sign. A map is written with its names
in ascending order of their bytes; neither the order in which it was filled nor the order of the entries of maps at any
depth is seen in the text. -/
theorem Reachable.equal_values_print_alike [Text.Glyphs] (run : w.Reachable) :
    (∀ a b : Value, w.Has (.value a) → w.Has (.value b) → a.Proper → b.Proper → (a == b) = true →
      ¬ a.Reaches (.float .negativeZero) → ¬ b.Reaches (.float .negativeZero) → a.display = b.display) ∧
    ((Value.float .zero == .float .negativeZero) = true ∧
      (Value.float .zero).display ≠ (Value.float .negativeZero).display) ∧
    (∀ es : Entries Value, es.Distinct → ∃ sorted : Entries Value, sorted.Perm es ∧
      sorted.Pairwise (fun d e => Text.bytes d.1 < Text.bytes e.1) ∧
      (Value.map es).display = Value.braced (sorted.map fun e => e.1 ++ ": " ++ e.2.display)) ∧
    (∀ es fs : List (String × Value), (∀ name, es.reverse.lookup name = fs.reverse.lookup name) →
      (Value.ofEntries es).display = (Value.ofEntries fs).display) ∧
    (∀ es fs : List (String × Value), (es.map Prod.fst).Nodup → es.Perm fs →
      (Value.ofEntries es).display = (Value.ofEntries fs).display) ∧
    (∀ v v' : Value, v.ProperThroughout → Value.Rearranged v v' → v.display = v'.display) := by
  refine ⟨fun a b hasA hasB => run.display_eq_of_beq hasA hasB, ⟨by decide, Binary64.display_zero_ne⟩,
    fun es => Value.display_map_ascending, fun es fs same => ?_, fun es fs => Value.display_ofEntries_of_perm,
    fun v v' proper alike => alike.display_eq proper⟩
  refine Value.display_map_congr (Entries.distinct_ofList es).1 (Entries.distinct_ofList fs).1 fun name => ?_
  rw [Entries.lookup_ofList, Entries.lookup_ofList, same]

/-- Two maps of a leaf and a number, filled in opposite orders. -/
theorem equal_values_print_alike_leaves :
    let _ := Text.Glyphs.ascii
    let held : Value := .tagged ⟨0, leaf, []⟩
    let a := Value.ofEntries [("leaf", held), ("age", .float .zero)]
    let b := Value.ofEntries [("age", .float .zero), ("leaf", held)]
    leaves.Reachable ∧ leaves.Has (.value a) ∧ leaves.Has (.value b) ∧ (a == b) = true ∧ a.display = b.display := by
  intro _ held a b
  have sound : ∀ v, v = held ∨ v = .float .zero →
      v.objects ⊆ leaves.objects ∧ v.Proper ∧ ¬ v.Reaches (.float .negativeZero) := by
    rintro v (rfl | rfl)
    · refine ⟨by simp [held, leaves, Value.objects, Value.objectsList], Value.proper_of_not_holding rfl rfl, ?_⟩
      rw [Value.reaches_iff_of_marked rfl]
      exact Value.noConfusion
    · refine ⟨List.nil_subset _, Value.proper_of_not_holding rfl rfl, ?_⟩
      rw [Value.reaches_float_iff, Value.float.injEq]
      decide
  have filled : ∀ es : List (String × Value), (∀ e ∈ es, e.2 = held ∨ e.2 = .float .zero) →
      leaves.Has (.value (.ofEntries es)) ∧ (Value.ofEntries es).Proper ∧
        ¬ (Value.ofEntries es).Reaches (.float .negativeZero) := by
    intro es members
    have inside : ∀ e ∈ Entries.ofList es, e.2 = held ∨ e.2 = .float .zero :=
      fun e he => members e ((Entries.distinct_ofList es).2 he)
    refine ⟨Value.objectsEntries_subset_iff.2 fun e he => (sound _ (inside e he)).1,
      Value.proper_ofEntries fun e he => (sound _ (members e he)).2.1, fun reached => ?_⟩
    rcases Value.reaches_map_iff.1 reached with same | ⟨e, he, rest⟩
    · cases same
    · exact (sound _ (inside e he)).2.2 rest
  obtain ⟨hasA, properA, positiveA⟩ := filled [("leaf", held), ("age", .float .zero)] (by simp)
  obtain ⟨hasB, properB, positiveB⟩ := filled [("age", .float .zero), ("leaf", held)] (by simp)
  have run := leaves_chronicle.reachable
  have equal : (a == b) = true := by decide
  exact ⟨run, hasA, hasB, equal,
    run.equal_values_print_alike.1 a b hasA hasB properA properB equal positiveA positiveB⟩

end World

end TaggedUnion
