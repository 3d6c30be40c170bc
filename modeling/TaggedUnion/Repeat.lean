/-
Repeated elements: the first element of a list that occurs in front of itself, and which elements
occur for the first time. What has been seen is kept in a set that finds its elements by their hashes.
-/
namespace TaggedUnion

variable {α : Type} [DecidableEq α] [Hashable α]

/-- Whether an element is in a set. It is looked for among the elements of its hash. -/
def isKnown (seen : List α) (x : α) : Bool :=
  seen.any fun y => hash y == hash x && y == x

/-- Equal elements have equal hashes, so none is overlooked. -/
theorem isKnown_iff {seen : List α} {x : α} : isKnown seen x = true ↔ x ∈ seen := by
  simp only [isKnown, List.any_eq_true, Bool.and_eq_true, beq_iff_eq]
  constructor
  · rintro ⟨y, hy, -, rfl⟩
    exact hy
  · exact fun hx => ⟨x, hx, rfl, rfl⟩

@[simp]
theorem isKnown_eq (seen : List α) (x : α) : isKnown seen x = decide (x ∈ seen) :=
  Bool.eq_iff_iff.2 (isKnown_iff.trans decide_eq_true_iff.symm)

/-- The first element of a list that is in `seen` or occurs earlier in the list. -/
def firstRepeatIn? (seen : List α) : List α → Option α
  | [] => none
  | x :: xs => if isKnown seen x then some x else firstRepeatIn? (x :: seen) xs

def firstRepeat? (xs : List α) : Option α :=
  firstRepeatIn? [] xs

theorem firstRepeatIn?_eq_none_iff (seen xs : List α) :
    firstRepeatIn? seen xs = none ↔ (∀ x ∈ xs, x ∉ seen) ∧ xs.Nodup := by
  induction xs generalizing seen with
  | nil => simp [firstRepeatIn?]
  | cons x xs ih =>
    by_cases h : x ∈ seen
    · simp [firstRepeatIn?, h]
    · simp only [firstRepeatIn?, isKnown_iff, if_neg h, ih, List.nodup_cons, List.mem_cons]
      grind

/-- Nothing repeats exactly in the lists without duplicates. -/
theorem firstRepeat?_eq_none_iff {xs : List α} : firstRepeat? xs = none ↔ xs.Nodup := by
  simp [firstRepeat?, firstRepeatIn?_eq_none_iff]

/-- For each element of a list, whether it is not in `seen` and does not occur earlier in the list. -/
def newcomersIn (seen : List α) : List α → List Bool
  | [] => []
  | x :: xs => (!isKnown seen x) :: newcomersIn (x :: seen) xs

def newcomers (xs : List α) : List Bool :=
  newcomersIn [] xs

end TaggedUnion
