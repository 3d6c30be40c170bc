/-
Lines of input. An input falls apart into lines in one way: each ends with a line feed and has no other, but
for the last, which may go without one if it has anything else. Reading a line takes the first of them, and
it can be read as a text exactly if it is the UTF-8 of one.
-/
import TaggedUnion.Proofs.Text.ByteOrder
import TaggedUnion.Repl.Basic
import Mathlib.Logic.ExistsUnique

namespace TaggedUnion.Repl

/-- Whether an input that begins with `line` and goes on with `rest` is cut between the two. -/
inductive Line : List UInt8 → List UInt8 → Prop where
  | whole {bs rest : List UInt8} (noFeed : 10 ∉ bs) : Line (bs ++ [10]) rest
  | tail {bs : List UInt8} (nonempty : bs ≠ []) (noFeed : 10 ∉ bs) : Line bs []

/-- How an input falls apart into lines. -/
inductive Cut : List UInt8 → List (List UInt8) → Prop where
  | nil : Cut [] []
  | cons {line rest : List UInt8} {lines : List (List UInt8)} (first : Line line rest) (others : Cut rest lines) :
      Cut (line ++ rest) (line :: lines)

/-! ## Cutting -/

theorem splitLine_append_feed {bs : List UInt8} (noFeed : 10 ∉ bs) (rest : List UInt8) :
    splitLine (bs ++ 10 :: rest) = (bs ++ [10], rest) := by
  induction bs with
  | nil => rfl
  | cons b bs ih =>
    obtain ⟨other, noFeed⟩ := not_or.1 (mt List.mem_cons.2 noFeed)
    rw [List.cons_append, splitLine, if_neg (Ne.symm other), ih noFeed]
    rfl

theorem splitLine_of_noFeed {bs : List UInt8} (noFeed : 10 ∉ bs) : splitLine bs = (bs, []) := by
  induction bs with
  | nil => rfl
  | cons b bs ih =>
    obtain ⟨other, noFeed⟩ := not_or.1 (mt List.mem_cons.2 noFeed)
    rw [splitLine, if_neg (Ne.symm other), ih noFeed]

/-- Reading a line takes the line in front. -/
theorem Line.splitLine_eq {line rest : List UInt8} (h : Line line rest) : splitLine (line ++ rest) = (line, rest) := by
  cases h with
  | whole noFeed => rw [List.append_assoc, List.singleton_append, splitLine_append_feed noFeed]
  | tail nonempty noFeed => rw [List.append_nil, splitLine_of_noFeed noFeed]

theorem Line.ne_nil {line rest : List UInt8} (h : Line line rest) : line ≠ [] := by
  cases h with
  | whole noFeed => exact List.append_ne_nil_of_right_ne_nil _ (List.cons_ne_nil _ _)
  | tail nonempty noFeed => exact nonempty

theorem Line.append_ne_nil {line rest : List UInt8} (h : Line line rest) : line ++ rest ≠ [] :=
  List.append_ne_nil_of_left_ne_nil h.ne_nil rest

theorem Line.length_lt {line rest : List UInt8} (h : Line line rest) : rest.length < (line ++ rest).length := by
  rw [List.length_append]
  exact Nat.lt_add_of_pos_left (List.length_pos_iff.2 h.ne_nil)

theorem append_splitLine (bs : List UInt8) : (splitLine bs).1 ++ (splitLine bs).2 = bs := by
  induction bs with
  | nil => rfl
  | cons b bs ih =>
    rw [splitLine]
    by_cases feed : b = 10
    · rw [if_pos feed]; rfl
    · rw [if_neg feed]
      exact congrArg (b :: ·) ih

/-- What is read from an input that is not exhausted is a line. -/
theorem line_splitLine {bs : List UInt8} (nonempty : bs ≠ []) : Line (splitLine bs).1 (splitLine bs).2 := by
  by_cases feed : 10 ∈ bs
  · obtain ⟨before, rest, rfl, noFeed⟩ := List.eq_append_cons_of_mem feed
    rw [splitLine_append_feed noFeed]
    exact .whole noFeed
  · rw [splitLine_of_noFeed feed]
    exact .tail nonempty feed

theorem Cut.unique {input : List UInt8} {lines lines' : List (List UInt8)} (cut : Cut input lines)
    (cut' : Cut input lines') : lines = lines' := by
  induction cut generalizing lines' with
  | nil =>
    generalize h : ([] : List UInt8) = input at cut'
    cases cut' with
    | nil => rfl
    | cons first others => exact absurd (List.append_eq_nil_iff.1 h.symm).1 first.ne_nil
  | @cons line rest lines first others ih =>
    generalize h : line ++ rest = input at cut'
    cases cut' with
    | nil => exact absurd (List.append_eq_nil_iff.1 h).1 first.ne_nil
    | cons first' others' =>
      -- both lines are what is read first
      have same := congrArg splitLine h
      rw [first.splitLine_eq, first'.splitLine_eq] at same
      cases same
      rw [ih others']

theorem exists_cut (input : List UInt8) : ∃ lines, Cut input lines := by
  induction h : input.length using Nat.strongRecOn generalizing input with
  | ind size ih =>
    cases input with
    | nil => exact ⟨[], .nil⟩
    | cons b bs =>
      subst h
      obtain ⟨lines, cut⟩ := ih _ (length_splitLine_cons_lt b bs) _ rfl
      have whole := Cut.cons (line_splitLine (List.cons_ne_nil b bs)) cut
      rw [append_splitLine] at whole
      exact ⟨_, whole⟩

theorem existsUnique_cut (input : List UInt8) : ∃! lines, Cut input lines := by
  obtain ⟨lines, cut⟩ := exists_cut input
  exact ⟨lines, cut, fun lines' cut' => cut'.unique cut⟩

theorem Line.of_rest_ne_nil {line rest rest' : List UInt8} (first : Line line rest) (more : rest ≠ []) :
    Line line rest' := by
  cases first with
  | whole noFeed => exact .whole noFeed
  | tail nonempty noFeed => exact absurd rfl more

theorem Line.last {line rest : List UInt8} (first : Line line rest) : Line line [] := by
  cases first with
  | whole noFeed => exact .whole noFeed
  | tail nonempty noFeed => exact .tail nonempty noFeed

/-- Lines stay lines if the input stops after one of them. -/
theorem Cut.stop {input last : List UInt8} {lines later : List (List UInt8)} (cut : Cut input (lines ++ last :: later)) :
    Cut (lines.flatten ++ last) (lines ++ [last]) := by
  induction lines generalizing input with
  | nil =>
    cases cut with
    | cons first others =>
      have alone := Cut.cons first.last .nil
      rwa [List.append_nil] at alone
  | cons line lines ih =>
    cases cut with
    | @cons line rest lines first others =>
      have more : rest ≠ [] := by
        rintro rfl
        exact absurd (others.unique .nil) (List.append_ne_nil_of_right_ne_nil _ (List.cons_ne_nil _ _))
      rw [List.flatten_cons, List.append_assoc]
      exact .cons (first.of_rest_ne_nil more) (ih others)

/-! ## Reading -/

/-- A line is read as a text exactly if it is the UTF-8 of the text. -/
theorem decode?_eq_some_iff {line : List UInt8} {s : String} : decode? line = some s ↔ Text.bytes s = line := by
  constructor
  · intro h
    unfold decode? String.fromUTF8? at h
    split at h
    · cases h
      exact List.toList_data_toByteArray
    · cases h
  · rintro rfl
    have again : (Text.bytes s).toByteArray = s.toUTF8 := by
      apply ByteArray.ext
      rw [List.data_toByteArray, Text.bytes, Array.toArray_toList]
    rw [decode?, again, String.fromUTF8?, String.toUTF8_eq_toByteArray, dif_pos s.isValidUTF8]
    rfl

/-- Lines are all texts, or there is a first that is none. -/
theorem texts_or_unreadable (lines : List (List UInt8)) :
    (∃ texts : List String, lines = texts.map Text.bytes) ∨
    ∃ (texts : List String) (bad : List UInt8) (later : List (List UInt8)),
      lines = texts.map Text.bytes ++ bad :: later ∧ ∀ s, Text.bytes s ≠ bad := by
  induction lines with
  | nil => exact .inl ⟨[], rfl⟩
  | cons line lines ih =>
    by_cases text : ∃ s, Text.bytes s = line
    · obtain ⟨s, rfl⟩ := text
      rcases ih with ⟨texts, rfl⟩ | ⟨texts, bad, later, rfl, noText⟩
      · exact .inl ⟨s :: texts, rfl⟩
      · exact .inr ⟨s :: texts, bad, later, rfl, noText⟩
    · exact .inr ⟨[], line, lines, rfl, fun s same => text ⟨s, same⟩⟩

end TaggedUnion.Repl
