/-
What the words of a text are. A text falls apart into words and white space: a word has a character at
least and none that is white space, and what follows it, if anything does, is white space. There is one
way of doing so, and it is the way in which texts are read.
-/
import TaggedUnion.Text.Words
import Mathlib.Logic.ExistsUnique

namespace TaggedUnion.Text

/-- How characters fall apart into words, with white space around them. -/
inductive Separated : List Char → List (List Char) → Prop where
  | nil : Separated [] []
  | space {c : Char} {cs : List Char} {ws : List (List Char)} (space : isWhiteSpace c)
      (rest : Separated cs ws) : Separated (c :: cs) ws
  | word {w cs : List Char} {ws : List (List Char)} (nonempty : w ≠ []) (solid : ∀ c ∈ w, ¬ isWhiteSpace c)
      (ends : ∀ c ∈ cs.head?, isWhiteSpace c) (rest : Separated cs ws) : Separated (w ++ cs) (w :: ws)

/-- The characters that are read fall apart into the words that are found, the unfinished word in front of them. -/
theorem separated_wordsAfter {word : List Char} (solid : ∀ c ∈ word, ¬ isWhiteSpace c) (cs : List Char) :
    Separated (word.reverse ++ cs) (wordsAfter word cs) := by
  induction cs generalizing word with
  | nil =>
    rw [wordsAfter]
    cases word with
    | nil => exact .nil
    | cons c word =>
      refine .word (by simp) (fun c hc => solid c (List.mem_reverse.1 hc)) (fun _ h => nomatch h) .nil
  | cons c cs ih =>
    rw [wordsAfter]
    by_cases space : isWhiteSpace c
    · rw [if_pos space]
      have rest : Separated cs (wordsAfter [] cs) := ih (List.forall_mem_nil _)
      replace rest := rest.space space
      cases word with
      | nil => exact rest
      | cons d word =>
        refine .word (by simp) (fun c hc => solid c (List.mem_reverse.1 hc)) ?_ rest
        rintro _ ⟨⟩
        exact space
    · rw [if_neg space]
      have rest : Separated ((c :: word).reverse ++ cs) (wordsAfter (c :: word) cs) :=
        ih (List.forall_mem_cons.2 ⟨space, solid⟩)
      rwa [List.reverse_cons, List.append_assoc] at rest

theorem wordsAfter_append {w : List Char} (solid : ∀ c ∈ w, ¬ isWhiteSpace c) (word cs : List Char) :
    wordsAfter word (w ++ cs) = wordsAfter (w.reverse ++ word) cs := by
  induction w generalizing word with
  | nil => rfl
  | cons c w ih =>
    obtain ⟨solidHead, solid⟩ := List.forall_mem_cons.1 solid
    rw [List.cons_append, wordsAfter, if_neg solidHead, ih solid, List.reverse_cons, List.append_assoc]
    rfl

theorem wordsAfter_of_ends {word cs : List Char} (nonempty : word ≠ []) (ends : ∀ c ∈ cs.head?, isWhiteSpace c) :
    wordsAfter word cs = word.reverse :: wordsAfter [] cs := by
  have unfinished : word.isEmpty = false := by rwa [List.isEmpty_eq_false_iff]
  cases cs with
  | nil => rw [wordsAfter, unfinished]; rfl
  | cons c cs =>
    have space := ends c rfl
    rw [wordsAfter, wordsAfter, if_pos space, if_pos space, unfinished]
    rfl

theorem Separated.wordsAfter_eq {cs : List Char} {ws : List (List Char)} (h : Separated cs ws) :
    wordsAfter [] cs = ws := by
  induction h with
  | nil => rfl
  | space space rest ih => rwa [wordsAfter, if_pos space]
  | @word w cs ws nonempty solid ends rest ih =>
    rw [wordsAfter_append solid, List.append_nil, wordsAfter_of_ends (by simpa using nonempty) ends,
      List.reverse_reverse, ih]

/-- A text has these words exactly if it falls apart into them. -/
theorem words_eq_iff {s : String} {ws : List String} :
    words s = ws ↔ Separated s.toList (ws.map String.toList) := by
  have fallsApart : Separated s.toList (wordsAfter [] s.toList) := separated_wordsAfter (List.forall_mem_nil _) _
  constructor
  · rintro rfl
    simpa [words, Function.comp_def] using fallsApart
  · intro h
    rw [words, h.wordsAfter_eq]
    simp [Function.comp_def]

theorem existsUnique_separated (s : String) : ∃! ws : List String, Separated s.toList (ws.map String.toList) :=
  ⟨words s, words_eq_iff.1 rfl, fun _ h => (words_eq_iff.2 h).symm⟩

/-- A line feed at the end of a text belongs to no word. -/
example : words "Circle 3\u3000nan \n" = ["Circle", "3", "nan"] := by decide +kernel

end TaggedUnion.Text
