/-
Sessions, line by line. A session replies to each line of its input as if there were no other, and one more
command finds the input exhausted. A line that is no text ends it in front of its reply, and what follows such a
line is not looked at.
-/
import TaggedUnion.Proofs.Repl.Reply

namespace TaggedUnion.Repl

variable [Text.Glyphs] {paint : Paint}

/-- A transcript with the replies to texts in front. -/
def Transcript.afterTexts (paint : Paint) (n : NamedUnion) (texts : List String) (t : Transcript) : Transcript :=
  { t with outputs := texts.map (fun s => reply paint n (Text.words s)) ++ t.outputs }

/-! ## One command -/

variable {n : NamedUnion} {k : Nat} {r : Repl} {input line rest : List UInt8} {lines : List (List UInt8)}

/-- A command that cannot read the input is the last. -/
theorem session_of_error {turn : Turn input} {e : ReadError} {h h' : History} (incomplete : r.isComplete = false)
    (ran : r.command paint input h = .ok turn h') (failed : turn.result = .error e) :
    r.session paint input h = .ok ⟨[turn.output], .error e, turn.repl⟩ h' := by
  rw [session, if_neg (Bool.eq_false_iff.1 incomplete), Run.bind_apply, ran]
  simp only [failed]
  rfl

/-- After any other command the session goes on with the loop and the input that it left. -/
theorem session_of_ok {turn : Turn input} {h h' : History} (incomplete : r.isComplete = false)
    (ran : r.command paint input h = .ok turn h') (read : turn.result = .ok ()) :
    r.session paint input h =
      ((fun t => { t with outputs := turn.output :: t.outputs }) <$> turn.repl.session paint turn.rest) h' := by
  rw [session, if_neg (Bool.eq_false_iff.1 incomplete), Run.bind_apply, ran]
  simp only [read]
  rfl

theorem session_of_complete (complete : r.isComplete = true) (h : History) :
    r.session paint input h = .ok ⟨[], .ok (), r⟩ h := by
  rw [session, if_pos complete]
  rfl

/-- The end of the input is met with the prompt, and then the loop is complete. -/
theorem session_nil (incomplete : r.isComplete = false) (h : History) :
    r.session paint [] h = .ok ⟨[r.prompt], .ok (), { r with isComplete := true }⟩ h := by
  rw [session_of_ok incomplete (command_nil h) rfl]
  exact Run.map_apply_of_ok (session_of_complete rfl h) _

/-- Nothing after a line that is no text matters. -/
theorem session_of_not_text (incomplete : r.isComplete = false) (first : Line line rest)
    (noText : ∀ s, Text.bytes s ≠ line) (h : History) :
    r.session paint (line ++ rest) h = .ok ⟨[r.prompt], .error .notUtf8, r⟩ h := by
  have undecoded : decode? line = none := by
    rw [Option.eq_none_iff_forall_ne_some]
    exact fun s decoded => noText s (decode?_eq_some_iff.1 decoded)
  exact session_of_error incomplete (command_of_not_text first undecoded h) rfl

/-- The session over a text and what follows it goes on, after the reply to the text, as a session over the rest. -/
theorem session_of_text {s : String} (first : Line line rest) (text : Text.bytes s = line) (h : History) :
    (loopOf n k).session paint (line ++ rest) h =
      (Transcript.afterTexts paint n [s] <$> (loopOf n k).session paint rest)
        (((loopOf n k).answer paint s).after h) := by
  obtain ⟨h', answered, -⟩ := answer_apply paint (n := n) (k := k) s h
  rw [session_of_ok rfl (command_of_text first text answered) rfl, Run.after, answered]
  rfl

theorem history_after_answer (s : String) (h : History) :
    (((loopOf n k).answer paint s).after h).tags = h.tags ∧
      (((loopOf n k).answer paint s).after h).created = h.created := by
  obtain ⟨h', answered, unchanged⟩ := answer_apply paint (n := n) (k := k) s h
  rwa [Run.after, answered]

/-- A command gives an outcome for every input. The loop stays as it was, but that it is complete once the input is
exhausted. -/
theorem command_apply (paint : Paint) (input : List UInt8) (h : History) :
    ∃ turn h', (loopOf n k).command paint input h = .ok turn h' ∧
      turn.repl = { loopOf n k with isComplete := input.isEmpty } := by
  by_cases exhausted : input = []
  · subst exhausted
    exact ⟨_, _, command_nil h, rfl⟩
  · have first := line_splitLine exhausted
    have more : input.isEmpty = false := by rwa [List.isEmpty_eq_false_iff]
    rw [more]
    rw [← append_splitLine input]
    cases decoded : decode? (splitLine input).1 with
    | none => exact ⟨_, _, command_of_not_text first decoded h, rfl⟩
    | some s =>
      obtain ⟨h', answered, -⟩ := answer_apply paint (n := n) (k := k) s h
      exact ⟨_, _, command_of_text first (decode?_eq_some_iff.1 decoded) answered, rfl⟩

/-! ## All commands -/

/-- The history after replies to texts, one after another. -/
def historyAfter (paint : Paint) (r : Repl) (h : History) (texts : List String) : History :=
  texts.foldl (fun h s => (r.answer paint s).after h) h

theorem historyAfter_unchanged (paint : Paint) (texts : List String) (h : History) :
    (historyAfter paint (loopOf n k) h texts).tags = h.tags ∧
      (historyAfter paint (loopOf n k) h texts).created = h.created := by
  induction texts generalizing h with
  | nil => exact ⟨rfl, rfl⟩
  | cons s texts ih =>
    obtain ⟨tags, created⟩ := history_after_answer (n := n) (k := k) s h
    obtain ⟨tags', created'⟩ := ih (((loopOf n k).answer paint s).after h)
    exact ⟨tags'.trans tags, created'.trans created⟩

/-- The texts in front are replied to, and then the session goes on with what is left. -/
theorem session_of_texts {texts : List String} (cut : Cut input (texts.map Text.bytes ++ lines)) (h : History) :
    ∃ rest, Cut rest lines ∧
      (loopOf n k).session paint input h =
        (Transcript.afterTexts paint n texts <$> (loopOf n k).session paint rest)
          (historyAfter paint (loopOf n k) h texts) := by
  induction texts generalizing input h with
  | nil =>
    exact ⟨input, cut, (congrFun (id_map ((loopOf n k).session paint input)) h).symm⟩
  | cons s texts ih =>
    cases cut with
    | cons first others =>
      obtain ⟨rest, cut, course⟩ := ih others (((loopOf n k).answer paint s).after h)
      refine ⟨rest, cut, ?_⟩
      rw [session_of_text first rfl, Run.map_apply_congr course, ← comp_map]
      rfl

theorem session_of_all_texts {texts : List String} (cut : Cut input (texts.map Text.bytes)) (h : History) :
    (loopOf n k).session paint input h =
      .ok (.afterTexts paint n texts ⟨[(loopOf n k).prompt], .ok (), { loopOf n k with isComplete := true }⟩)
        (historyAfter paint (loopOf n k) h texts) := by
  rw [← List.append_nil (texts.map Text.bytes)] at cut
  obtain ⟨rest, cut, course⟩ := session_of_texts cut h
  cases cut
  rw [course]
  exact Run.map_apply_of_ok (session_nil rfl _) _

theorem session_of_unreadable {texts : List String} {bad : List UInt8} {later : List (List UInt8)}
    (cut : Cut input (texts.map Text.bytes ++ bad :: later)) (noText : ∀ s, Text.bytes s ≠ bad) (h : History) :
    (loopOf n k).session paint input h =
      .ok (.afterTexts paint n texts ⟨[(loopOf n k).prompt], .error .notUtf8, loopOf n k⟩)
        (historyAfter paint (loopOf n k) h texts) := by
  obtain ⟨rest, cut, course⟩ := session_of_texts cut h
  cases cut with
  | cons first others =>
    rw [course]
    exact Run.map_apply_of_ok (session_of_not_text rfl first noText _) _

/-- A session is a map over the lines of its input, which falls apart into lines in one way. If all of them are
texts, the session replies to each by itself, with what depends on the union and on the line alone, and one more
command, which finds the input exhausted, writes the prompt. Otherwise the first line that is no text is met with the
prompt, and the session ends there, in the same way whatever comes after the line. Every command has an outcome, none
but the one at the end of the input completes the loop, which is all that changes of it, and no tag is made. -/
theorem session_by_lines (paint : Paint) (n : NamedUnion) (start : History) :
    ∃ r begun, ofUnion n start = .ok r begun ∧ r.union = n ∧ r.isComplete = false ∧
      (∀ input, ∃! lines, Cut input lines) ∧
      (∀ input h, ∃ turn h', r.command paint input h = .ok turn h' ∧ turn.repl.union = n ∧
        turn.repl.handlers = r.handlers ∧ (turn.repl.isComplete = true ↔ input = [])) ∧
      ∀ input lines h, Cut input lines →
        ((∃ texts : List String, lines = texts.map Text.bytes) ∨
          ∃ (texts : List String) (bad : List UInt8) (later : List (List UInt8)),
            lines = texts.map Text.bytes ++ bad :: later ∧ ∀ s, Text.bytes s ≠ bad) ∧
        (∀ texts : List String, lines = texts.map Text.bytes →
          ∃ t h', r.session paint input h = .ok t h' ∧
            t.outputs = texts.map (fun s => reply paint n (Text.words s)) ++ [n.union.display ++ "> "] ∧
            t.outputs.length = lines.length + 1 ∧ t.result = .ok () ∧ t.repl = { r with isComplete := true } ∧
            h'.tags = h.tags ∧ h'.created = h.created) ∧
        (∀ (texts : List String) bad later, lines = texts.map Text.bytes ++ bad :: later → (∀ s, Text.bytes s ≠ bad) →
          ∃ t h', r.session paint input h = .ok t h' ∧
            r.session paint ((texts.map Text.bytes).flatten ++ bad) h = .ok t h' ∧
            t.outputs = texts.map (fun s => reply paint n (Text.words s)) ++ [n.union.display ++ "> "] ∧
            t.result = .error .notUtf8 ∧ t.repl = r ∧ h'.tags = h.tags ∧ h'.created = h.created) := by
  refine ⟨_, _, ofUnion_apply n start, rfl, rfl, existsUnique_cut, fun input h => ?_, fun input lines h cut =>
    ⟨texts_or_unreadable lines, fun texts allTexts => ?_, fun texts bad later cutOff noText => ?_⟩⟩
  · obtain ⟨turn, h', ran, unchanged⟩ := command_apply paint (n := n) (k := start.objects) input h
    refine ⟨turn, h', ran, ?_⟩
    rw [unchanged]
    exact ⟨rfl, rfl, List.isEmpty_iff⟩
  · obtain ⟨tags, created⟩ := historyAfter_unchanged paint (n := n) (k := start.objects) texts h
    refine ⟨_, _, session_of_all_texts (allTexts ▸ cut) h, rfl, ?_, rfl, rfl, tags, created⟩
    rw [Transcript.afterTexts, List.length_append, List.length_map, allTexts, List.length_map]
    rfl
  · subst cutOff
    obtain ⟨tags, created⟩ := historyAfter_unchanged paint (n := n) (k := start.objects) texts h
    exact ⟨_, _, session_of_unreadable cut noText h, session_of_unreadable cut.stop noText h, rfl, rfl, rfl, tags,
      created⟩

end TaggedUnion.Repl
