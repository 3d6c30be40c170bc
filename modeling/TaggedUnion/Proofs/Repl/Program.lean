/-
The program and its commands. If the names in the arguments cannot be the members of a union, the program says why
and reads no input. Otherwise it runs one command after another, until one finds the input exhausted or a line that is
no text. What it writes is what the commands wrote, the last of them the prompt alone, and whether all lines are texts
decides the exit code.
-/
import TaggedUnion.Proofs.NamedUnion.Creation
import TaggedUnion.Proofs.Repl.Session
import TaggedUnion.Repl.Program

namespace TaggedUnion

/-! ## Names -/

namespace NamedUnion

/-- What is wrong with names that cannot be the members of a union. -/
inductive Refuses (names : List String) : Error → Prop where
  /-- The first that is reserved, also if a name repeats in front of it. -/
  | reservedName {name : String} {i : Nat} (first : IsLeast {i | HoldsAt (· ∈ reserved) names i} i)
      (hi : names[i]? = some name) : Refuses names (.reservedName name)
  /-- The first to repeat, if none is reserved. -/
  | repeatedName {name : String} {i : Nat} (free : ∀ name ∈ names, name ∉ reserved)
      (first : IsLeast {i | RepeatsAt names i} i) (hi : names[i]? = some name) : Refuses names (.repeatedName name)

variable {names : List String}

theorem ofValue_map_str (names : List String) (h : History) : ofValue (.slice (names.map .str)) h = create names h := by
  rw [ofValue, namesOf_map_str]
  rfl

theorem create_of_refuses {e : Error} (refused : Refuses names e) (h : History) :
    ∃ h', create names h = .error e h' := by
  cases refused with
  | reservedName first hi =>
    rw [← ofValue_map_str]
    exact ⟨h, ofValue_of_fault (.reservedName rfl first hi) h⟩
  | repeatedName free first hi => exact ⟨_, create_of_repeat free (firstRepeat?_eq_some_iff.2 ⟨_, first, hi⟩)⟩

/-- Names are refused or make a union. -/
theorem refuses_or_created (names : List String) (h : History) :
    (∃ e, Refuses names e) ∨ ∃ n h', create names h = .ok n h' := by
  cases known : names.find? fun name => decide (name ∈ reserved) with
  | some name =>
    obtain ⟨i, first, hi⟩ := find?_eq_some_iff_isLeast.1 known
    simp only [decide_eq_true_eq] at first
    exact .inl ⟨_, .reservedName first hi⟩
  | none =>
    have free : ∀ name ∈ names, name ∉ reserved := by simpa using known
    cases again : firstRepeat? names with
    | some name =>
      obtain ⟨i, first, hi⟩ := firstRepeat?_eq_some_iff.1 again
      exact .inl ⟨_, .repeatedName free first hi⟩
    | none => exact .inr ⟨_, _, create_of_nodup free (firstRepeat?_eq_none_iff.1 again)⟩

theorem create_eq_error_iff {e : Error} {h : History} : (∃ h', create names h = .error e h') ↔ Refuses names e := by
  constructor
  · rintro ⟨h', failed⟩
    rcases refuses_or_created names h with ⟨e', refused⟩ | ⟨n, h'', created⟩
    · obtain ⟨h'', failed'⟩ := create_of_refuses refused h
      rw [failed'] at failed
      cases failed
      exact refused
    · rw [created] at failed
      cases failed
  · exact fun refused => create_of_refuses refused h

end NamedUnion

namespace Repl

variable {args : List String} {n : NamedUnion} {k : Nat}

theorem ofNames_of_created {h : History} (created : NamedUnion.create (namesOfArgs args) {} = .ok n h) :
    ofNames (namesOfArgs args) {} = ofUnion n h := by
  rw [ofNames, Run.bind_apply, created]

/-- The code of an exit tells whether the input could be read, and if not, it is reported. -/
theorem Transcript.code_exit (t : Transcript) :
    (t.exit.code = 0 ∧ t.exit.stderr = "" ∧ t.result = .ok () ∨
      t.exit.code = 1 ∧ t.exit.stderr = "Error: " ++ ReadError.notUtf8.text ++ "\n" ∧ t.result ≠ .ok ()) ∧
      t.exit.stdout = String.join t.outputs := by
  rw [exit]
  cases t.result with
  | ok u => exact ⟨.inl ⟨rfl, rfl, rfl⟩, rfl⟩
  | error e => exact ⟨.inr ⟨rfl, rfl, nofun⟩, rfl⟩

section Commands

variable [Text.Glyphs] {paint : Paint}

/-! ## One command -/

/-- A command reads a line and leaves the loop as it was. It can read the line exactly if it is a text, and if not,
the prompt is all it writes. -/
theorem command_of_line (paint : Paint) {line rest : List UInt8} (first : Line line rest) (h : History) :
    ∃ turn h', (loopOf n k).command paint (line ++ rest) h = .ok turn h' ∧ turn.rest = rest ∧
      turn.repl = loopOf n k ∧ ((∃ s, Text.bytes s = line) ∧ turn.result = .ok () ∨
        (∀ s, Text.bytes s ≠ line) ∧ turn.result = .error .notUtf8 ∧ turn.output = (loopOf n k).prompt) := by
  cases decoded : decode? line with
  | some s =>
    have text := decode?_eq_some_iff.1 decoded
    obtain ⟨h', answered, -⟩ := answer_apply paint (n := n) (k := k) s h
    exact ⟨_, _, command_of_text first text answered, rfl, rfl, .inl ⟨⟨s, text⟩, rfl⟩⟩
  | none =>
    refine ⟨_, _, command_of_not_text first decoded h, rfl, rfl, .inr ⟨fun s text => ?_, rfl, rfl⟩⟩
    cases decoded.symm.trans (decode?_eq_some_iff.2 text)

/-- What can have come of a command on a line. -/
theorem turn_of_line {line rest : List UInt8} {turn : Turn (line ++ rest)} {h h' : History} (first : Line line rest)
    (ran : (loopOf n k).command paint (line ++ rest) h = .ok turn h') :
    (∃ s, Text.bytes s = line) ∧ turn.result = .ok () ∨
      (∀ s, Text.bytes s ≠ line) ∧ turn.result = .error .notUtf8 ∧ turn.output = (loopOf n k).prompt := by
  obtain ⟨turn', h'', ran', -, -, outcome⟩ := command_of_line paint (n := n) (k := k) first h
  cases ran.symm.trans ran'
  exact outcome

/-- Only a command on an exhausted input completes the loop. -/
theorem eq_nil_of_complete {input : List UInt8} {turn : Turn input} {h h' : History}
    (ran : (loopOf n k).command paint input h = .ok turn h') (complete : turn.repl.isComplete = true) : input = [] := by
  obtain ⟨turn', h'', ran', unchanged⟩ := command_apply paint (n := n) (k := k) input h
  cases ran.symm.trans ran'
  rw [unchanged] at complete
  exact List.isEmpty_iff.1 complete

/-! ## Commands, one after another -/

/-- Commands on an input, one after another until one completes the loop or cannot read a line: the lines they read,
what they write, and whether they could read the input. -/
inductive Commands (paint : Paint) (r : Repl) :
    List UInt8 → History → List (List UInt8) → List String → Except ReadError Unit → History → Prop where
  | replied {line rest : List UInt8} {turn : Turn (line ++ rest)} {h h' final : History} {read : List (List UInt8)}
      {outputs : List String} {result : Except ReadError Unit} (first : Line line rest)
      (ran : r.command paint (line ++ rest) h = .ok turn h') (ok : turn.result = .ok ()) (left : turn.rest = rest)
      (kept : turn.repl = r) (later : Commands paint r rest h' read outputs result final) :
      Commands paint r (line ++ rest) h (line :: read) (turn.output :: outputs) result final
  | ended {input : List UInt8} {turn : Turn input} {h final : History}
      (ran : r.command paint input h = .ok turn final) (ok : turn.result = .ok ())
      (complete : turn.repl.isComplete = true) : Commands paint r input h [] [turn.output] (.ok ()) final
  | unreadable {line rest : List UInt8} {turn : Turn (line ++ rest)} {h final : History} {e : ReadError}
      (first : Line line rest) (ran : r.command paint (line ++ rest) h = .ok turn final)
      (failed : turn.result = .error e) : Commands paint r (line ++ rest) h [line] [turn.output] (.error e) final

variable {r : Repl} {input : List UInt8} {h final : History} {read lines : List (List UInt8)} {outputs : List String}
  {result : Except ReadError Unit}

/-- The commands of a loop come to an end on every input. -/
theorem exists_commands (paint : Paint) (n : NamedUnion) (k : Nat) (input : List UInt8) (h : History) :
    ∃ read outputs result final, Commands paint (loopOf n k) input h read outputs result final := by
  obtain ⟨lines, cut⟩ := exists_cut input
  induction cut generalizing h with
  | nil => exact ⟨_, _, _, _, .ended (command_nil h) rfl rfl⟩
  | cons first others ih =>
    obtain ⟨turn, h', ran, left, kept, ⟨-, ok⟩ | ⟨-, failed, -⟩⟩ := command_of_line paint first h
    · obtain ⟨read, outputs, result, final, later⟩ := ih h'
      exact ⟨_, _, _, _, .replied first ran ok left kept later⟩
    · exact ⟨_, _, _, _, .unreadable first ran failed⟩

namespace Commands

/-- A session is the commands, with what they wrote as its transcript. -/
theorem session_eq (incomplete : r.isComplete = false)
    (run : Commands paint r input h read outputs result final) :
    ∃ t, r.session paint input h = .ok t final ∧ t.outputs = outputs ∧ t.result = result := by
  induction run with
  | replied first ran ok left kept later ih =>
    obtain ⟨t, course, rfl, rfl⟩ := ih
    refine ⟨{ t with outputs := _ :: t.outputs }, ?_, rfl, rfl⟩
    rw [session_of_ok incomplete ran ok, kept, left]
    exact Run.map_apply_of_ok course _
  | @ended input turn h final ran ok complete =>
    refine ⟨⟨[turn.output], .ok (), turn.repl⟩, ?_, rfl, rfl⟩
    rw [session_of_ok incomplete ran ok]
    exact Run.map_apply_of_ok (session_of_complete complete _) _
  | unreadable first ran failed => exact ⟨_, session_of_error incomplete ran failed, rfl, rfl⟩

/-- The command that is the last writes the prompt alone. -/
theorem getLast?_outputs (run : Commands paint (loopOf n k) input h read outputs result final) :
    outputs.getLast? = some (loopOf n k).prompt := by
  induction run with
  | replied first ran ok left kept later ih =>
    rw [List.getLast?_cons, ih]
    rfl
  | @ended input turn h final ran ok complete =>
    obtain rfl := eq_nil_of_complete ran complete
    rw [command_nil] at ran
    cases ran
    rfl
  | unreadable first ran failed =>
    rcases turn_of_line first ran with ⟨-, ok⟩ | ⟨-, -, output⟩
    · cases failed.symm.trans ok
    · exact congrArg some output

/-- The input can be read exactly if every line that was read is a text. -/
theorem ok_iff_read (run : Commands paint (loopOf n k) input h read outputs result final) :
    result = .ok () ↔ ∀ line ∈ read, ∃ s, Text.bytes s = line := by
  induction run with
  | replied first ran ok left kept later ih =>
    rcases turn_of_line first ran with ⟨text, -⟩ | ⟨-, failed, -⟩
    · rw [List.forall_mem_cons, ih]
      exact (and_iff_right text).symm
    · cases failed.symm.trans ok
  | ended ran ok complete => exact iff_of_true rfl (List.forall_mem_nil _)
  | unreadable first ran failed =>
    rcases turn_of_line first ran with ⟨-, ok⟩ | ⟨noText, -, -⟩
    · cases failed.symm.trans ok
    · refine iff_of_false nofun fun allTexts => ?_
      obtain ⟨s, text⟩ := allTexts _ List.mem_cons_self
      exact noText s text

/-- What is read are the lines in front, and all of them if the input can be read. -/
theorem read_prefix (run : Commands paint (loopOf n k) input h read outputs result final) (cut : Cut input lines) :
    read <+: lines ∧ (result = .ok () → read = lines) := by
  induction run generalizing lines with
  | replied first ran ok left kept later ih =>
    obtain ⟨others, cutLater⟩ := exists_cut _
    obtain ⟨inFront, whole⟩ := ih cutLater
    -- an input is cut in one way, so what was read is the first of its lines
    obtain rfl := cut.unique (.cons first cutLater)
    exact ⟨(List.prefix_cons_inj _).2 inFront, fun ok => congrArg _ (whole ok)⟩
  | ended ran ok complete =>
    obtain rfl := eq_nil_of_complete ran complete
    obtain rfl := cut.unique .nil
    exact ⟨List.prefix_refl _, fun _ => rfl⟩
  | unreadable first ran failed =>
    obtain ⟨others, cutLater⟩ := exists_cut _
    obtain rfl := cut.unique (.cons first cutLater)
    exact ⟨⟨others, rfl⟩, fun ok => nomatch ok⟩

theorem ok_iff_lines (run : Commands paint (loopOf n k) input h read outputs result final) (cut : Cut input lines) :
    result = .ok () ↔ ∀ line ∈ lines, ∃ s, Text.bytes s = line := by
  obtain ⟨inFront, whole⟩ := run.read_prefix cut
  constructor
  · intro ok
    rw [← whole ok]
    exact run.ok_iff_read.1 ok
  · exact fun allTexts => run.ok_iff_read.2 fun line hl => allTexts line (inFront.subset hl)

end Commands

/-! ## The program -/

/-- Names that make no union end the program before it reads anything. -/
theorem program_of_error {e : Error} (failed : NamedUnion.create (namesOfArgs args) {} = .error e h)
    (input : List UInt8) : program paint args input = refusal paint e := by
  rw [program, Run.bind_apply, ofNames, Run.bind_apply, failed]

/-- The program exits as the session of its commands does. -/
theorem program_of_commands {begun : History} (made : ofNames (namesOfArgs args) {} = .ok (loopOf n k) begun)
    (run : Commands paint (loopOf n k) input begun read outputs result final) :
    ∃ t : Transcript, program paint args input = t.exit ∧ t.outputs = outputs ∧ t.result = result := by
  obtain ⟨t, course, outputs, result⟩ := run.session_eq rfl
  refine ⟨t, ?_, outputs, result⟩
  rw [program, Run.bind_apply, made]
  simp only [course]

/-- With names that make a union, whether all lines of the input are texts decides the exit code, whatever the names. -/
theorem code_of_created (paint : Paint) (created : NamedUnion.create (namesOfArgs args) {} = .ok n h)
    (cut : Cut input lines) :
    ((program paint args input).code = 0 ∧ (program paint args input).stderr = "" ∨
      (program paint args input).code = 1 ∧
        (program paint args input).stderr = "Error: " ++ ReadError.notUtf8.text ++ "\n") ∧
      ((program paint args input).code = 0 ↔ ∀ line ∈ lines, ∃ s, Text.bytes s = line) := by
  have made := (ofNames_of_created created).trans (ofUnion_apply n h)
  obtain ⟨read, outputs, result, final, run⟩ := exists_commands paint n h.objects input _
  obtain ⟨t, exit, -, ended⟩ := program_of_commands made run
  rw [exit, ← run.ok_iff_lines cut, ← ended]
  obtain ⟨⟨code, stderr, ok⟩ | ⟨code, stderr, failed⟩, -⟩ := t.code_exit
  · exact ⟨.inl ⟨code, stderr⟩, iff_of_true code ok⟩
  · exact ⟨.inr ⟨code, stderr⟩, iff_of_false (by rw [code]; exact Nat.one_ne_zero) failed⟩

/-- How an exit follows from what commands over a union have read of some lines and what they wrote. -/
structure Exit.Follows (exit : Exit) (n : NamedUnion) (lines read : List (List UInt8)) (outputs : List String) :
    Prop where
  stdout_eq : exit.stdout = String.join outputs
  last_output : outputs.getLast? = some (n.union.display ++ "> ")
  read_prefix : read <+: lines
  code_eq_zero_iff : exit.code = 0 ↔ ∀ line ∈ read, ∃ s, Text.bytes s = line

/-- What comes of the program on an input of these lines, if it begins with the loop `r`. -/
structure RunsLoop (paint : Paint) (args : List String) (r : Repl) (begun : History) (input : List UInt8)
    (lines : List (List UInt8)) : Prop where
  ends : ∃ read outputs result final, Commands paint r input begun read outputs result final
  follows : ∀ read outputs result final, Commands paint r input begun read outputs result final →
    (program paint args input).Follows r.union lines read outputs
  code_eq_zero_iff : (program paint args input).code = 0 ↔ ∀ line ∈ lines, ∃ s, Text.bytes s = line
  zero_or_one : (program paint args input).code = 0 ∧ (program paint args input).stderr = "" ∨
    (program paint args input).code = 1 ∧ (program paint args input).stderr =
      "Error: Error \x7b kind: InvalidData, message: \"stream did not contain valid UTF-8\" \x7d\n"
  same_code : ∀ args' n h, NamedUnion.create (namesOfArgs args') {} = .ok n h →
    (program paint args' input).code = (program paint args input).code

/-- What the program does with its arguments, whatever the input. -/
structure RunsCommands (paint : Paint) (args : List String) : Prop where
  standard : namesOfArgs [] = ["Circle", "Square"]
  given : args ≠ [] → namesOfArgs args = args
  refused_or_created : (∃ e, NamedUnion.Refuses (namesOfArgs args) e) ∨
    ∃ n h, NamedUnion.create (namesOfArgs args) {} = .ok n h
  refused_iff : ∀ e, (∃ h, NamedUnion.create (namesOfArgs args) {} = .error e h) ↔
    NamedUnion.Refuses (namesOfArgs args) e
  refused : ∀ e h, NamedUnion.create (namesOfArgs args) {} = .error e h → ∀ input,
    program paint args input = ⟨2, "", paint .red e.message ++ "\n"⟩ ∧
      e.message.toList <:+: (program paint args input).stderr.toList
  ansi_red : Paint.ansi.Shows ∧ ∀ text, Paint.ansi .red text = "\x1b[31m" ++ text ++ "\x1b[0m"
  created : ∀ n h, NamedUnion.create (namesOfArgs args) {} = .ok n h →
    ∃ r begun, ofUnion n h = .ok r begun ∧ r.union = n ∧ ∀ input, (∃! lines, Cut input lines) ∧
      ∀ lines, Cut input lines → RunsLoop paint args r begun input lines

theorem runsLoop_of_created (created : NamedUnion.create (namesOfArgs args) {} = .ok n h) (cut : Cut input lines) :
    RunsLoop paint args (loopOf n h.objects) { h with objects := h.objects + n.names.length } input lines where
  ends := exists_commands paint n h.objects input _
  follows := by
    intro read outputs result final run
    obtain ⟨t, exit, rfl, -⟩ := program_of_commands ((ofNames_of_created created).trans (ofUnion_apply n h)) run
    refine ⟨exit ▸ t.code_exit.2, run.getLast?_outputs, (run.read_prefix cut).1, ?_⟩
    rw [(code_of_created paint created cut).2, ← run.ok_iff_lines cut, run.ok_iff_read]
  code_eq_zero_iff := (code_of_created paint created cut).2
  zero_or_one := (code_of_created paint created cut).1
  same_code := by
    intro args' n' h' created'
    obtain ⟨exit, zero⟩ := code_of_created paint created cut
    obtain ⟨exit', zero'⟩ := code_of_created paint created' cut
    have code := exit.imp And.left And.left
    have code' := exit'.imp And.left And.left
    have same := zero'.trans zero.symm
    omega

/-- The program is its commands. The names are the arguments, or two standard ones if there are none. They are refused,
for the first that is reserved or else for the first that repeats, or they make a union. If they are refused, the
program writes why, in red, where it can be read, and nothing else, whatever the input, and exits with 2. Otherwise
commands run to an end on every input, and what they write, one after another, is what the program writes; the last of
them writes the prompt alone. The program exits with 0 if every line that was read is a text, which is so exactly if
every line of the input is one, and with 1 if not, and then it reports that. So the names do not matter for the exit,
once they make a union. -/
theorem program_runs_commands (shows : paint.Shows) (args : List String) : RunsCommands paint args where
  standard := rfl
  given := fun some => if_neg (by rwa [List.isEmpty_iff])
  refused_or_created := NamedUnion.refuses_or_created _ _
  refused_iff := fun e => NamedUnion.create_eq_error_iff
  refused := by
    intro e h failed input
    rw [program_of_error failed, refusal]
    exact ⟨rfl, shows.isInfix_append .red _ "" _⟩
  ansi_red := ⟨Paint.shows_ansi, Paint.ansi_red⟩
  created := fun n h made => ⟨_, _, ofUnion_apply n h, rfl, fun input =>
    ⟨existsUnique_cut input, fun lines cut => runsLoop_of_created made cut⟩⟩

end Commands

/-- In the colours of a terminal, a name that is reserved is refused; with the standard names, an empty input ends the
program with 0, and a line with a byte that begins no character ends it with 1. -/
theorem program_runs_commands_ansi :
    let _ := Text.Glyphs.ascii
    Paint.ansi.Shows ∧
    (∀ input, program .ansi ["apply"] input =
      ⟨2, "", "\x1b[31mduplicate definition: The name \"apply\" is reserved by the union\x1b[0m\n"⟩) ∧
    (program .ansi [] []).code = 0 ∧ (program .ansi [] [0xff, 10]).code = 1 := by
  intro _
  have refused : ∀ input, program .ansi ["apply"] input =
      ⟨2, "", "\x1b[31mduplicate definition: The name \"apply\" is reserved by the union\x1b[0m\n"⟩ := by
    intro input
    have failed : NamedUnion.create (namesOfArgs ["apply"]) {} = .error (.reservedName "apply") {} := rfl
    obtain ⟨exit, -⟩ := (program_runs_commands Paint.shows_ansi ["apply"]).refused _ _ failed input
    exact exit.trans (by decide +kernel)
  have free : ∀ name ∈ namesOfArgs [], name ∉ NamedUnion.reserved := by decide
  have nodup : (namesOfArgs []).Nodup := by decide
  have made := NamedUnion.create_of_nodup (h := {}) free nodup
  obtain ⟨r, begun, -, -, runs⟩ := (program_runs_commands Paint.shows_ansi []).created _ _ made
  refine ⟨Paint.shows_ansi, refused, ?_, ?_⟩
  · exact ((runs []).2 [] .nil).code_eq_zero_iff.2 (List.forall_mem_nil _)
  · have first : Line ([0xff] ++ [10]) [] := .whole (by decide)
    have cut : Cut [0xff, 10] [[0xff, 10]] := .cons first .nil
    obtain ⟨zero, -⟩ | ⟨one, -⟩ := ((runs _).2 _ cut).zero_or_one
    · obtain ⟨s, text⟩ := ((runs _).2 _ cut).code_eq_zero_iff.1 zero _ List.mem_cons_self
      have unreadable : decode? [0xff, 10] = none := by decide +kernel
      cases unreadable.symm.trans (decode?_eq_some_iff.2 text)
    · exact one

end Repl

end TaggedUnion
