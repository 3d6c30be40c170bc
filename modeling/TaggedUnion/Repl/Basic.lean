/-
A read-eval-print loop over a named union. Each line names a member and its arguments; the value they
make is dispatched to a handler for the member, which tells its name and the payload. The input is a
list of bytes, cut into lines after each line feed; a line that is not UTF-8 ends the session.
-/
import TaggedUnion.NamedUnion
import TaggedUnion.Repl.Word
import TaggedUnion.Text.Words

namespace TaggedUnion

/-- A read-eval-print loop: the union whose members can be made, a handler for each of them, and whether the input is
exhausted. -/
structure Repl where
  union : NamedUnion
  handlers : Value
  isComplete : Bool := false

/-! ## Colours -/

inductive Colour where
  | blue
  | red
deriving DecidableEq

/-- How a text is shown in a colour, which is the terminal's affair. -/
abbrev Paint := Colour → String → String

/-- The number of a colour among the colours of letters. -/
def Colour.code : Colour → String
  | .blue => "34"
  | .red => "31"

/-- Colours by the escape codes of terminals: one that sets the colour in front of a text, and one that resets it
behind. -/
def Paint.ansi : Paint := fun colour text => "\x1b[" ++ colour.code ++ "m" ++ text ++ "\x1b[0m"

namespace Repl

/-! ## Handlers -/

/-- The handlers, which tell the label they were given and what they were called with. -/
def describe [Text.Glyphs] : Host := fun f args =>
  let label := match f.code with
    | .host label => label.getD ""
    | _ => ""
  return .str (label ++ " with payload " ++ Value.bracketed (args.map Value.display))

def describers : List String → Run (List (String × Value))
  | [] => return []
  | name :: names => do
    let ident ← Run.freshObject
    let rest ← describers names
    return (name, .function ⟨ident, .host (some name)⟩) :: rest

def ofUnion (n : NamedUnion) : Run Repl := do
  let handlers ← describers n.names
  return { union := n, handlers := .ofEntries handlers }

/-! ## Replies -/

def prompt (r : Repl) : String := r.union.union.display ++ "> "

/-- The text that a result is shown as: a text as it is, and other values as they are written. -/
def resultText [Text.Glyphs] (v : Value) : String :=
  match v.str? with
  | some s => s
  | none => v.display

def evaluate [Text.Glyphs] (r : Repl) (name : String) (args : List String) : Run String :=
  match r.union.get? name with
  | some t => do
    let v ← t.wrap (args.map valueOf)
    let result ← r.union.switch describe v r.handlers none
    return resultText result
  | none => throw (.unknownMember name)

/-- The answer to a line: nothing for a line without words, and otherwise the result or what went
wrong, on a line of its own. -/
def answer [Text.Glyphs] (paint : Paint) (r : Repl) (line : String) : Run String :=
  match Text.words line with
  | [] => return ""
  | name :: args =>
    tryCatch (do return paint .blue (← r.evaluate name args) ++ "\n")
      fun e => return paint .red e.message ++ "\n"

/-! ## Sessions -/

def splitLine : List UInt8 → List UInt8 × List UInt8
  | [] => ([], [])
  | b :: bs =>
    if b = 10 then ([b], bs)
    else
      let (line, rest) := splitLine bs
      (b :: line, rest)

theorem length_splitLine (bs : List UInt8) :
    (splitLine bs).1.length + (splitLine bs).2.length = bs.length := by
  induction bs with
  | nil => rfl
  | cons b bs ih =>
    by_cases h : b = 10
    · simp [splitLine, h]; omega
    · simp [splitLine, h]; omega

theorem length_splitLine_cons_lt (b : UInt8) (bs : List UInt8) :
    (splitLine (b :: bs)).2.length < (b :: bs).length := by
  have whole := length_splitLine bs
  by_cases h : b = 10
  · simp [splitLine, h]
  · simp [splitLine, h]; omega

def decode? (line : List UInt8) : Option String :=
  String.fromUTF8? line.toByteArray

/-- Why an input cannot be read: a line of it is not UTF-8. -/
inductive ReadError where
  | notUtf8
deriving DecidableEq

/-- A bound for the commands that are still to come. -/
def pending (r : Repl) (input : List UInt8) : Nat :=
  if r.isComplete then 0 else input.length + 1

theorem pending_of_not_complete {r : Repl} (incomplete : ¬ r.isComplete) (input : List UInt8) :
    r.pending input = input.length + 1 :=
  if_neg incomplete

theorem pending_lt (r : Repl) {rest input : List UInt8} (shorter : rest.length < input.length) :
    r.pending rest < input.length + 1 := by
  unfold pending
  split <;> omega

/-- What comes of a command on an input: the loop, the input that is left, what was written, and whether the input
could be read. -/
structure Turn (input : List UInt8) where
  repl : Repl
  rest : List UInt8
  output : String
  result : Except ReadError Unit
  progress : repl.pending rest < input.length + 1

/-- Writes the prompt, reads a line and answers it. At the end of the input the loop is complete. -/
def command [Text.Glyphs] (paint : Paint) (r : Repl) (input : List UInt8) : Run (Turn input) :=
  match input with
  | [] => return ⟨{ r with isComplete := true }, [], r.prompt, .ok (), Nat.one_pos⟩
  | b :: bs =>
    have progress := r.pending_lt (length_splitLine_cons_lt b bs)
    match decode? (splitLine (b :: bs)).1 with
    | none => return ⟨r, (splitLine (b :: bs)).2, r.prompt, .error .notUtf8, progress⟩
    | some line => do
      let answer ← r.answer paint line
      return ⟨r, (splitLine (b :: bs)).2, r.prompt ++ answer, .ok (), progress⟩

/-- What the commands of a session wrote, whether they could read the input, and the loop after them. -/
structure Transcript where
  outputs : List String
  result : Except ReadError Unit
  repl : Repl

/-- Runs commands until the loop is complete or the input cannot be read. -/
def session [Text.Glyphs] (paint : Paint) (r : Repl) (input : List UInt8) : Run Transcript :=
  if r.isComplete then
    return ⟨[], .ok (), r⟩
  else do
    let turn ← r.command paint input
    match turn.result with
    | .error e => return ⟨[turn.output], .error e, turn.repl⟩
    | .ok () =>
      let t ← turn.repl.session paint turn.rest
      return { t with outputs := turn.output :: t.outputs }
termination_by r.pending input
decreasing_by
  rw [pending_of_not_complete ‹¬ r.isComplete›]
  exact turn.progress

end Repl

end TaggedUnion
