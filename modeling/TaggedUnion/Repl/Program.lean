/-
The program: a read-eval-print loop over the union of the names in its arguments. Its exit code tells
whether the names can be members of a union and whether the input could be read.
-/
import TaggedUnion.Repl.Basic

namespace TaggedUnion.Repl

variable [Text.Glyphs]

structure Exit where
  code : Nat
  stdout : String
  stderr : String
deriving DecidableEq

def standardNames : List String := ["Circle", "Square"]

def namesOfArgs (args : List String) : List String :=
  if args.isEmpty then standardNames else args

def ofNames (names : List String) : Run Repl := do
  let n ← NamedUnion.create names
  ofUnion n

/-- How the failure to read an input is reported. -/
def ReadError.text : ReadError → String
  | .notUtf8 => "Error \x7b kind: InvalidData, message: \"stream did not contain valid UTF-8\" \x7d"

/-- The exit after a session: what it wrote, and whether the input could be read. -/
def Transcript.exit (t : Transcript) : Exit :=
  match t.result with
  | .ok () => ⟨0, String.join t.outputs, ""⟩
  | .error e => ⟨1, String.join t.outputs, "Error: " ++ e.text ++ "\n"⟩

/-- The exit of names that cannot be the members of a union. Nothing is read. -/
def refusal (paint : Paint) (e : Error) : Exit := ⟨2, "", paint .red e.message ++ "\n"⟩

def program (paint : Paint) (args : List String) (input : List UInt8) : Exit :=
  match (do (← ofNames (namesOfArgs args)).session paint input : Run Transcript) {} with
  | .ok t _ => t.exit
  | .error e _ => refusal paint e

end TaggedUnion.Repl
