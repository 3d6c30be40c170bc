/-
The command line: the program, run on the arguments and on all of standard input, with the escape codes
of terminals for colours.
-/
import TaggedUnion.Repl.Program
import TaggedUnion.Text.Unicode

namespace TaggedUnion.Repl

/-- The bytes of a stream up to its end, after those that were read already. -/
partial def readToEnd (input : IO.FS.Stream) (bytes : ByteArray) : IO ByteArray := do
  let more ← input.read 4096
  if more.isEmpty then return bytes else readToEnd input (bytes ++ more)

end TaggedUnion.Repl

open TaggedUnion TaggedUnion.Repl in
def main (args : List String) : IO UInt32 := do
  let _ : Text.Glyphs := .unicode
  let input ← readToEnd (← IO.getStdin) .empty
  let exit := program .ansi args input.toList
  (← IO.getStdout).putStr exit.stdout
  (← IO.getStderr).putStr exit.stderr
  return exit.code.toUInt32
