/-
The value of a word: an integer if it is written as one and fits into 64 bits, else a floating-point
number if it is written as a decimal, else the word itself. The words for infinity and for what is no
number are texts.
-/
import TaggedUnion.Binary64.Read
import TaggedUnion.Value.Basic

namespace TaggedUnion.Repl

/-- The integer of a word of digits with an optional sign, if it fits into 64 bits. -/
def readInt? (cs : List Char) : Option Int64 :=
  let (negative, ds) := Binary64.splitSign cs
  if ds.isEmpty || !ds.all Char.isDigit then none
  else
    let n : Int := if negative then -(Binary64.natOfDigits ds : Int) else Binary64.natOfDigits ds
    if Int64.minValue.toInt ≤ n ∧ n ≤ Int64.maxValue.toInt then some (Int64.ofInt n) else none

/-- Whether a word has a digit, and besides digits only the other characters of decimals. The names of
infinity and of what is no number have none of these. -/
def isNumeric (cs : List Char) : Bool :=
  cs.any Char.isDigit && cs.all fun c => c.isDigit || c ∈ ['+', '-', '.', 'e', 'E']

def valueOf (word : String) : Value :=
  match readInt? word.toList with
  | some i => .int i
  | none =>
    match if isNumeric word.toList then Binary64.ofText? word else none with
    | some x => .float x
    | none => .str word

end TaggedUnion.Repl
