/-
Words: the longest stretches of a text that hold no white space, in order. White space is the Unicode
property White_Space.
-/
namespace TaggedUnion.Text

/-- The code points with the property White_Space, as closed ranges. -/
def whiteSpaceRanges : List (UInt32 × UInt32) :=
  [(0x9, 0xd), (0x20, 0x20), (0x85, 0x85), (0xa0, 0xa0), (0x1680, 0x1680), (0x2000, 0x200a),
    (0x2028, 0x2029), (0x202f, 0x202f), (0x205f, 0x205f), (0x3000, 0x3000)]

def isWhiteSpace (c : Char) : Bool :=
  whiteSpaceRanges.any fun r => r.1 ≤ c.val && c.val ≤ r.2

/-- The words of a text whose beginning has been read as the unfinished word `word`, kept backwards. -/
def wordsAfter (word : List Char) : List Char → List (List Char)
  | [] => if word.isEmpty then [] else [word.reverse]
  | c :: cs =>
    if isWhiteSpace c then
      if word.isEmpty then wordsAfter [] cs else word.reverse :: wordsAfter [] cs
    else wordsAfter (c :: word) cs

def words (s : String) : List String :=
  (wordsAfter [] s.toList).map String.ofList

end TaggedUnion.Text
