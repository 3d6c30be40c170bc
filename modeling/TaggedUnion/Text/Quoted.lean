/-
Quoted text: a text between double quotes in which the quote, the backslash and every character
that cannot be shown on its own are written as escapes. Every escape begins with a backslash, and no
other character is written with one, so a quoted text can be read back. Which characters can be shown on
their own is a matter of the version of Unicode, and is left open here.
-/
namespace TaggedUnion.Text

/-- The characters that can be shown on their own. -/
class Glyphs where
  hasGlyph : Char → Bool

/-- The escape of a character by its code point, in hexadecimal without leading zeros. -/
def codePointEscape (c : Char) : List Char :=
  ['\\', 'u', '\x7b'] ++ Nat.toDigits 16 c.toNat ++ ['\x7d']

variable [Glyphs]

def escape (c : Char) : List Char :=
  match c with
  | '\x00' => ['\\', '0']
  | '\t' => ['\\', 't']
  | '\n' => ['\\', 'n']
  | '\r' => ['\\', 'r']
  | '"' => ['\\', '"']
  | '\\' => ['\\', '\\']
  | c => if Glyphs.hasGlyph c then [c] else codePointEscape c

def quotedChars (cs : List Char) : List Char :=
  '"' :: cs.flatMap escape ++ ['"']

/-- A text between double quotes, with its escapes. -/
def quoted (s : String) : String :=
  String.ofList (quotedChars s.toList)

end TaggedUnion.Text
