/-
The characters with a glyph of their own in Unicode 17.0: those that are neither combining marks nor
unprintable. Implementations differ in a few letters that are drawn as nothing or on the letter in front
of them: the Hangul fillers U+115F, U+1160, U+3164 and U+FFA0, and the halfwidth sound marks U+FF9E and
U+FF9F. What is proved of quoted texts holds for every choice of these characters.
-/
import TaggedUnion.Text.Combining
import TaggedUnion.Text.Quoted
import TaggedUnion.Text.Unprintable

namespace TaggedUnion.Text

@[reducible]
def Glyphs.unicode : Glyphs := ⟨fun c => !(isCombining c || isUnprintable c)⟩

end TaggedUnion.Text
