import ForkParser.Text.Ranges

/-!
# ForkParser.Text.Blank

The characters that separate words: the Unicode property White_Space.
-/

namespace ForkParser.Text

/-- Code points with the property White_Space. -/
def blankRanges : Ranges :=
  [(0x0009, 0x000D), (0x0020, 0x0020), (0x0085, 0x0085), (0x00A0, 0x00A0), (0x1680, 0x1680),
    (0x2000, 0x200A), (0x2028, 0x2029), (0x202F, 0x202F), (0x205F, 0x205F), (0x3000, 0x3000)]

/-- Whether `c` has the Unicode property White_Space. -/
def isBlank (c : Char) : Bool := blankRanges.covers c.toNat

end ForkParser.Text
