import Lookahead.Text.Ranges

/-!
# Blank characters

The characters with the property White_Space. They separate the words of a
rule.
-/
namespace Lookahead.Text

def blankRanges : Ranges :=
  [(0x9, 0xd), (0x20, 0x20), (0x85, 0x85), (0xa0, 0xa0), (0x1680, 0x1680), (0x2000, 0x200a),
   (0x2028, 0x2029), (0x202f, 0x202f), (0x205f, 0x205f), (0x3000, 0x3000)]

def isBlank (c : Char) : Bool := blankRanges.holds c

end Lookahead.Text
