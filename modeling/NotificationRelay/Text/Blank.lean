/-
# Blank characters

The white space of the relay is the Unicode property `White_Space`: the controls
from tab to carriage return, next line, the spaces of every width and the two
separators. Zero-width characters and the information separators are not in it.
`trim` cuts it from both ends of a text.
-/

namespace NotificationRelay
namespace Text

/-- The ranges of `White_Space`, ascending. -/
def blankRanges : List (Nat × Nat) :=
  [ (0x09, 0x0D), (0x20, 0x20), (0x85, 0x85), (0xA0, 0xA0), (0x1680, 0x1680), (0x2000, 0x200A),
    (0x2028, 0x2029), (0x202F, 0x202F), (0x205F, 0x205F), (0x3000, 0x3000)]

/-- Whether a code point lies in one of the closed ranges. -/
def inRanges (ranges : List (Nat × Nat)) (n : Nat) : Bool :=
  ranges.any fun r => decide (r.1 ≤ n) && decide (n ≤ r.2)

/-- A character that separates words and is cut from the ends of a text. -/
def isBlank (c : Char) : Bool := inRanges blankRanges c.toNat

/-- The text after its leading blanks. -/
def trimLeft (cs : List Char) : List Char := cs.dropWhile isBlank

/-- The text before its trailing blanks. -/
def trimRight (cs : List Char) : List Char := (cs.reverse.dropWhile isBlank).reverse

/-- The text between its leading and its trailing blanks. -/
def trimChars (cs : List Char) : List Char := trimRight (trimLeft cs)

/-- The text between its leading and its trailing blanks. -/
def trim (s : String) : String := String.ofList (trimChars s.toList)

/-- A text of blanks only, the empty one included. -/
def isAllBlank (s : String) : Bool := s.toList.all isBlank

end Text
end NotificationRelay
