/-!
# Classes of characters

A class of characters is a list of ranges of code points, or is told by the code point.  Two
classes of blanks occur around numbers in text: the white space of Unicode, and the same
together with the four information separators.  Every script's decimal digits stand in a row from
zero to nine, so the zeros of Unicode 14 tell all of them.

Main definitions:

- {lit}`Ranges.mem`: whether a character is in one of some ranges.
- {lit}`Blank.isWhite`: white space of Unicode.
- {lit}`Blank.isSpace`: white space and information separators.
- {lit}`Blank.trim`: a text without the blanks at both ends.
- {lit}`Digit.value?`: the value of a decimal digit.
-/

namespace StakeLedger

/-- Ranges of code points with both ends included. -/
abbrev Ranges := List (Nat × Nat)

/-- Whether a character is in one of the ranges. -/
def Ranges.mem (ranges : Ranges) (c : Char) : Bool :=
  ranges.any fun range => range.1 ≤ c.toNat && c.toNat ≤ range.2

namespace Blank

/-- White space of Unicode. -/
def isWhite (c : Char) : Bool :=
  let n := c.toNat
  (9 ≤ n && n ≤ 13) || n == 32 || n == 0x85 || n == 0xA0 || n == 0x1680 ||
    (0x2000 ≤ n && n ≤ 0x200A) || n == 0x2028 || n == 0x2029 || n == 0x202F ||
    n == 0x205F || n == 0x3000

/-- White space of Unicode, or an information separator. -/
def isSpace (c : Char) : Bool :=
  isWhite c || (0x1C ≤ c.toNat && c.toNat ≤ 0x1F)

/-- A text without the blanks at both ends. -/
def trim (blank : Char → Bool) (text : List Char) : List Char :=
  ((text.dropWhile blank).reverse.dropWhile blank).reverse

end Blank

namespace Digit

/-- The code points of all zeros. -/
def zeros : List Nat :=
  [48, 1632, 1776, 1984, 2406, 2534, 2662, 2790, 2918, 3046, 3174, 3302, 3430, 3558, 3664, 3792,
    3872, 4160, 4240, 6112, 6160, 6470, 6608, 6784, 6800, 6992, 7088, 7232, 7248, 42528, 43216,
    43264, 43472, 43504, 43600, 44016, 65296, 66720, 68912, 69734, 69872, 69942, 70096, 70384,
    70736, 70864, 71248, 71360, 71472, 71904, 72016, 72784, 73040, 73120, 92768, 92864, 93008,
    120782, 120792, 120802, 120812, 120822, 123200, 123632, 125264, 130032]

/-- The value of a decimal digit of any script. -/
def value? (c : Char) : Option Nat :=
  (zeros.find? fun start => start ≤ c.toNat && c.toNat < start + 10).map (c.toNat - ·)

end Digit

end StakeLedger
