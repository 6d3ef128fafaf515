/-!
# Blank characters

The characters that count as white space at the ends of a cell: the ASCII
blanks, the next-line and no-break characters and the blanks of the general
punctuation block.
-/

namespace StrategyGraph
namespace Blank

/-- Ranges of blank characters. -/
def ranges : List (Nat × Nat) := [
  (0x09, 0x0d), (0x20, 0x20), (0x85, 0x85), (0xa0, 0xa0), (0x1680, 0x1680),
  (0x2000, 0x200a), (0x2028, 0x2029), (0x202f, 0x202f), (0x205f, 0x205f),
  (0x3000, 0x3000)]

/-- Whether a character is blank. -/
def isBlank (character : Char) : Bool :=
  ranges.any fun range =>
    range.1 <= character.toNat && character.toNat <= range.2

/-- Drop blank characters at both ends. -/
def trim (text : List Char) : List Char :=
  ((text.dropWhile isBlank).reverse.dropWhile isBlank).reverse

end Blank
end StrategyGraph
