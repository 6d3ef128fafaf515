import StrategyGraph.Text.Visible

/-!
# Quoted texts

A quoted text shows any text on one line, between double quotes. Quotes,
backslashes, tabs, line ends and the zero character have short escapes. Every
other character without a visible glyph is written by its code point.
-/

namespace StrategyGraph
namespace Quoted

/-- The form of one character between double quotes. -/
def encodeCharacter (character : Char) : List Char :=
  if character = '\x00' then ['\\', '0']
  else if character = '\t' then ['\\', 't']
  else if character = '\n' then ['\\', 'n']
  else if character = '\r' then ['\\', 'r']
  else if character = '\"' then ['\\', '\"']
  else if character = '\\' then ['\\', '\\']
  else if Visible.isVisible character then [character]
  else
    '\\' :: 'u' :: '\x7b' :: (Nat.toDigits 16 character.toNat ++ ['\x7d'])

/-- A text between double quotes. -/
def encode (text : String) : String :=
  String.ofList ('\"' :: (text.toList.flatMap encodeCharacter ++ ['\"']))

end Quoted
end StrategyGraph
