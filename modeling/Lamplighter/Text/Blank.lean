import Lamplighter.Text.Basic

/-! # Blanks

Blanks are the separators of Unicode 14 together with the tabulators, line breaks and information
separators of ASCII. The zero-width space, the word joiner and the byte order mark are not blanks,
and neither is NUL.
-/

namespace Lamplighter.Text

/-- Blanks above the ASCII block, as ascending ranges. -/
def blankRanges : List (Nat × Nat) := [
  (0x85, 0x85), (0xa0, 0xa0), (0x1680, 0x1680), (0x2000, 0x200a), (0x2028, 0x2029),
  (0x202f, 0x202f), (0x205f, 0x205f), (0x3000, 0x3000)]

/-- The information separators of ASCII: they part words, and do not pad a numeral. -/
def isInformationSeparator (c : Char) : Bool := 0x1c ≤ c.toNat && c.toNat ≤ 0x1f

/-- Tabulators, line breaks, information separators and spaces. -/
def isBlank (c : Char) : Bool :=
  if c.toNat < 0x80 then
    c.toNat == 0x20 || (0x09 ≤ c.toNat && c.toNat ≤ 0x0d) || isInformationSeparator c
  else inRanges blankRanges c.toNat

/-- A text without the characters at its two ends that `drop` selects. -/
def trimWhere (drop : Char → Bool) (text : Text) : Text :=
  ((text.dropWhile drop).reverse.dropWhile drop).reverse

def trim (text : Text) : Text := trimWhere isBlank text

/-- The blank-free words of a text. -/
def words (text : Text) : List Text := (splitWhere isBlank text).filter fun word => !word.isEmpty

end Lamplighter.Text
