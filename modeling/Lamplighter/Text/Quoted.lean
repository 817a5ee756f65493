import Lamplighter.Text.Printable

/-! # Quoted texts

Messages quote a text so that every character of it can be seen: between single quotes, or between
double quotes when the text has a single quote and no double quote. The quote in use and the
backslash get a backslash, line breaks and tabulators their letters, and what cannot be printed its
hexadecimal code point.
-/

namespace Lamplighter.Text

def hexDigit (n : Nat) : Char :=
  if n < 10 then Char.ofNat ('0'.toNat + n) else Char.ofNat ('a'.toNat + (n - 10))

/-- The lowest `width` hexadecimal digits of a number, most significant first. -/
def hex : (width n : Nat) → Text
  | 0, _ => []
  | width + 1, n => hex width (n / 16) ++ [hexDigit (n % 16)]

/-- A code point as it stands between two of the given quotes. -/
def escape (mark : Char) (point : Nat) : Text :=
  if point = mark.toNat then ['\\', mark]
  else if point = '\\'.toNat then ['\\', '\\']
  else if point = '\n'.toNat then ['\\', 'n']
  else if point = '\r'.toNat then ['\\', 'r']
  else if point = '\t'.toNat then ['\\', 't']
  else if isPrintable point then [Char.ofNat point]
  else if point < 0x100 then '\\' :: 'x' :: hex 2 point
  else if point < 0x10000 then '\\' :: 'u' :: hex 4 point
  else '\\' :: 'U' :: hex 8 point

def singleQuote : Char := '\x27'

def doubleQuote : Char := '\x22'

/-- The quote for a text: the double one if that alone saves a backslash. -/
def quoteMark (points : List Nat) : Char :=
  if points.contains singleQuote.toNat && !points.contains doubleQuote.toNat then doubleQuote
  else singleQuote

def quotePoints (points : List Nat) : Text :=
  let mark := quoteMark points
  mark :: points.flatMap (escape mark) ++ [mark]

def quote (text : Text) : Text := quotePoints (text.map Char.toNat)

/-- A text between quotes, for a message. -/
def quoted (text : Text) : String := String.ofList (quote text)

end Lamplighter.Text
