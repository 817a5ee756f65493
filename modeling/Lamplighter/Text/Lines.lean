import Lamplighter.Text.Basic

/-! # Lines

A file's line breaks are unified first, so that a carriage return, alone or before a line feed,
reads as a line feed. A text is then cut at every line or paragraph separator; a break at the very
end of the text opens no further line.
-/

namespace Lamplighter.Text

/-- The text with every carriage return, with the line feed after it, made one line feed. -/
def unifyNewlines : Text → Text
  | '\r' :: '\n' :: rest => '\n' :: unifyNewlines rest
  | '\r' :: rest => '\n' :: unifyNewlines rest
  | c :: rest => c :: unifyNewlines rest
  | [] => []

def isLineBreak (c : Char) : Bool :=
  inRanges [(0x0a, 0x0d), (0x1c, 0x1e), (0x85, 0x85), (0x2028, 0x2029)] c.toNat

/-- The lines of a text with unified line breaks. -/
def lines (text : Text) : List Text :=
  let pieces := splitWhere isLineBreak text
  if pieces.getLast? = some [] then pieces.dropLast else pieces

end Lamplighter.Text
