import Lamplighter.Json.Value

/-! # Writing JSON

A value is written over several lines, with two spaces more for each level of arrays and objects.
Characters above the ASCII block stand as they are; quotes, backslashes and control characters are
escaped.
-/

namespace Lamplighter.Json

/-- A code point as it stands inside a string. -/
def writePoint (point : Nat) : Text :=
  if point = '\x22'.toNat then ['\\', '\x22']
  else if point = '\\'.toNat then ['\\', '\\']
  else if point = 0x08 then ['\\', 'b']
  else if point = 0x0c then ['\\', 'f']
  else if point = 0x0a then ['\\', 'n']
  else if point = 0x0d then ['\\', 'r']
  else if point = 0x09 then ['\\', 't']
  else if point < 0x20 then '\\' :: 'u' :: Text.hex 4 point
  else [Char.ofNat point]

def writeString (points : List Nat) : Text :=
  '\x22' :: points.flatMap writePoint ++ ['\x22']

/-- A number with a point or an exponent. -/
def writeFraction : Decimal.Binary → Text
  | .indefinite => "NaN".toList
  | .infinite negative => Decimal.signed negative "Infinity".toList
  | value => value.text

def newline (level : Nat) : Text := '\n' :: List.replicate (2 * level) ' '

/-- Pieces between two brackets, each on a line of its own one level deeper. -/
def writeBlock (level : Nat) (opening closing : Char) (pieces : List Text) : Text :=
  if pieces.isEmpty then [opening, closing]
  else
    opening :: newline (level + 1) ++ Text.join (',' :: newline (level + 1)) pieces
      ++ newline level ++ [closing]

mutual

/-- A value on a level. -/
def write (level : Nat) : Json → Text
  | null => "null".toList
  | bool true => "true".toList
  | bool false => "false".toList
  | integer value => integerText value
  | fraction value => writeFraction value
  | string points => writeString points
  | array items => writeBlock level '[' ']' (writeItems (level + 1) items)
  | object members => writeBlock level '\x7b' '\x7d' (writeMembers (level + 1) members)

def writeItems (level : Nat) : List Json → List Text
  | [] => []
  | item :: rest => write level item :: writeItems level rest

def writeMembers (level : Nat) : List (List Nat × Json) → List Text
  | [] => []
  | (name, value) :: rest =>
    (writeString name ++ ": ".toList ++ write level value) :: writeMembers level rest

end

end Lamplighter.Json
