import Lamplighter.Text.Blank
import Lamplighter.Text.Digit

/-! # Integer numerals

A numeral is an optional sign and decimal digits of any script, with single underscores allowed
between digits and blanks around the whole. Leading zeros are fine. A numeral of more than
`digitLimit` digits is refused, whatever its value.
-/

namespace Lamplighter.Text

/-- The most digits a numeral may have; signs and underscores do not count, leading zeros do. -/
def digitLimit : Nat := 4300

/-- The number that a list of digits denotes, most significant digit first. -/
def ofDigits (digits : List Nat) : Nat := digits.foldl (fun value digit => 10 * value + digit) 0

/-- The digits of an unsigned numeral: digits in groups with one underscore between two groups. -/
def readDigits? (text : Text) : Option (List Nat) :=
  let groups := splitAt '_' text
  if groups.any List.isEmpty then none else groups.flatten.mapM digitValue?

def readNatural? (text : Text) : Option Nat := do
  let digits ← readDigits? text
  if digits.length ≤ digitLimit then some (ofDigits digits) else none

/-- The blanks that may stand around a numeral. -/
def isNumeralPadding (c : Char) : Bool := isBlank c && !isInformationSeparator c

def readInteger? (text : Text) : Option Int :=
  match trimWhere isNumeralPadding text with
  | '-' :: rest => (readNatural? rest).map fun value => -(value : Int)
  | '+' :: rest => (readNatural? rest).map fun value => (value : Int)
  | rest => (readNatural? rest).map fun value => (value : Int)

end Lamplighter.Text
