import Lamplighter.Text.Numeral
import Lamplighter.Token.Malformed

/-! # Loop counts

The opener of a loop has exactly one operand, an integer numeral of any sign.
-/

namespace Lamplighter.Token

/-- Reads the count of a loop from its opener. -/
def readCount (token : Token) : Except Problem Int :=
  match Text.words token with
  | [_, operand] =>
    match Text.readInteger? operand with
    | some count => .ok count
    | none => .error (.countNumeral token)
  | _ => .error (.countOperands token)

def readCountAt (token : Token) (index : Nat) : Except Malformed Int :=
  Problem.locate (some index) (readCount token)

end Lamplighter.Token
