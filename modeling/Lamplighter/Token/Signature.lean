import Lamplighter.Token.Malformed

/-! # Signatures

A definition and a call are written as a keyword, a name and, if there are any, operands between
parentheses with commas between them. The operands of a call reach to its last closing parenthesis,
so that they may hold parentheses themselves; those of a definition end at the first one.
-/

namespace Lamplighter

/-- A name with its operands: parameters of a definition, or arguments of a call. -/
structure Signature where
  name : Text
  operands : List Text
deriving DecidableEq, Repr

namespace Signature

/-- The operands that stand between two parentheses. -/
def operandsOf (inner : Text) : List Text :=
  let list := Text.trim inner
  if list.isEmpty then [] else (Text.splitAt ',' list).map Text.trim

/-- What an opened operand list holds, or none if it has no end. -/
def listBody? (keyword inside : Text) : Option Text :=
  if inside.contains ')' then
    some (if keyword = Token.callWord then Text.beforeLast ')' inside else Text.before ')' inside)
  else none

/-- The signature of a token after its keyword, if its operand list has an end. -/
def parts? (keyword : Text) (token : Token) : Option Signature :=
  let written := Text.trim (token.drop keyword.length)
  match Text.after? '(' written with
  | none => some ⟨written, []⟩
  | some inside =>
    (listBody? keyword inside).map fun inner => ⟨Text.trim (Text.before '(' written), operandsOf inner⟩

/-- Reads a token that starts with a keyword as a signature. -/
def read (keyword : Text) (token : Token) : Except Problem Signature :=
  match parts? keyword token with
  | none => .error (.unclosedList token)
  | some signature => if signature.name.isEmpty then .error (.missingName token) else .ok signature

def readAt (keyword : Text) (token : Token) (index : Nat) : Except Malformed Signature :=
  Problem.locate (some index) (read keyword token)

end Signature

end Lamplighter
