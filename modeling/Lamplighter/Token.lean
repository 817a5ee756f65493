import Lamplighter.Primitive
import Lamplighter.Text.Blank
import Lamplighter.Text.Word

/-! # Tokens

A program is a flat list of tokens. The primitive commands and the closers of scopes are recognised
by their exact spelling; what opens a scope or calls a function is recognised by the keyword that it
starts with. Every other token is passed over.
-/

namespace Lamplighter

/-- One instruction of a program, as it is written. -/
abbrev Token := Text

/-- A part of a program between an opener and its closer. -/
inductive Scope where
  /-- A function definition. -/
  | definition
  /-- A repeated block. -/
  | loop
deriving DecidableEq, Repr

namespace Scope

def opener : Scope → Text
  | definition => "FUNCTION".toList
  | loop => "REPEAT".toList

def closer : Scope → Text
  | definition => "ENDFUNCTION".toList
  | loop => "ENDREPEAT".toList

def ofOpener? (word : Text) : Option Scope :=
  if word = definition.opener then some definition
  else if word = loop.opener then some loop
  else none

@[simp] theorem ofOpener?_opener (scope : Scope) : ofOpener? scope.opener = some scope := by
  cases scope <;> decide

end Scope

namespace Token

def callWord : Text := "CALL".toList

/-- The capital letters that a token starts with, unless a word character follows them. -/
def keyword (token : Token) : Text :=
  if Text.startsWithWord (token.dropWhile Char.isUpper) then [] else token.takeWhile Char.isUpper

/-- The part that a token plays in a program. -/
inductive Kind where
  | act (primitive : Primitive)
  | opens (scope : Scope)
  | closes (scope : Scope)
  | call
  | other
deriving DecidableEq, Repr

/-- The part of a token with the given keyword that is spelled as nothing special. -/
def kindOfKeyword (word : Text) : Kind :=
  if word = callWord then .call
  else match Scope.ofOpener? word with
    | some scope => .opens scope
    | none => .other

def kind (token : Token) : Kind :=
  match Primitive.ofWord? token with
  | some primitive => .act primitive
  | none =>
    if token = Scope.loop.closer then .closes .loop
    else if token = Scope.definition.closer then .closes .definition
    else kindOfKeyword (keyword token)

/-- A program with the blanks around its tokens taken off. -/
def normalize (program : List Text) : List Token := program.map Text.trim

end Token

end Lamplighter
