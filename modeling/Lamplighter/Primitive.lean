import Lamplighter.Text.Basic

/-! # Primitive commands

The four commands that act on the world. Each is written as one word, and only as that word.
-/

namespace Lamplighter

/-- A command that the robot carries out in one step. -/
inductive Primitive where
  | left
  | right
  | forward
  | light
deriving DecidableEq, Repr

namespace Primitive

def word : Primitive → Text
  | left => "LEFT".toList
  | right => "RIGHT".toList
  | forward => "FORWARD".toList
  | light => "LIGHT".toList

def ofWord? (word : Text) : Option Primitive :=
  if word = "LEFT".toList then some left
  else if word = "RIGHT".toList then some right
  else if word = "FORWARD".toList then some forward
  else if word = "LIGHT".toList then some light
  else none

@[simp] theorem ofWord?_word (primitive : Primitive) : ofWord? primitive.word = some primitive := by
  cases primitive <;> decide

end Primitive

end Lamplighter
