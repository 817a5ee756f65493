/-! # Headings

The robot faces one of four directions. Turning left goes up, left, down, right and up again.
-/

namespace Lamplighter

/-- The direction that the robot faces. -/
inductive Heading where
  | up
  | down
  | left
  | right
deriving DecidableEq, Repr

namespace Heading

/-- The letter that stands for a heading, on a map too. -/
def symbol : Heading → Char
  | up => 'U'
  | down => 'D'
  | left => 'L'
  | right => 'R'

def ofSymbol? : Char → Option Heading
  | 'U' => some up
  | 'D' => some down
  | 'L' => some left
  | 'R' => some right
  | _ => none

def name : Heading → String
  | up => "UP"
  | down => "DOWN"
  | left => "LEFT"
  | right => "RIGHT"

/-- The rows and columns that one step forward adds; rows count downwards. -/
def delta : Heading → Int × Int
  | up => (-1, 0)
  | down => (1, 0)
  | left => (0, -1)
  | right => (0, 1)

def turnLeft : Heading → Heading
  | up => left
  | left => down
  | down => right
  | right => up

def turnRight : Heading → Heading
  | up => right
  | right => down
  | down => left
  | left => up

@[simp] theorem turnRight_turnLeft (heading : Heading) : heading.turnLeft.turnRight = heading := by
  cases heading <;> rfl

@[simp] theorem turnLeft_turnRight (heading : Heading) : heading.turnRight.turnLeft = heading := by
  cases heading <;> rfl

@[simp] theorem ofSymbol?_symbol (heading : Heading) : ofSymbol? heading.symbol = some heading := by
  cases heading <;> rfl

end Heading

end Lamplighter
