import Lamplighter.Grid
import Lamplighter.Heading
import Lamplighter.Primitive
import Lamplighter.Text.Quoted

/-! # Worlds

A world is a grid whose edges are joined, left to right and top to bottom, with one robot on it.
Moving therefore never fails: a step off an edge comes back at the opposite one.
-/

namespace Lamplighter

/-- A grid and the robot's place and heading on it. -/
structure World where
  grid : Grid
  row : Nat
  col : Nat
  heading : Heading
deriving DecidableEq, Repr

inductive WorldFault where
  | heading (text : Text)
  | emptyGrid
  | robotOutside
  | shape (snapshot grid : Nat × Nat)
deriving DecidableEq, Repr

namespace WorldFault

def message : WorldFault → String
  | heading text => s!"{text.quoted} is not a valid Heading"
  | emptyGrid => "grid must be a non-empty 2D array"
  | robotOutside => "robot must start inside the grid"
  | shape snapshot grid =>
    s!"snapshot shape ({snapshot.1}, {snapshot.2}) does not match grid ({grid.1}, {grid.2})"

end WorldFault

/-- The heading that a text of one letter names. -/
def Heading.read (text : Text) : Except WorldFault Heading :=
  match text with
  | [letter] =>
    match Heading.ofSymbol? letter with
    | some heading => .ok heading
    | none => .error (.heading text)
  | _ => .error (.heading text)

namespace World

/-- A grid with cells in equal rows, and the robot on one of them. -/
structure Valid (world : World) : Prop where
  rectangular : world.grid.Rectangular
  row_lt : world.row < world.grid.height
  col_lt : world.col < world.grid.width

/-- A world from a grid and the robot's pose, if the robot stands on a cell of the grid. -/
def place (grid : Grid) (row col : Int) (heading : Heading) : Except WorldFault World :=
  if grid.height = 0 ∨ grid.width = 0 then .error .emptyGrid
  else if 0 ≤ row ∧ row < grid.height ∧ 0 ≤ col ∧ col < grid.width then
    .ok ⟨grid, row.toNat, col.toNat, heading⟩
  else .error .robotOutside

/-- A coordinate brought back into a range of the given size. -/
def wrap (coordinate : Int) (size : Nat) : Nat := (coordinate % size).toNat

/-- The cell at any coordinates, counted around the joined edges. -/
def cell (world : World) (row col : Int) : Char :=
  world.grid.get (wrap row world.grid.height) (wrap col world.grid.width)

def turnLeft (world : World) : World := { world with heading := world.heading.turnLeft }

def turnRight (world : World) : World := { world with heading := world.heading.turnRight }

def moveForward (world : World) : World :=
  { world with
    row := wrap (world.row + world.heading.delta.1) world.grid.height
    col := wrap (world.col + world.heading.delta.2) world.grid.width }

def toggleLight (world : World) : World :=
  { world with grid := world.grid.modify world.row world.col Grid.switchLamp }

def perform (world : World) : Primitive → World
  | .left => world.turnLeft
  | .right => world.turnRight
  | .forward => world.moveForward
  | .light => world.toggleLight

end World

end Lamplighter
