import Lamplighter.World

/-! # Maps

A map is drawn in rows of equal width, one character a cell, with exactly one start letter: it says
where the robot stands and which way it faces, and the cell under it is plain floor.
-/

namespace Lamplighter

inductive MapFault where
  | empty
  | ragged (row width expected : Nat)
  | noStart
  | manyStarts (count : Nat)
deriving DecidableEq, Repr

namespace MapFault

def message : MapFault → String
  | empty => "Map must contain at least one non-empty row"
  | ragged row width expected => s!"Map row {row} has width {width}, expected {expected}"
  | noStart => "No start position found"
  | manyStarts count => s!"Map has {count} start positions, expected exactly one"

end MapFault

/-- A start letter's place and heading. -/
structure Start where
  row : Nat
  col : Nat
  heading : Heading
deriving DecidableEq, Repr

/-- The start letters of one row, from left to right. -/
def startsInRow (row : Nat) (cells : Text) : List Start :=
  cells.zipIdx.filterMap fun (cell, col) =>
    (Heading.ofSymbol? cell).map fun heading => ⟨row, col, heading⟩

/-- The start letters of a map, row by row. -/
def startsOf (rows : List Text) : List Start :=
  rows.zipIdx.flatMap fun (cells, row) => startsInRow row cells

/-- The first row that is not as wide as the map. -/
def raggedRow? (width : Nat) (rows : List Text) : Option (Nat × Nat) :=
  (rows.zipIdx.find? fun (cells, _) => cells.length != width).map fun (cells, row) =>
    (row, cells.length)

/-- The cell on which the robot starts, once the letter is taken off it. -/
def floorCell : Char := '.'

namespace World

/-- The world that a map draws. -/
def load (rows : List Text) : Except MapFault World :=
  let width := (rows.headD []).length
  if width = 0 then .error .empty
  else match raggedRow? width rows with
    | some (row, found) => .error (.ragged row found width)
    | none =>
      match startsOf rows with
      | [] => .error .noStart
      | [start] =>
        let grid := (Grid.mk rows).modify start.row start.col fun _ => floorCell
        .ok ⟨grid, start.row, start.col, start.heading⟩
      | starts => .error (.manyStarts starts.length)

end World

end Lamplighter
