import Lamplighter.Text.Basic

/-! # Grids of cells

A grid is a list of rows of cells, and a cell is one character. The NUL character is the empty
cell: it takes up its place in the grid, and nothing is drawn for it. Lamps stand on some cells;
switching one exchanges its dark and its lit character.
-/

namespace Lamplighter

/-- Rows of cells, top row first. -/
structure Grid where
  rows : List (List Char)
deriving DecidableEq, Repr

namespace Grid

/-- The cell for which nothing is drawn. -/
def emptyCell : Char := Char.ofNat 0

def height (grid : Grid) : Nat := grid.rows.length

/-- The number of columns, which the first row gives. -/
def width (grid : Grid) : Nat := (grid.rows.headD []).length

def shape (grid : Grid) : Nat × Nat := (grid.height, grid.width)

def Rectangular (grid : Grid) : Prop := ∀ row ∈ grid.rows, row.length = grid.width

instance (grid : Grid) : Decidable grid.Rectangular :=
  inferInstanceAs (Decidable (∀ row ∈ grid.rows, row.length = grid.width))

/-- The cell at a row and a column, the empty cell outside the grid. -/
def get (grid : Grid) (row col : Nat) : Char := (grid.rows.getD row []).getD col emptyCell

def modify (grid : Grid) (row col : Nat) (change : Char → Char) : Grid :=
  ⟨grid.rows.modify row fun cells => cells.modify col change⟩

def drawCell (cell : Char) : Text := if cell = emptyCell then [] else [cell]

def draw (grid : Grid) : List Text := grid.rows.map fun cells => cells.flatMap drawCell

/-- The cell after its lamp is switched; a cell without a lamp stays as it is. -/
def switchLamp : Char → Char
  | '.' => 'x'
  | 'x' => '.'
  | 'O' => 'X'
  | 'X' => 'O'
  | cell => cell

/-- Switching a lamp twice leaves it as it was. -/
@[simp] theorem switchLamp_switchLamp (cell : Char) : switchLamp (switchLamp cell) = cell := by
  fun_cases switchLamp cell <;> simp_all [switchLamp]

@[simp] theorem height_modify (grid : Grid) (row col : Nat) (change : Char → Char) :
    (grid.modify row col change).height = grid.height := by
  simp [modify, height]

@[simp] theorem width_modify (grid : Grid) (row col : Nat) (change : Char → Char) :
    (grid.modify row col change).width = grid.width := by
  rcases grid with ⟨_ | ⟨first, rest⟩⟩
  · cases row <;> simp [modify, width]
  · cases row <;> simp [modify, width]

end Grid

end Lamplighter
