import Lamplighter.World.Map
import Mathlib.Logic.Function.Iterate
import Mathlib.Tactic.SplitIfs

/-! # Cells and poses

What a command does to each cell and to the robot's place: a lamp is switched on the cell under the robot
and nowhere else, and a step around the joined edges stays on the grid. The world that a map draws has its
robot on one of the cells of a grid with equal rows.
-/

namespace Lamplighter

private theorem getD_modify {α : Type} (items : List α) (place other : Nat) (change : α → α) {blank : α}
    (fixed : change blank = blank) :
    (items.modify place change).getD other blank =
      if place = other then change (items.getD other blank) else items.getD other blank := by
  rw [List.getD_eq_getElem?_getD, List.getD_eq_getElem?_getD, List.getElem?_modify]
  cases items[other]? with
  | none => split_ifs <;> simp [fixed]
  | some item => split_ifs <;> simp_all

namespace Grid

/-- Changing a cell changes that cell only. Outside the grid there is the empty cell, so the change has to
leave that one as it is. -/
theorem get_modify (grid : Grid) (row col : Nat) (change : Char → Char) (fixed : change emptyCell = emptyCell)
    (atRow atCol : Nat) :
    (grid.modify row col change).get atRow atCol =
      if row = atRow ∧ col = atCol then change (grid.get atRow atCol) else grid.get atRow atCol := by
  have blankRow : (fun cells : List Char => cells.modify col change) [] = [] := by
    cases col <;> rfl
  have changed := getD_modify grid.rows row atRow (fun cells => cells.modify col change) blankRow
  simp only [get, modify, changed]
  by_cases sameRow : row = atRow
  · rw [if_pos sameRow, getD_modify _ col atCol change fixed]
    simp only [sameRow, true_and]
  · rw [if_neg sameRow, if_neg (fun both => sameRow both.1)]

theorem Rectangular.modify {grid : Grid} (rectangular : grid.Rectangular) (row col : Nat)
    (change : Char → Char) : (grid.modify row col change).Rectangular := by
  intro cells member
  rw [width_modify]
  obtain ⟨place, found⟩ := List.getElem?_of_mem member
  rw [Grid.modify, List.getElem?_modify] at found
  obtain ⟨before, present, rfl⟩ := Option.map_eq_some_iff.mp found
  have width := rectangular before (List.mem_of_getElem? present)
  split_ifs
  · rw [List.length_modify, width]
  · exact width

/-- A cell without a lamp stays as it is, however often it is switched. -/
theorem iterate_switchLamp_of_lampless {cell : Char} (lampless : cell ∉ ['.', 'x', 'O', 'X']) (times : Nat) :
    switchLamp^[times] cell = cell := by
  refine Function.iterate_fixed ?_ times
  fun_cases switchLamp cell <;> simp_all

end Grid

namespace World

theorem wrap_lt (coordinate : Int) {size : Nat} (positive : 0 < size) : wrap coordinate size < size := by
  unfold wrap
  have bound := Int.emod_lt_of_pos coordinate (by omega : 0 < (size : Int))
  omega

@[simp] theorem shape_perform (world : World) (primitive : Primitive) :
    (world.perform primitive).grid.shape = world.grid.shape := by
  cases primitive with
  | light => simp [perform, toggleLight, Grid.shape]
  | left => rfl
  | right => rfl
  | forward => rfl

/-- Every command leaves the robot on a cell of the grid. -/
theorem Valid.perform {world : World} (valid : world.Valid) (primitive : Primitive) :
    (world.perform primitive).Valid := by
  obtain ⟨rectangular, row, col⟩ := valid
  cases primitive with
  | left => exact ⟨rectangular, row, col⟩
  | right => exact ⟨rectangular, row, col⟩
  | forward => exact ⟨rectangular, wrap_lt _ (by omega), wrap_lt _ (by omega)⟩
  | light =>
    refine ⟨rectangular.modify _ _ _, ?_, ?_⟩
    · simpa [World.perform, toggleLight] using row
    · simpa [World.perform, toggleLight] using col

/-- A command changes a cell only if it switches the lamp there. -/
theorem get_perform (world : World) (primitive : Primitive) (row col : Nat) :
    (world.perform primitive).grid.get row col =
      if primitive = .light ∧ world.row = row ∧ world.col = col then
        Grid.switchLamp (world.grid.get row col)
      else world.grid.get row col := by
  cases primitive with
  | light =>
    simp only [perform, toggleLight, true_and]
    exact world.grid.get_modify world.row world.col Grid.switchLamp (by decide) row col
  | left => simp [perform, turnLeft]
  | right => simp [perform, turnRight]
  | forward => simp [perform, moveForward]

/-- A start letter stands on a cell of the map. -/
theorem mem_startsOf {rows : List Text} {start : Start} (member : start ∈ startsOf rows) :
    ∃ cells, rows[start.row]? = some cells ∧ start.col < cells.length := by
  obtain ⟨⟨cells, row⟩, listed, inRow⟩ := List.mem_flatMap.mp member
  obtain ⟨⟨cell, col⟩, placed, marked⟩ := List.mem_filterMap.mp inRow
  obtain ⟨heading, _, rfl⟩ := Option.map_eq_some_iff.mp marked
  exact ⟨cells, List.mem_zipIdx_iff_getElem?.mp listed, (List.getElem?_eq_some_iff.mp
    (List.mem_zipIdx_iff_getElem?.mp placed)).1⟩

theorem length_of_raggedRow?_eq_none {width : Nat} {rows : List Text} (even : raggedRow? width rows = none)
    {cells : Text} (member : cells ∈ rows) : cells.length = width := by
  rw [raggedRow?, Option.map_eq_none_iff, List.find?_eq_none] at even
  obtain ⟨row, found⟩ := List.getElem?_of_mem member
  simpa using even (cells, row) (List.mem_zipIdx_iff_getElem?.mpr found)

/-- What is drawn by a map is a world: the robot stands on a cell of a grid with equal rows. -/
theorem load_valid {rows : List Text} {world : World} (loaded : load rows = .ok world) : world.Valid := by
  unfold load at loaded
  dsimp only at loaded
  split_ifs at loaded with empty
  split at loaded
  · cases loaded
  · rename_i even
    split at loaded
    · cases loaded
    · rename_i start starts
      cases loaded
      have member : start ∈ startsOf rows := by
        rw [starts]
        exact List.mem_singleton_self start
      obtain ⟨cells, found, inside⟩ := mem_startsOf member
      have width := length_of_raggedRow?_eq_none even (List.mem_of_getElem? found)
      have rectangular : (Grid.mk rows).Rectangular := fun cells member =>
        length_of_raggedRow?_eq_none even member
      refine ⟨rectangular.modify _ _ _, ?_, ?_⟩
      · rw [Grid.height_modify]
        exact (List.getElem?_eq_some_iff.mp found).1
      · rw [Grid.width_modify]
        exact Nat.lt_of_lt_of_eq inside width
    · cases loaded

end World

end Lamplighter
