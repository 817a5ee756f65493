import Lamplighter.Proofs.Course
import Mathlib.Data.List.GetD
import Mathlib.Data.List.Rotate

/-! # The torus has no seam

The edges of a grid are joined, so where its first row and its first column lie makes no difference. A
world can be shifted by any number of rows and columns, the robot with the cells, and every command does
the same before and after the shift. A run on the shifted world is the run on the world itself, shifted.
-/

namespace Lamplighter

namespace World

section Wrap

variable {size : Nat}

theorem cast_wrap (coordinate : Int) (positive : 0 < size) :
    (wrap coordinate size : Int) = coordinate % size :=
  Int.toNat_of_nonneg (Int.emod_nonneg coordinate (by omega))

theorem wrap_of_lt {place : Nat} (inside : place < size) : wrap place size = place := by
  rw [wrap, ← Int.natCast_emod, Nat.mod_eq_of_lt inside, Int.toNat_natCast]

/-- A coordinate may be brought back into its range before another one is added. -/
theorem wrap_wrap_add (coordinate offset : Int) (positive : 0 < size) :
    wrap (wrap coordinate size + offset) size = wrap (coordinate + offset) size := by
  rw [wrap, cast_wrap coordinate positive, Int.emod_add_emod, ← wrap]

/-- A place is shifted to another exactly if the other is shifted back to it. -/
theorem wrap_add_eq_iff {place other : Nat} (offset : Int) (inside : place < size) (within : other < size) :
    wrap (place + offset) size = other ↔ place = wrap (other - offset) size := by
  have positive : 0 < size := by omega
  constructor
  · rintro rfl
    rw [Int.sub_eq_add_neg, wrap_wrap_add _ _ positive, Int.add_neg_cancel_right, wrap_of_lt inside]
  · rintro rfl
    rw [wrap_wrap_add _ _ positive, Int.sub_add_cancel, wrap_of_lt within]

end Wrap

end World

open World (wrap)

/-- The items of a list moved on by a number of places, around its joined ends. -/
def movedOn {α : Type} (places : Int) (items : List α) : List α := items.rotate (wrap (-places) items.length)

theorem length_movedOn {α : Type} (places : Int) (items : List α) :
    (movedOn places items).length = items.length := List.length_rotate ..

/-- What stands at a place after the move stood that many places before. -/
theorem getElem?_movedOn {α : Type} (places : Int) {items : List α} {place : Nat}
    (inside : place < items.length) :
    (movedOn places items)[place]? = items[wrap (place - places) items.length]? := by
  have positive : 0 < items.length := by omega
  have origin : wrap (place - places) items.length =
      (place + wrap (-places) items.length) % items.length := by
    have back : (place - places : Int) = -places + place := by omega
    rw [back, ← World.wrap_wrap_add _ _ positive, ← Int.natCast_add, wrap, ← Int.natCast_emod,
      Int.toNat_natCast, Nat.add_comm]
  rw [movedOn, List.getElem?_rotate inside, origin]

namespace Grid

/-- The grid with its cells moved on by a number of rows and of columns, around the joined edges. -/
def shift (grid : Grid) (rows cols : Int) : Grid := ⟨movedOn rows (grid.rows.map (movedOn cols))⟩

theorem height_shift (grid : Grid) (rows cols : Int) : (grid.shift rows cols).height = grid.height := by
  rw [height, shift, length_movedOn, List.length_map, height]

section Rectangular

variable {grid : Grid} (rectangular : grid.Rectangular)

include rectangular

theorem Rectangular.length_of_mem_shift (rows cols : Int) {cells : List Char}
    (member : cells ∈ (grid.shift rows cols).rows) : cells.length = grid.width := by
  rw [shift, movedOn, List.mem_rotate] at member
  obtain ⟨before, listed, rfl⟩ := List.mem_map.mp member
  rw [length_movedOn, rectangular before listed]

theorem Rectangular.width_shift (rows cols : Int) : (grid.shift rows cols).width = grid.width := by
  cases shifted : (grid.shift rows cols).rows with
  | nil =>
    have height := grid.height_shift rows cols
    rw [Grid.height, shifted, List.length_nil, Grid.height] at height
    rw [width, shifted, width, List.length_eq_zero_iff.mp height.symm]
  | cons first rest =>
    rw [width, shifted, List.headD_cons]
    apply rectangular.length_of_mem_shift rows cols
    rw [shifted]
    exact List.mem_cons_self

theorem Rectangular.shift (rows cols : Int) : (grid.shift rows cols).Rectangular := by
  intro cells member
  rw [rectangular.width_shift, rectangular.length_of_mem_shift rows cols member]

/-- What stands on a cell after the shift stood that many rows and columns before. -/
theorem Rectangular.get_shift (rows cols : Int) {row col : Nat} (inRows : row < grid.height)
    (inCols : col < grid.width) :
    (grid.shift rows cols).get row col =
      grid.get (wrap (row - rows) grid.height) (wrap (col - cols) grid.width) := by
  have positive : 0 < grid.height := by omega
  obtain ⟨cells, found⟩ : ∃ cells, grid.rows[wrap (row - rows) grid.height]? = some cells :=
    ⟨_, List.getElem?_eq_getElem (World.wrap_lt _ positive)⟩
  have width := rectangular cells (List.mem_of_getElem? found)
  have moved : (grid.shift rows cols).rows[row]? = some (movedOn cols cells) := by
    rw [Grid.shift, getElem?_movedOn rows (by rwa [List.length_map]), List.length_map, List.getElem?_map]
    exact congrArg (Option.map (movedOn cols)) found
  have inside : col < cells.length := by rwa [width]
  simp only [get, List.getD_eq_getElem?_getD, moved, found, Option.getD_some]
  rw [getElem?_movedOn cols inside, width]

/-- Grids with equal rows are the same if they have the same shape and the same cells. -/
theorem Rectangular.ext_get {other : Grid} (alike : other.Rectangular) (shape : grid.shape = other.shape)
    (cells : ∀ row col, row < grid.height → col < grid.width → grid.get row col = other.get row col) :
    grid = other := by
  obtain ⟨height, width⟩ := Prod.mk.inj shape
  have same : grid.rows = other.rows := by
    apply List.ext_getElem height
    intro row inRows inOther
    have first := rectangular _ (List.getElem_mem inRows)
    have second := alike _ (List.getElem_mem inOther)
    apply List.ext_getElem (first.trans (width.trans second.symm))
    intro col inCols within
    have equal := cells row col inRows (Nat.lt_of_lt_of_eq inCols first)
    rw [get, get, List.getD_eq_getElem _ _ inRows, List.getD_eq_getElem _ _ inOther,
      List.getD_eq_getElem _ _ inCols, List.getD_eq_getElem _ _ within] at equal
    exact equal
  rcases grid with ⟨rows⟩
  rcases other with ⟨others⟩
  exact congrArg Grid.mk same

/-- A cell is changed before a shift or, where it comes to lie, after it. -/
theorem Rectangular.shift_modify (rows cols : Int) {row col : Nat} (inRows : row < grid.height)
    (inCols : col < grid.width) {change : Char → Char} (fixed : change emptyCell = emptyCell) :
    (grid.modify row col change).shift rows cols =
      (grid.shift rows cols).modify (wrap (row + rows) grid.height) (wrap (col + cols) grid.width)
        change := by
  have changed := rectangular.modify row col change
  apply (changed.shift rows cols).ext_get ((rectangular.shift rows cols).modify _ _ _)
  · rw [shape, shape, height_shift, height_modify, height_modify, height_shift, changed.width_shift,
      width_modify, width_modify, rectangular.width_shift]
  · intro atRow atCol inside within
    rw [height_shift, height_modify] at inside
    rw [changed.width_shift, width_modify] at within
    rw [changed.get_shift rows cols (by rwa [height_modify]) (by rwa [width_modify]), height_modify,
      width_modify, get_modify _ _ _ _ fixed, get_modify _ _ _ _ fixed,
      rectangular.get_shift rows cols inside within]
    simp only [World.wrap_add_eq_iff rows inRows inside, World.wrap_add_eq_iff cols inCols within]

end Rectangular

end Grid

namespace World

/-- The world with its cells and the robot moved on by a number of rows and of columns. -/
def shift (world : World) (rows cols : Int) : World where
  grid := world.grid.shift rows cols
  row := wrap (world.row + rows) world.grid.height
  col := wrap (world.col + cols) world.grid.width
  heading := world.heading

/-- Every command does the same before and after a shift. -/
theorem Valid.perform_shift {world : World} (valid : world.Valid) (rows cols : Int) (primitive : Primitive) :
    (world.shift rows cols).perform primitive = (world.perform primitive).shift rows cols := by
  obtain ⟨rectangular, inRows, inCols⟩ := valid
  have height := world.grid.height_shift rows cols
  have width := rectangular.width_shift rows cols
  cases primitive with
  | left => rfl
  | right => rfl
  | forward =>
    have commute (place : Nat) (step offset : Int) {size : Nat} (inside : place < size) :
        wrap (wrap (place + offset) size + step) size = wrap (wrap (place + step) size + offset) size := by
      rw [wrap_wrap_add _ _ (by omega), wrap_wrap_add _ _ (by omega), Int.add_right_comm]
    simp only [World.perform, moveForward, shift, height, width, commute _ _ _ inRows, commute _ _ _ inCols]
  | light =>
    have switched := rectangular.shift_modify rows cols inRows inCols (by decide : Grid.switchLamp _ = _)
    simp only [World.perform, toggleLight, shift, Grid.height_modify, Grid.width_modify, switched]

/-- A cell of the shifted world is found at the shifted coordinates, whatever their sign. -/
theorem Valid.cell_shift {world : World} (valid : world.Valid) (rows cols row col : Int) :
    (world.shift rows cols).cell (row + rows) (col + cols) = world.cell row col := by
  obtain ⟨rectangular, inRows, inCols⟩ := valid
  have height : 0 < world.grid.height := by omega
  have width : 0 < world.grid.width := by omega
  rw [cell, cell, shift, Grid.height_shift, rectangular.width_shift,
    rectangular.get_shift rows cols (wrap_lt _ height) (wrap_lt _ width), Int.sub_eq_add_neg,
    Int.sub_eq_add_neg, wrap_wrap_add _ _ height, wrap_wrap_add _ _ width, Int.add_neg_cancel_right,
    Int.add_neg_cancel_right]

end World

/-- The first world is the second one shifted, and the second one is valid. -/
private structure World.ShiftOf (rows cols : Int) (moved world : World) : Prop where
  valid : world.Valid
  shifted : moved = world.shift rows cols

private theorem World.ShiftOf.perform {rows cols : Int} {moved world : World}
    (related : ShiftOf rows cols moved world) (primitive : Primitive) :
    ShiftOf rows cols (moved.perform primitive) (world.perform primitive) := by
  obtain ⟨valid, rfl⟩ := related
  exact ⟨valid.perform primitive, valid.perform_shift rows cols primitive⟩

namespace Machine

/-- The torus has no seam. A run on a world that is shifted by any number of rows and columns has the same
end, counts the same steps and keeps the same log as the run on the world itself, and leaves the world that
this one leaves, shifted. Every cell of the shifted world is found at the shifted coordinates. -/
theorem run_shift {machine : Machine} (valid : machine.world.Valid) (rows cols : Int) (env : Env)
    (budget : Option Int) (program : List Token) :
    let shifted := { machine with world := machine.world.shift rows cols }.run env budget program
    let run := machine.run env budget program
    shifted.fault = run.fault ∧ shifted.state.steps = run.state.steps ∧ shifted.state.log = run.state.log ∧
      shifted.state.world = run.state.world.shift rows cols ∧
      ∀ row col : Int, (machine.world.shift rows cols).cell (row + rows) (col + cols) =
        machine.world.cell row col := by
  intro shifted run
  have alongside : Alongside (World.ShiftOf rows cols)
      { machine with world := machine.world.shift rows cols } machine := ⟨⟨valid, rfl⟩, rfl, rfl⟩
  have kept (primitive : Primitive) (moved world : World) (related : World.ShiftOf rows cols moved world) :=
    related.perform primitive
  obtain ⟨state, fault⟩ := alongside.run kept env budget program
  exact ⟨fault, state.steps, state.log, state.world.shifted, valid.cell_shift rows cols⟩

/-- A robot in the upper right corner of a small grid that faces the edge. -/
private def corner : World := ⟨⟨["O.#".toList, "x..".toList]⟩, 0, 2, .right⟩

/-- The robot steps over the right edge, switches the lamp there and steps over the upper edge. -/
private def overEdges : List Token :=
  ["FORWARD".toList, "LIGHT".toList, "LEFT".toList, "FORWARD".toList, "LIGHT".toList]

/-- On the shifted world the same steps stay away from the right edge. -/
theorem run_shift_off_the_edge :
    let shifted := (start (corner.shift 1 (-5))).run ⟨.empty, 3, 450⟩ (some 4) overEdges
    let run := (start corner).run ⟨.empty, 3, 450⟩ (some 4) overEdges
    corner.Valid ∧ corner.shift 1 (-5) = ⟨⟨[".x.".toList, "#O.".toList]⟩, 1, 0, .right⟩ ∧
      run.state.world = ⟨⟨["X.#".toList, "x..".toList]⟩, 1, 0, .up⟩ ∧ run.fault = some (.budget 4) ∧
      shifted.fault = run.fault ∧ shifted.state.steps = run.state.steps ∧
      shifted.state.world = run.state.world.shift 1 (-5) ∧
      (corner.shift 1 (-5)).cell (-7 + 1) (100 + -5) = corner.cell (-7) 100 := by
  intro shifted run
  have valid : (start corner).world.Valid := ⟨by decide, by decide, by decide⟩
  obtain ⟨fault, steps, _, world, cell⟩ := run_shift valid 1 (-5) ⟨.empty, 3, 450⟩ (some 4) overEdges
  exact ⟨valid, by decide +kernel, by decide +kernel, by decide +kernel, fault, steps, world, cell (-7) 100⟩

end Machine

end Lamplighter
