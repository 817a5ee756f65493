import Lamplighter.Proofs.Torus
import Mathlib.Data.List.Nodup

/-! # Maps and the worlds that they draw

Rows are a map exactly if there are any, the first one is not empty, all are as wide as it, and one character
in all of them is a start letter. The world that a map draws has a cell for each character: plain floor where
the start letter stands, which is where the robot is, and the character itself everywhere else. A world whose
robot stands on plain floor, with no start letter on another cell, has a chart from which it is loaded again.
-/

namespace Lamplighter

def startSymbols : List Char := ['U', 'D', 'L', 'R']

namespace Heading

theorem ofSymbol?_eq_some_iff {symbol : Char} {heading : Heading} :
    ofSymbol? symbol = some heading ↔ symbol = heading.symbol := by
  constructor
  · intro named
    unfold ofSymbol? at named
    split at named <;> cases named <;> rfl
  · rintro rfl
    exact ofSymbol?_symbol heading

theorem isSome_ofSymbol? (symbol : Char) : (ofSymbol? symbol).isSome = decide (symbol ∈ startSymbols) := by
  fun_cases ofSymbol? symbol <;> simp_all [startSymbols]

theorem symbol_mem_startSymbols (heading : Heading) : heading.symbol ∈ startSymbols := by
  cases heading <;> decide

theorem exists_of_mem_startSymbols {symbol : Char} (member : symbol ∈ startSymbols) :
    ∃ heading : Heading, symbol = heading.symbol := by
  have named := isSome_ofSymbol? symbol
  rw [decide_eq_true member, Option.isSome_iff_exists] at named
  obtain ⟨heading, named⟩ := named
  exact ⟨heading, ofSymbol?_eq_some_iff.mp named⟩

theorem symbol_injective : Function.Injective symbol := by
  intro heading facing same
  rw [← ofSymbol?_eq_some_iff, ofSymbol?_symbol, Option.some_inj] at same
  exact same

end Heading

private theorem modify_of_fixed {α : Type} {items : List α} {place : Nat} {item : α} {change : α → α}
    (found : items[place]? = some item) (fixed : change item = item) : items.modify place change = items := by
  apply List.ext_getElem?
  intro other
  rw [List.getElem?_modify]
  by_cases same : place = other
  · rw [← same, found]
    simp [fixed]
  · simp [same]

namespace Grid

/-- The cell at a row and a column, if the grid has one there. -/
def cell? (grid : Grid) (row col : Nat) : Option Char := grid.rows[row]?.bind (·[col]?)

theorem get_eq_getD (grid : Grid) (row col : Nat) : grid.get row col = (grid.cell? row col).getD emptyCell := by
  rw [get, cell?, List.getD_eq_getElem?_getD, List.getD_eq_getElem?_getD]
  cases grid.rows[row]? <;> rfl

theorem get_of_cell? {grid : Grid} {row col : Nat} {cell : Char} (found : grid.cell? row col = some cell) :
    grid.get row col = cell := by
  rw [get_eq_getD, found, Option.getD_some]

theorem Rectangular.cell? {grid : Grid} (rectangular : grid.Rectangular) {row col : Nat}
    (inRows : row < grid.height) (inCols : col < grid.width) :
    grid.cell? row col = some (grid.get row col) := by
  have inside : col < grid.rows[row].length := by rwa [rectangular _ (List.getElem_mem inRows)]
  have found : grid.cell? row col = some grid.rows[row][col] := by
    rw [Grid.cell?, List.getElem?_eq_getElem inRows, Option.bind_some, List.getElem?_eq_getElem inside]
  rw [found, get_of_cell? found]

theorem Rectangular.inside_of_cell? {grid : Grid} (rectangular : grid.Rectangular) {row col : Nat} {cell : Char}
    (found : grid.cell? row col = some cell) : row < grid.height ∧ col < grid.width := by
  obtain ⟨cells, inRows, inCells⟩ := Option.bind_eq_some_iff.mp found
  obtain ⟨lower, rfl⟩ := List.getElem?_eq_some_iff.mp inRows
  obtain ⟨left, _⟩ := List.getElem?_eq_some_iff.mp inCells
  rw [rectangular _ (List.getElem_mem lower)] at left
  exact ⟨lower, left⟩

/-- A change of one cell is a change of that cell only. -/
theorem cell?_modify (grid : Grid) (row col : Nat) (change : Char → Char) (atRow atCol : Nat) :
    (grid.modify row col change).cell? atRow atCol =
      if row = atRow ∧ col = atCol then (grid.cell? atRow atCol).map change else grid.cell? atRow atCol := by
  rw [cell?, cell?, modify, List.getElem?_modify]
  cases grid.rows[atRow]? with
  | none => split_ifs <;> rfl
  | some cells =>
    by_cases sameRow : row = atRow
    · by_cases sameCol : col = atCol <;> simp [sameRow, sameCol]
    · simp [sameRow]

/-- A cell that is changed and then put back leaves the grid as it was. -/
theorem modify_back {grid : Grid} {row col : Nat} {cell : Char} (found : grid.cell? row col = some cell)
    (other : Char) : (grid.modify row col fun _ => other).modify row col (fun _ => cell) = grid := by
  obtain ⟨cells, inRows, inCells⟩ := Option.bind_eq_some_iff.mp found
  have same : cells.modify col (fun _ => cell) = cells := modify_of_fixed inCells rfl
  simp only [modify, List.modify_modify_eq, Function.comp_def]
  exact congrArg mk (modify_of_fixed inRows same)

end Grid

section Starts

theorem mem_startsOf_iff {rows : List Text} {start : Start} :
    start ∈ startsOf rows ↔ (Grid.mk rows).cell? start.row start.col = some start.heading.symbol := by
  constructor
  · intro member
    obtain ⟨⟨cells, row⟩, listed, inRow⟩ := List.mem_flatMap.mp member
    obtain ⟨⟨cell, col⟩, placed, marked⟩ := List.mem_filterMap.mp inRow
    obtain ⟨heading, named, rfl⟩ := Option.map_eq_some_iff.mp marked
    rw [List.mem_zipIdx_iff_getElem?] at listed placed
    exact Option.bind_eq_some_iff.mpr ⟨cells, listed, placed.trans
      (congrArg some (Heading.ofSymbol?_eq_some_iff.mp named))⟩
  · intro found
    obtain ⟨cells, inRows, inCells⟩ := Option.bind_eq_some_iff.mp found
    refine List.mem_flatMap.mpr ⟨(cells, start.row), List.mem_zipIdx_iff_getElem?.mpr inRows, ?_⟩
    refine List.mem_filterMap.mpr ⟨(start.heading.symbol, start.col),
      List.mem_zipIdx_iff_getElem?.mpr inCells, ?_⟩
    simp only [Heading.ofSymbol?_symbol, Option.map_some]

theorem length_startsInRow (row : Nat) (cells : Text) :
    (startsInRow row cells).length = cells.countP (· ∈ startSymbols) := by
  have marks : (fun place : Char × Nat => ((Heading.ofSymbol? place.1).map fun heading =>
      (⟨row, place.2, heading⟩ : Start)).isSome) = (fun cell => decide (cell ∈ startSymbols)) ∘ Prod.fst := by
    funext place
    rw [Option.isSome_map, Heading.isSome_ofSymbol?, Function.comp_apply]
  rw [startsInRow, List.length_filterMap_eq_countP, marks, ← List.countP_map, List.zipIdx_map_fst]

/-- There are as many starts as start letters. -/
theorem length_startsOf (rows : List Text) :
    (startsOf rows).length = rows.flatten.countP (· ∈ startSymbols) := by
  rw [startsOf, List.length_flatMap, List.countP_flatten]
  simp only [length_startsInRow]
  have listed := rows.zipIdx_map_fst 0
  have counts := congrArg (List.map (List.countP (· ∈ startSymbols))) listed
  rw [List.map_map] at counts
  exact congrArg List.sum counts

private theorem zipIdx_pairwise {α : Type} (items : List α) :
    items.zipIdx.Pairwise fun first second => first.2 ≠ second.2 := by
  apply List.pairwise_map.mp
  rw [List.zipIdx_map_snd]
  exact List.nodup_range'

theorem row_of_mem_startsInRow {row : Nat} {cells : Text} {start : Start}
    (member : start ∈ startsInRow row cells) : start.row = row := by
  obtain ⟨place, _, marked⟩ := List.mem_filterMap.mp member
  obtain ⟨heading, _, rfl⟩ := Option.map_eq_some_iff.mp marked
  rfl

/-- No start is listed twice: those of one row differ in their columns, and others in their rows. -/
theorem nodup_startsOf (rows : List Text) : (startsOf rows).Nodup := by
  refine List.nodup_flatMap.mpr ⟨fun listed _ => ?_, ?_⟩
  · refine (zipIdx_pairwise listed.1).filterMap _ fun first second apart start marked other named => ?_
    obtain ⟨heading, _, rfl⟩ := Option.map_eq_some_iff.mp marked
    obtain ⟨facing, _, rfl⟩ := Option.map_eq_some_iff.mp named
    exact fun same => apart (congrArg Start.col same)
  · refine (zipIdx_pairwise rows).imp fun apart start inFirst inSecond => ?_
    exact apart ((row_of_mem_startsInRow inFirst).symm.trans (row_of_mem_startsInRow inSecond))

theorem startsOf_eq_singleton_iff {rows : List Text} {start : Start} :
    startsOf rows = [start] ↔ start ∈ startsOf rows ∧ ∀ other ∈ startsOf rows, other = start := by
  have distinct := nodup_startsOf rows
  revert distinct
  cases startsOf rows with
  | nil => simp
  | cons first rest =>
    intro distinct
    cases rest with
    | nil => simp [eq_comm]
    | cons second rest =>
      constructor
      · intro single
        cases single
      · rintro ⟨_, all⟩
        have same := (all first (by simp)).trans (all second (by simp)).symm
        rw [same] at distinct
        simp at distinct

/-- One start is listed exactly if the rows have one start letter. -/
theorem exists_startsOf_iff {rows : List Text} :
    (∃ start, startsOf rows = [start]) ↔ rows.flatten.countP (· ∈ startSymbols) = 1 := by
  rw [← length_startsOf, List.length_eq_one_iff]

end Starts

theorem raggedRow?_eq_none_iff {width : Nat} {rows : List Text} :
    raggedRow? width rows = none ↔ ∀ cells ∈ rows, cells.length = width := by
  refine ⟨fun even cells => World.length_of_raggedRow?_eq_none even, fun even => ?_⟩
  rw [raggedRow?, Option.map_eq_none_iff, List.find?_eq_none]
  rintro ⟨cells, row⟩ listed
  simpa using even cells (List.mem_of_getElem? (List.mem_zipIdx_iff_getElem?.mp listed))

structure IsMap (rows : List Text) : Prop where
  rows_ne_nil : rows ≠ []
  first_ne_nil : rows.headD [] ≠ []
  even : ∀ cells ∈ rows, cells.length = (rows.headD []).length
  one_start : rows.flatten.countP (· ∈ startSymbols) = 1

namespace World

/-- The world that rows draw if the given start is the only one. -/
def ofStart (rows : List Text) (start : Start) : World :=
  ⟨(Grid.mk rows).modify start.row start.col fun _ => floorCell, start.row, start.col, start.heading⟩

theorem load_eq_ok_iff {rows : List Text} {world : World} :
    load rows = .ok world ↔ IsMap rows ∧ ∃ start, startsOf rows = [start] ∧ world = ofStart rows start := by
  constructor
  · intro loaded
    unfold load at loaded
    dsimp only at loaded
    split_ifs at loaded with empty
    split at loaded
    · cases loaded
    · rename_i even
      split at loaded
      · cases loaded
      · rename_i start starts
        cases loaded
        have first : rows.headD [] ≠ [] := fun none => empty (congrArg List.length none)
        refine ⟨⟨?_, first, fun _ => length_of_raggedRow?_eq_none even,
          exists_startsOf_iff.mp ⟨start, starts⟩⟩, start, starts, rfl⟩
        rintro rfl
        exact first rfl
      · cases loaded
  · rintro ⟨⟨_, first, even, _⟩, start, starts, rfl⟩
    have wide : (rows.headD []).length ≠ 0 := fun empty => first (List.length_eq_zero_iff.mp empty)
    simp only [load, if_neg wide, raggedRow?_eq_none_iff.mpr even, starts]
    rfl

/-- Rows are loaded exactly if they are a map. -/
theorem exists_load_iff {rows : List Text} : (∃ world, load rows = .ok world) ↔ IsMap rows := by
  constructor
  · rintro ⟨world, loaded⟩
    exact (load_eq_ok_iff.mp loaded).1
  · intro map
    obtain ⟨start, starts⟩ := exists_startsOf_iff.mpr map.one_start
    exact ⟨_, load_eq_ok_iff.mpr ⟨map, start, starts, rfl⟩⟩

/-- What a world has to do with the rows that draw it: it has a cell for each of their characters. The robot
stands, on plain floor, where the start letter is and faces the way that the letter says. Every other cell is
the character that is drawn there, and shows nothing if that is NUL. -/
structure DrawnBy (world : World) (rows : List Text) : Prop where
  rectangular : world.grid.Rectangular
  shape : world.grid.shape = (rows.length, (rows.headD []).length)
  start : (Grid.mk rows).cell? world.row world.col = some world.heading.symbol
  floor : world.grid.cell? world.row world.col = some '.'
  elsewhere : ∀ row col cell, (Grid.mk rows).cell? row col = some cell →
    (row, col) ≠ (world.row, world.col) → world.grid.cell? row col = some cell ∧
      Grid.drawCell (world.grid.get row col) = if cell = Char.ofNat 0 then [] else [cell]

theorem drawnBy_of_load {rows : List Text} {world : World} (loaded : load rows = .ok world) :
    world.DrawnBy rows := by
  obtain ⟨map, start, starts, rfl⟩ := load_eq_ok_iff.mp loaded
  have member : start ∈ startsOf rows := by
    rw [starts]
    exact List.mem_singleton_self start
  have letter := mem_startsOf_iff.mp member
  have rectangular : (Grid.mk rows).Rectangular := map.even
  refine ⟨rectangular.modify _ _ _, ?_, letter, ?_, fun row col cell drawn apart => ?_⟩
  · rw [ofStart, Grid.shape, Grid.height_modify, Grid.width_modify]
    rfl
  · rw [ofStart, Grid.cell?_modify, if_pos ⟨rfl, rfl⟩, letter]
    rfl
  · have kept : (ofStart rows start).grid.cell? row col = some cell := by
      rw [ofStart, Grid.cell?_modify, if_neg, drawn]
      rintro ⟨rfl, rfl⟩
      exact apart rfl
    refine ⟨kept, ?_⟩
    rw [Grid.get_of_cell? kept]
    rfl

/-- The rows that draw a world: each cell as its character, NUL if it is empty, and the letter of the heading
in the place of the robot. -/
def chart (world : World) : List Text :=
  (world.grid.modify world.row world.col fun _ => world.heading.symbol).rows

/-- A map is the chart of the world that it draws. -/
theorem chart_of_load {rows : List Text} {world : World} (loaded : load rows = .ok world) :
    world.chart = rows := by
  have letter := (drawnBy_of_load loaded).start
  obtain ⟨_, start, _, rfl⟩ := load_eq_ok_iff.mp loaded
  exact congrArg Grid.rows (Grid.modify_back letter floorCell)

/-- A world that can be charted: its robot stands on plain floor, and no other cell is a start letter. -/
structure Chartable (world : World) : Prop where
  valid : world.Valid
  floor : world.grid.get world.row world.col = '.'
  unmarked : ∀ row col, row < world.grid.height → col < world.grid.width →
    (row, col) ≠ (world.row, world.col) → world.grid.get row col ∉ startSymbols

/-- The world that a map draws can be charted. -/
theorem chartable_of_load {rows : List Text} {world : World} (loaded : load rows = .ok world) :
    world.Chartable := by
  obtain ⟨_, shape, _, floor, elsewhere⟩ := drawnBy_of_load loaded
  obtain ⟨map, start, starts, rfl⟩ := load_eq_ok_iff.mp loaded
  refine ⟨load_valid loaded, Grid.get_of_cell? floor, fun row col inRows inCols apart marked => ?_⟩
  obtain ⟨height, width⟩ := Prod.mk.inj shape
  have rectangular : (Grid.mk rows).Rectangular := map.even
  have drawn := rectangular.cell? (Nat.lt_of_lt_of_eq inRows height) (Nat.lt_of_lt_of_eq inCols width)
  obtain ⟨heading, letter⟩ := Heading.exists_of_mem_startSymbols marked
  rw [Grid.get_of_cell? (elsewhere row col _ drawn apart).1] at letter
  have member : ⟨row, col, heading⟩ ∈ startsOf rows := mem_startsOf_iff.mpr (drawn.trans (congrArg some letter))
  rw [starts, List.mem_singleton] at member
  apply apart
  rw [← member]
  rfl

namespace Chartable

variable {world : World} (chartable : world.Chartable)

include chartable

theorem cell?_robot : world.grid.cell? world.row world.col = some '.' := by
  rw [chartable.valid.rectangular.cell? chartable.valid.row_lt chartable.valid.col_lt, chartable.floor]

/-- The only start letter of the chart is that of the robot. -/
theorem startsOf_chart : startsOf world.chart = [⟨world.row, world.col, world.heading⟩] := by
  rw [startsOf_eq_singleton_iff]
  constructor
  · rw [mem_startsOf_iff]
    exact ((world.grid.cell?_modify ..).trans (if_pos ⟨rfl, rfl⟩)).trans
      (congrArg (Option.map _) chartable.cell?_robot)
  · rintro ⟨row, col, heading⟩ member
    have drawn : (world.grid.modify world.row world.col fun _ => world.heading.symbol).cell? row col =
        some heading.symbol := mem_startsOf_iff.mp member
    rw [Grid.cell?_modify] at drawn
    split_ifs at drawn with here
    · obtain ⟨rfl, rfl⟩ := here
      rw [chartable.cell?_robot, Option.map_some, Option.some_inj] at drawn
      rw [Heading.symbol_injective drawn]
    · -- the letter would stand on a cell of the world itself
      obtain ⟨inRows, inCols⟩ := chartable.valid.rectangular.inside_of_cell? drawn
      have marked := heading.symbol_mem_startSymbols
      rw [← Grid.get_of_cell? drawn] at marked
      refine absurd marked (chartable.unmarked row col inRows inCols fun same => here ?_)
      cases same
      exact ⟨rfl, rfl⟩

theorem isMap_chart : IsMap world.chart := by
  obtain ⟨rectangular, inRows, inCols⟩ := chartable.valid
  have height : world.chart.length = world.grid.height := Grid.height_modify ..
  have width : (world.chart.headD []).length = world.grid.width := Grid.width_modify ..
  refine ⟨?_, ?_, rectangular.modify _ _ _, exists_startsOf_iff.mp ⟨_, chartable.startsOf_chart⟩⟩
  · intro empty
    rw [empty, List.length_nil] at height
    omega
  · intro empty
    rw [empty, List.length_nil] at width
    omega

theorem load_chart : load world.chart = .ok world := by
  have cleared := Grid.modify_back chartable.cell?_robot world.heading.symbol
  refine load_eq_ok_iff.mpr ⟨chartable.isMap_chart, _, chartable.startsOf_chart, ?_⟩
  exact congrArg (World.mk · world.row world.col world.heading) cleared.symm

end Chartable

/-- Loading takes exactly the maps and inverts drawing. Rows are loaded if and only if they are a map. They
draw the world that is loaded from them, character by character, and are its chart. Every world that can be
charted is loaded from its chart. -/
theorem load_inverts_chart (rows : List Text) :
    ((∃ world, load rows = .ok world) ↔ IsMap rows) ∧
      (∀ world, load rows = .ok world → world.DrawnBy rows ∧ world.Chartable ∧ world.chart = rows) ∧
      ∀ world : World, world.Chartable → load world.chart = .ok world :=
  ⟨exists_load_iff, fun _ loaded => ⟨drawnBy_of_load loaded, chartable_of_load loaded, chart_of_load loaded⟩,
    fun _ chartable => chartable.load_chart⟩

/-- A map with an empty cell, a cell that is no lamp and a start letter at its right edge. -/
private def lastColumn : List Text := [['#', Char.ofNat 0, 'O'], ['x', 'é', 'L']]

/-- What becomes of that map when the robot switches the lamp above it and comes back the other way around. -/
private def walked : World := ⟨⟨[['#', Char.ofNat 0, 'X'], ['x', 'é', '.']]⟩, 1, 2, .down⟩

/-- The world that is charted differs from the one that the map draws. -/
theorem load_inverts_chart_of_empty_cell :
    let world : World := ⟨⟨[['#', Char.ofNat 0, 'O'], ['x', 'é', '.']]⟩, 1, 2, .left⟩
    load lastColumn = .ok world ∧ IsMap lastColumn ∧ world.DrawnBy lastColumn ∧ world.chart = lastColumn ∧
      walked.chart = [['#', Char.ofNat 0, 'X'], ['x', 'é', 'D']] ∧ walked.Chartable ∧
      load walked.chart = .ok walked := by
  intro world
  have loaded : load lastColumn = .ok world := by decide +kernel
  obtain ⟨map, described, charted⟩ := load_inverts_chart lastColumn
  obtain ⟨drawn, _, chart⟩ := described world loaded
  have chartable : walked.Chartable := by
    have unmarked : ∀ row < 2, ∀ col < 3, walked.grid.get row col ∉ startSymbols := by decide
    exact ⟨⟨by decide, by decide, by decide⟩, by decide, fun row col inRows inCols _ =>
      unmarked row inRows col inCols⟩
  exact ⟨loaded, map.mp ⟨world, loaded⟩, drawn, chart, by decide, chartable, charted walked chartable⟩

end World

end Lamplighter
