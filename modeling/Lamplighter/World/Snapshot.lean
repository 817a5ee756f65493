import Lamplighter.World

/-! # Snapshots

A snapshot keeps the cells and the robot's pose of one moment. It can be put back into any world
whose grid has the same shape.
-/

namespace Lamplighter

/-- The cells and the robot's pose at one moment. -/
structure Snapshot where
  grid : Grid
  row : Nat
  col : Nat
  heading : Heading
deriving DecidableEq, Repr

namespace World

def snapshot (world : World) : Snapshot := ⟨world.grid, world.row, world.col, world.heading⟩

/-- The world with the cells and the pose of a snapshot, if the grids have the same shape. -/
def restore (world : World) (snapshot : Snapshot) : Except WorldFault World :=
  if snapshot.grid.shape = world.grid.shape then
    .ok ⟨snapshot.grid, snapshot.row, snapshot.col, snapshot.heading⟩
  else .error (.shape snapshot.grid.shape world.grid.shape)

/-- A snapshot goes back into the world it was taken of. -/
@[simp] theorem restore_snapshot (world : World) : world.restore world.snapshot = .ok world := by
  simp [restore, snapshot]

end World

end Lamplighter
