import Lamplighter.World.Snapshot

/-! # Several worlds with shared snapshots

A bench holds worlds side by side and a shelf of snapshots with names. A snapshot can be put back
into any of the worlds, whichever it was taken of; taking one under a name that is in use replaces
the old one.
-/

namespace Lamplighter

/-- Worlds, and snapshots by name. -/
structure Bench where
  worlds : List World
  shelf : List (Text × Snapshot)
deriving DecidableEq, Repr

namespace Bench

def ofWorlds (worlds : List World) : Bench := ⟨worlds, []⟩

def slot? (bench : Bench) (name : Text) : Option Snapshot :=
  (bench.shelf.find? fun entry => entry.1 == name).map Prod.snd

def setWorld (bench : Bench) (index : Nat) (world : World) : Bench :=
  { bench with worlds := bench.worlds.set index world }

def perform (bench : Bench) (index : Nat) (primitive : Primitive) : Bench :=
  match bench.worlds[index]? with
  | some world => bench.setWorld index (world.perform primitive)
  | none => bench

def take (bench : Bench) (index : Nat) (name : Text) : Bench :=
  match bench.worlds[index]? with
  | some world => { bench with shelf := (name, world.snapshot) :: bench.shelf.filter (·.1 != name) }
  | none => bench

/-- Puts a snapshot back into one world, if there is one of that name and it has the world's shape. -/
def restore (bench : Bench) (index : Nat) (name : Text) : Except WorldFault Bench :=
  match bench.worlds[index]?, bench.slot? name with
  | some world, some snapshot => (world.restore snapshot).map (bench.setWorld index)
  | _, _ => .ok bench

/-- Whether two names hold equal snapshots. -/
def sameSlots (bench : Bench) (first second : Text) : Bool :=
  match bench.slot? first, bench.slot? second with
  | some a, some b => a == b
  | _, _ => false

end Bench

end Lamplighter
