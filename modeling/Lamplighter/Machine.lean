import Lamplighter.Execution
import Lamplighter.Note

/-! # The machine

The handler of a real run: it acts on a world, counts steps against a budget and keeps the log. A
primitive command counts one step before it acts, and so does each iteration of a loop. The step
that goes over the budget is counted, and what it stands for does not happen.
-/

namespace Lamplighter

/-- A world, the steps counted so far, and the log with its newest note first. -/
structure Machine where
  world : World
  steps : Nat
  log : List Note
deriving DecidableEq, Repr

namespace Machine

def start (world : World) : Machine := ⟨world, 0, []⟩

/-- Counts one step, and stops if it goes over the budget. -/
def count (budget : Option Int) (machine : Machine) : Run Machine :=
  let counted := { machine with steps := machine.steps + 1 }
  match budget with
  | none => .done counted
  | some limit => if limit < counted.steps then .stop counted (.budget limit) else .done counted

def report (note : Note) (machine : Machine) : Machine := { machine with log := note :: machine.log }

def handle (budget : Option Int) (event : Event) (machine : Machine) : Run Machine :=
  match event with
  | .act primitive =>
    (machine.count budget).andThen fun machine =>
      .done { machine with world := machine.world.perform primitive }
  | .iteration => machine.count budget
  | .call name args depth => .done (machine.report (.call name args depth))
  | .loop count size depth => .done (machine.report (.loop count size depth))
  | .cut _ => .done machine

def run (machine : Machine) (env : Env) (budget : Option Int) (program : List Token) : Run Machine :=
  Execution.execute (handle budget) env program machine

end Machine

end Lamplighter
