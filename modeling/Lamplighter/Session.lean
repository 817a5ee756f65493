import Lamplighter.CallGraph
import Lamplighter.Machine
import Lamplighter.Nesting
import Lamplighter.Settings
import Lamplighter.World.Snapshot

/-! # Sessions

A session keeps one world over many runs: each run goes on where the last one left the robot and the
lamps, also if it failed. The functions are those of the latest program whose nesting was in order.
A reset puts the world back to how the map drew it and leaves the functions alone.
-/

namespace Lamplighter

/-- A world between two runs, with what it takes to run programs on it. -/
structure Session where
  settings : Settings
  world : World
  initial : Snapshot
  functions : FunctionTable
  /-- The most levels that the stack has room for. -/
  stack : Nat
deriving DecidableEq, Repr

/-- What a run that came to its end tells. -/
structure Summary where
  steps : Nat
  col : Nat
  row : Nat
  functionsDefined : Nat
deriving DecidableEq, Repr

/-- The session after a run, the run's result, and its log from first to last. -/
structure Report where
  session : Session
  result : Except Fault Summary
  log : List Note

namespace Session

def start (settings : Settings) (stack : Nat) (rows : List Text) : Except MapFault Session :=
  (World.load rows).map fun world => ⟨settings, world, world.snapshot, .empty, stack⟩

/-- Refuses a program with a nesting fault, if the settings ask for that. -/
def checkNesting (session : Session) (program : List Token) : Except Fault Unit :=
  if session.settings.validateNesting then (Nesting.check program).mapError .malformed else .ok ()

/-- Refuses a program that can reach a recursive function, if the settings ask for that. -/
def checkRecursion (session : Session) (program : List Token) : Except Fault Unit :=
  if session.settings.rejectRecursion then
    match CallGraph.ofProgram program session.functions with
    | .error malformed => .error (.malformed malformed)
    | .ok graph =>
      match graph.recursiveNames with
      | [] => .ok ()
      | names => .error (.recursive names)
  else .ok ()

def env (session : Session) : Env := ⟨session.functions, session.settings.maxDepth, session.stack⟩

/-- Runs a program that has passed the checks. -/
def execute (session : Session) (program : List Token) : Report :=
  let machine := (Machine.start session.world).report (.running program.length session.functions.size)
  let run := machine.run session.env session.settings.maxSteps program
  let after := { session with world := run.state.world }
  match run.fault with
  | some fault => ⟨after, .error fault, run.state.log.reverse⟩
  | none =>
    ⟨after, .ok ⟨run.state.steps, after.world.col, after.world.row, after.functions.size⟩,
      (run.state.report (.finished run.state.steps)).log.reverse⟩

/-- Checks a program, takes up its functions and runs it. -/
def run (session : Session) (program : List Text) : Report :=
  let tokens := Token.normalize program
  match session.checkNesting tokens with
  | .error fault => ⟨session, .error fault, []⟩
  | .ok () =>
    match FunctionTable.ofProgram tokens with
    | .error malformed => ⟨{ session with functions := .empty }, .error (.malformed malformed), []⟩
    | .ok table =>
      let session := { session with functions := table }
      match session.checkRecursion tokens with
      | .error fault => ⟨session, .error fault, []⟩
      | .ok () => session.execute tokens

/-- Puts the world back to how the map drew it. -/
def reset (session : Session) : Session :=
  match session.world.restore session.initial with
  | .ok world => { session with world := world }
  | .error _ => session

def resetLog : List Note := [.reset]

end Session

end Lamplighter
