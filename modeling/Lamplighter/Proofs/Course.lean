import Lamplighter.Proofs.Progress
import Lamplighter.Proofs.Worlds

/-! # The course of a run

Nothing in a program asks for the state of the world. So two runs of one program from different worlds
take the same course: they have the same end, count the same steps and keep the same log. Whatever the
commands keep between two worlds is kept by whole runs of them; in particular robots that start in the same
pose on grids of the same shape end in the same pose.
-/

namespace Lamplighter

namespace Run

variable {σ τ : Type}

/-- Two executions with related states that both came to their end or were stopped by the same fault. -/
structure Mirrors (same : σ → τ → Prop) (first : Run σ) (second : Run τ) : Prop where
  state : same first.state second.state
  fault : first.fault = second.fault

namespace Mirrors

variable {same : σ → τ → Prop}

theorem done {state : σ} {other : τ} (related : same state other) :
    Mirrors same (.done state) (.done other) := ⟨related, rfl⟩

theorem stop {state : σ} {other : τ} (related : same state other) (fault : Fault) :
    Mirrors same (.stop state fault) (.stop other fault) := ⟨related, rfl⟩

theorem andThen {first : Run σ} {second : Run τ} {next : σ → Run σ} {follow : τ → Run τ}
    (mirrors : Mirrors same first second)
    (continued : ∀ state other, same state other → Mirrors same (next state) (follow other)) :
    Mirrors same (first.andThen next) (second.andThen follow) := by
  obtain ⟨related, alike⟩ := mirrors
  rcases first with ⟨state, _ | fault⟩
  · rcases second with ⟨other, _ | cause⟩
    · exact continued state other related
    · cases alike
  · rcases second with ⟨other, _ | cause⟩
    · cases alike
    · exact ⟨related, alike⟩

end Mirrors

end Run

namespace Execution

variable {σ τ : Type} {same : σ → τ → Prop} {handle : Event → σ → Run σ} {answer : Event → τ → Run τ}

theorem replay_mirrors
    (handled : ∀ event state other, same state other → (handle event state).Mirrors same (answer event other))
    (events : List Event) {state : σ} {other : τ} (related : same state other) :
    (replay handle events state).Mirrors same (replay answer events other) := by
  induction events generalizing state other with
  | nil => exact .done related
  | cons event events ih =>
    apply (handled event state other related).andThen
    intro next follow reached
    exact ih reached

/-- Two handlers that keep a relation between their states, and refuse alike, keep it over whole
executions: both are told the same script. -/
theorem execute_mirrors
    (handled : ∀ event state other, same state other → (handle event state).Mirrors same (answer event other))
    (env : Env) (program : List Token) {state : σ} {other : τ} (related : same state other) :
    (execute handle env program state).Mirrors same (execute answer env program other) := by
  rw [execute_eq_play, execute_eq_play]
  apply (replay_mirrors handled (script env program).events related).andThen
  intro next follow reached
  exact ⟨reached, rfl⟩

end Execution

namespace Machine

variable {same : World → World → Prop}

/-- Two machines with related worlds that have counted the same steps and kept the same log. -/
structure Alongside (same : World → World → Prop) (first second : Machine) : Prop where
  world : same first.world second.world
  steps : first.steps = second.steps
  log : first.log = second.log

section Commands

variable (kept : ∀ primitive world other, same world other →
  same (world.perform primitive) (other.perform primitive))

include kept

theorem Alongside.absorb {first second : Machine} (alongside : Alongside same first second) (event : Event) :
    Alongside same (first.absorb event) (second.absorb event) := by
  obtain ⟨world, steps, log⟩ := alongside
  cases event with
  | act primitive => exact ⟨kept primitive _ _ world, congrArg (· + 1) steps, log⟩
  | iteration => exact ⟨world, congrArg (· + 1) steps, log⟩
  | call name args depth => exact ⟨world, steps, congrArg (List.cons (Note.call name args depth)) log⟩
  | loop count size depth => exact ⟨world, steps, congrArg (List.cons (Note.loop count size depth)) log⟩
  | cut depth => exact ⟨world, steps, log⟩

theorem Alongside.handle {first second : Machine} (alongside : Alongside same first second)
    (budget : Option Int) (event : Event) :
    (handle budget event first).Mirrors (Alongside same) (handle budget event second) := by
  have absorbed := alongside.absorb kept event
  rw [handle_eq, handle_eq]
  cases budget with
  | none => exact .done absorbed
  | some limit =>
    dsimp only
    rw [alongside.steps]
    split_ifs
    · exact .stop ⟨alongside.world, rfl, alongside.log⟩ _
    · exact .done absorbed

/-- A relation between worlds that every command keeps is kept by runs, which take the same course. -/
theorem Alongside.run {first second : Machine} (alongside : Alongside same first second) (env : Env)
    (budget : Option Int) (program : List Token) :
    (first.run env budget program).Mirrors (Alongside same) (second.run env budget program) := by
  apply Execution.execute_mirrors _ env program alongside
  intro event state other related
  exact related.handle kept budget event

end Commands

end Machine

/-- Where a robot stands, and which way it faces. -/
structure Pose where
  row : Nat
  col : Nat
  heading : Heading
deriving DecidableEq, Repr

namespace World

def pose (world : World) : Pose := ⟨world.row, world.col, world.heading⟩

/-- Robots in the same pose on grids of the same shape, whatever the cells are. -/
structure SamePose (world other : World) : Prop where
  shape : world.grid.shape = other.grid.shape
  pose : world.pose = other.pose

theorem SamePose.perform {world other : World} (same : SamePose world other) (primitive : Primitive) :
    SamePose (world.perform primitive) (other.perform primitive) := by
  refine ⟨?_, ?_⟩
  · rw [shape_perform, shape_perform, same.shape]
  · obtain ⟨shape, pose⟩ := same
    obtain ⟨height, width⟩ := Prod.mk.inj shape
    obtain ⟨row, col, heading⟩ := Pose.mk.inj pose
    cases primitive with
    | left => simp only [World.pose, World.perform, turnLeft, row, col, heading]
    | right => simp only [World.pose, World.perform, turnRight, row, col, heading]
    | forward => simp only [World.pose, World.perform, moveForward, row, col, heading, height, width]
    | light => exact pose

end World

namespace Machine

/-- What a map shows has no influence on the course of a run. From any two worlds a run has the same end,
counts the same steps and keeps the same log; and if the grids have the same shape and the robots the same
pose, they end in the same pose, whatever the cells contain. -/
theorem run_same_course (machine : Machine) (other : World) (env : Env) (budget : Option Int)
    (program : List Token) :
    let first := machine.run env budget program
    let second := { machine with world := other }.run env budget program
    first.fault = second.fault ∧ first.state.steps = second.state.steps ∧
      first.state.log = second.state.log ∧
      (machine.world.grid.shape = other.grid.shape → machine.world.pose = other.pose →
        first.state.world.pose = second.state.world.pose) := by
  intro first second
  have anyhow : Alongside (fun _ _ => True) machine { machine with world := other } := ⟨trivial, rfl, rfl⟩
  have course := anyhow.run (fun _ _ _ _ => trivial) env budget program
  refine ⟨course.fault, course.state.steps, course.state.log, fun shape pose => ?_⟩
  have alike : Alongside World.SamePose machine { machine with world := other } := ⟨⟨shape, pose⟩, rfl, rfl⟩
  exact (alike.run (fun primitive _ _ same => same.perform primitive) env budget program).state.world.pose

/-- A robot at the left end of a row of three dark lamps. -/
private def darkRow : World := ⟨⟨["...".toList]⟩, 0, 0, .right⟩

/-- The same robot on a row with a lit lamp, a cell without a lamp and a lamp of the other kind. -/
private def mixedRow : World := ⟨⟨["x#O".toList]⟩, 0, 0, .right⟩

/-- Lamps are switched on the way around the row, one of them twice, and the call after the loop stops the
run. -/
private def lightsAndCall : List Token :=
  ["REPEAT 4".toList, "FORWARD".toList, "LIGHT".toList, "ENDREPEAT".toList, "CALL NOWHERE".toList]

/-- The cells end up in different states, and the runs cannot be told apart otherwise. -/
theorem run_same_course_on_two_rows :
    let first := (start darkRow).run ⟨.empty, 3, 450⟩ (some 20) lightsAndCall
    let second := (start mixedRow).run ⟨.empty, 3, 450⟩ (some 20) lightsAndCall
    darkRow.grid.shape = mixedRow.grid.shape ∧ darkRow.pose = mixedRow.pose ∧
      first.fault = some (.undefined "NOWHERE".toList) ∧ first.state.steps = 12 ∧
      first.state.world.grid ≠ second.state.world.grid ∧
      first.fault = second.fault ∧ first.state.steps = second.state.steps ∧
      first.state.log = second.state.log ∧ first.state.world.pose = second.state.world.pose := by
  intro first second
  have shape : darkRow.grid.shape = mixedRow.grid.shape := by decide +kernel
  have pose : darkRow.pose = mixedRow.pose := by decide +kernel
  obtain ⟨fault, steps, log, ends⟩ :=
    run_same_course (start darkRow) mixedRow ⟨.empty, 3, 450⟩ (some 20) lightsAndCall
  exact ⟨shape, pose, by decide +kernel, by decide +kernel, by decide +kernel, fault, steps, log,
    ends shape pose⟩

end Machine

end Lamplighter
