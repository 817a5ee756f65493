import Lamplighter.Proofs.Invariant
import Lamplighter.Proofs.Progress
import Lamplighter.Proofs.Worlds
import Lamplighter.Session

/-! # Lamps over a whole session

A session goes on over many runs, failed ones included, and over resets. What has happened in it since it
started or was last reset tells the state of every cell: its lamp has been switched as often as a command
to switch it was carried out while the robot stood there. The grid keeps its shape all the while, and the
robot stays on it.
-/

namespace Lamplighter

open Execution (Moment)

/-- Whether a lamp command was carried out on the given cell. -/
def Execution.Moment.lights (row col : Nat) (moment : Moment Machine) : Bool :=
  moment.event = .act .light ∧ moment.state.world.row = row ∧ moment.state.world.col = col

/-- How often a lamp command was carried out on the given cell. -/
def lightsAt (row col : Nat) (moments : List (Moment Machine)) : Nat := moments.countP (·.lights row col)

/-- What can be said of a world by where it comes from and what has happened since. -/
structure World.Follows (origin : World) (moments : List (Moment Machine)) (world : World) : Prop where
  shape : world.grid.shape = origin.grid.shape
  valid : world.Valid
  cells : ∀ row col, world.grid.get row col =
    Grid.switchLamp^[lightsAt row col moments] (origin.grid.get row col)

namespace World.Follows

variable {origin world : World} {moments : List (Moment Machine)}

theorem refl (valid : origin.Valid) : Follows origin [] origin :=
  ⟨rfl, valid, fun _ _ => rfl⟩

/-- A moment that leaves the world alone switches no lamp. -/
theorem idle (follows : Follows origin moments world) {moment : Moment Machine}
    (dark : ∀ row col, moment.lights row col = false) : Follows origin (moments ++ [moment]) world := by
  refine ⟨follows.shape, follows.valid, fun row col => ?_⟩
  rw [follows.cells row col, lightsAt, lightsAt, List.countP_append, List.countP_singleton, dark row col]
  rfl

/-- A command carries the world on. -/
theorem act {machine : Machine} (follows : Follows origin moments machine.world) (primitive : Primitive) :
    Follows origin (moments ++ [⟨.act primitive, machine⟩]) (machine.world.perform primitive) := by
  refine ⟨(shape_perform _ _).trans follows.shape, follows.valid.perform primitive, fun row col => ?_⟩
  rw [get_perform, follows.cells row col, lightsAt, lightsAt, List.countP_append, List.countP_singleton]
  by_cases here : primitive = .light ∧ machine.world.row = row ∧ machine.world.col = col
  · have lit : Moment.lights row col ⟨.act primitive, machine⟩ = true := by
      simpa [Moment.lights] using here
    rw [if_pos here, lit, if_pos rfl, Function.iterate_succ_apply']
  · have dark : Moment.lights row col ⟨.act primitive, machine⟩ = false := by
      simpa [Moment.lights] using here
    rw [if_neg here, dark, if_neg Bool.false_ne_true, Nat.add_zero]

end World.Follows

namespace Machine

variable {origin : World} {earlier : List (Moment Machine)}

/-- What a machine has written down, after what happened earlier, accounts for its world. -/
private def Accounts (origin : World) (earlier : List (Moment Machine))
    (entry : Machine × List (Moment Machine)) : Prop :=
  origin.Follows (earlier ++ entry.2.reverse) entry.1.world

private theorem recording_accounts (budget : Option Int) (event : Event)
    (entry : Machine × List (Moment Machine)) (accounts : Accounts origin earlier entry) :
    Run.Meets (Accounts origin earlier) (fun _ => True) (Execution.recording (handle budget) event entry) := by
  obtain ⟨machine, written⟩ := entry
  have follows : origin.Follows (earlier ++ written.reverse) machine.world := accounts
  rcases handle_cases budget event machine with accepted | ⟨limit, _, refused⟩
  · have happened : origin.Follows (earlier ++ written.reverse ++ [⟨event, machine⟩])
        (machine.absorb event).world := by
      cases event with
      | act primitive => exact follows.act primitive
      | iteration => exact follows.idle fun _ _ => by simp [Moment.lights]
      | call name args depth => exact follows.idle fun _ _ => by simp [Moment.lights]
      | loop count size depth => exact follows.idle fun _ _ => by simp [Moment.lights]
      | cut depth => exact follows.idle fun _ _ => by simp [Moment.lights]
    rw [List.append_assoc, ← List.reverse_cons] at happened
    rw [Execution.recording, accepted]
    exact .done happened
  · rw [Execution.recording, refused]
    exact .stop follows trivial

/-- A run carries on what was known of the world before it. -/
theorem run_follows (machine : Machine) (env : Env) (budget : Option Int) (program : List Token)
    (follows : origin.Follows earlier machine.world) :
    origin.Follows (earlier ++ machine.history env budget program)
      (machine.run env budget program).state.world := by
  have start : Accounts origin earlier (machine, []) := by
    rw [Accounts, List.reverse_nil, List.append_nil]
    exact follows
  have meets : Run.Meets (Accounts origin earlier) (fun _ => True)
      (Execution.execute (Execution.recording (handle budget)) env program (machine, [])) :=
    Execution.block_meets (recording_accounts budget) (fun _ _ => trivial) trivial env.room 0 program start
  rw [Execution.execute_recording] at meets
  have reached := meets.1
  rw [Accounts, List.reverse_reverse] at reached
  exact reached

end Machine

namespace Session

/-- The machine on which a session executes tokens. -/
def machine (session : Session) (tokens : List Token) : Machine :=
  (Machine.start session.world).report (.running tokens.length session.functions.size)

/-- What happens in the run of a program, which is nothing if a check refuses the program. -/
def history (session : Session) (program : List Text) : List (Moment Machine) :=
  let tokens := Token.normalize program
  match session.checkNesting tokens with
  | .error _ => []
  | .ok () =>
    match FunctionTable.ofProgram tokens with
    | .error _ => []
    | .ok table =>
      let session := { session with functions := table }
      match session.checkRecursion tokens with
      | .error _ => []
      | .ok () => (session.machine tokens).history session.env session.settings.maxSteps tokens

theorem execute_session (session : Session) (tokens : List Token) :
    (session.execute tokens).session = { session with
      world := ((session.machine tokens).run session.env session.settings.maxSteps tokens).state.world } := by
  rw [execute]
  dsimp only
  split <;> rfl

/-- A run is refused before anything happens, or executes the tokens with the functions they define. -/
theorem run_cases (session : Session) (program : List Text) :
    (session.history program = [] ∧ (session.run program).session.world = session.world ∧
        (session.run program).session.initial = session.initial) ∨
      ∃ table, let ready := { session with functions := table }
        let tokens := Token.normalize program
        session.history program =
            (ready.machine tokens).history ready.env ready.settings.maxSteps tokens ∧
          session.run program = ready.execute tokens := by
  cases nesting : session.checkNesting (Token.normalize program) with
  | error fault => exact .inl (by simp only [history, run, nesting, and_self])
  | ok _ =>
    cases built : FunctionTable.ofProgram (Token.normalize program) with
    | error malformed => exact .inl (by simp only [history, run, nesting, built, and_self])
    | ok table =>
      cases recursion : checkRecursion { session with functions := table } (Token.normalize program) with
      | error fault => exact .inl (by simp only [history, run, nesting, built, recursion, and_self])
      | ok _ => exact .inr ⟨table, by simp only [history, run, nesting, built, recursion, and_self]⟩

/-- A run carries on what was known of the world before it, and leaves the snapshot of the start alone. -/
theorem run_follows {session : Session} {origin : World} {earlier : List (Moment Machine)}
    (follows : origin.Follows earlier session.world) (program : List Text) :
    origin.Follows (earlier ++ session.history program) (session.run program).session.world ∧
      (session.run program).session.initial = session.initial := by
  rcases session.run_cases program with ⟨idle, world, initial⟩ | ⟨table, happened, ran⟩
  · rw [idle, world, List.append_nil]
    exact ⟨follows, initial⟩
  · rw [happened, ran, execute_session]
    exact ⟨Machine.run_follows _ _ _ _ follows, rfl⟩

/-- What can be done with a session. -/
inductive Action where
  | run (program : List Text)
  | reset
deriving DecidableEq, Repr

end Session

/-- A session, and what has happened in it since it started or was last reset. -/
structure Chronicle where
  session : Session
  moments : List (Moment Machine)

namespace Chronicle

/-- The session after an action, with what has happened then. -/
def after (chronicle : Chronicle) : Session.Action → Chronicle
  | .run program =>
    ⟨(chronicle.session.run program).session, chronicle.moments ++ chronicle.session.history program⟩
  | .reset => ⟨chronicle.session.reset, []⟩

/-- The session can be put back to where it comes from, and what has happened accounts for its world. -/
structure Accounted (origin : World) (chronicle : Chronicle) : Prop where
  initial : chronicle.session.initial = origin.snapshot
  follows : origin.Follows chronicle.moments chronicle.session.world

theorem Accounted.after {origin : World} {chronicle : Chronicle} (valid : origin.Valid)
    (accounted : chronicle.Accounted origin) (action : Session.Action) :
    (chronicle.after action).Accounted origin := by
  cases action with
  | run program =>
    obtain ⟨follows, initial⟩ := Session.run_follows accounted.follows program
    exact ⟨initial.trans accounted.initial, follows⟩
  | reset =>
    have restored : chronicle.session.world.restore chronicle.session.initial = .ok origin := by
      rw [accounted.initial]
      exact if_pos accounted.follows.shape.symm
    have put : chronicle.session.reset = { chronicle.session with world := origin } := by
      rw [Session.reset, restored]
    rw [Chronicle.after, put]
    exact ⟨accounted.initial, .refl valid⟩

theorem Accounted.foldl_after {origin : World} {chronicle : Chronicle} (valid : origin.Valid)
    (accounted : chronicle.Accounted origin) (actions : List Session.Action) :
    (actions.foldl Chronicle.after chronicle).Accounted origin := by
  induction actions generalizing chronicle with
  | nil => exact accounted
  | cons action actions ih => exact ih (accounted.after valid action)

end Chronicle

namespace Session

/-- Whatever is done with a session on a map, its grid keeps the shape that the map draws, the robot stays
on it, and each cell is as the map draws it with its lamp switched once for each lamp command that was
carried out there since the start or the last reset. A cell without a lamp never changes. -/
theorem world_accounted {rows : List Text} {world : World} (loaded : World.load rows = .ok world)
    (settings : Settings) (stack : Nat) (actions : List Action) :
    ∃ session, start settings stack rows = .ok session ∧
      let reached := actions.foldl Chronicle.after ⟨session, []⟩
      let grid := reached.session.world.grid
      grid.shape = world.grid.shape ∧ reached.session.world.Valid ∧
        (∀ row col, grid.get row col =
          Grid.switchLamp^[lightsAt row col reached.moments] (world.grid.get row col)) ∧
        ∀ row col, world.grid.get row col ∉ ['.', 'x', 'O', 'X'] →
          grid.get row col = world.grid.get row col := by
  have valid := World.load_valid loaded
  refine ⟨⟨settings, world, world.snapshot, .empty, stack⟩, ?_, ?_⟩
  · rw [start, loaded]
    rfl
  · have accounted : Chronicle.Accounted world ⟨⟨settings, world, world.snapshot, .empty, stack⟩, []⟩ :=
      ⟨rfl, .refl valid⟩
    obtain ⟨shape, valid, cells⟩ := (accounted.foldl_after valid actions).follows
    refine ⟨shape, valid, cells, fun row col lampless => ?_⟩
    rw [cells, Grid.iterate_switchLamp_of_lampless lampless]

private def twoFailedRuns : List Action :=
  [.run ["LIGHT".toList, "CALL NOWHERE".toList], .reset,
    .run ["REPEAT 3".toList, "LIGHT".toList, "LEFT".toList, "ENDREPEAT".toList, "CALL NOWHERE".toList]]

/-- The robot starts on a lamp, with a cell in the row that has none. Only the three lamp commands after the
reset are accounted for. -/
theorem world_accounted_after_failed_runs :
    World.load ["R.#".toList] = .ok ⟨⟨["..#".toList]⟩, 0, 0, .right⟩ ∧
      ∃ session, start {} 450 ["R.#".toList] = .ok session ∧
        let reached := twoFailedRuns.foldl Chronicle.after ⟨session, []⟩
        let grid := reached.session.world.grid
        lightsAt 0 0 reached.moments = 3 ∧ grid.shape = (1, 3) ∧ reached.session.world.Valid ∧
          grid.get 0 0 = Grid.switchLamp^[3] '.' ∧ grid.get 0 2 = '#' := by
  have loaded : World.load ["R.#".toList] = .ok ⟨⟨["..#".toList]⟩, 0, 0, .right⟩ := rfl
  obtain ⟨session, started, shape, valid, cells, lampless⟩ := world_accounted loaded {} 450 twoFailedRuns
  have fresh : session =
      ⟨{}, ⟨⟨["..#".toList]⟩, 0, 0, .right⟩, ⟨⟨["..#".toList]⟩, 0, 0, .right⟩, .empty, 450⟩ := by
    cases started
    rfl
  have three : lightsAt 0 0 (twoFailedRuns.foldl Chronicle.after ⟨session, []⟩).moments = 3 := by
    rw [fresh]
    decide +kernel
  refine ⟨loaded, session, started, three, shape, valid, ?_, lampless 0 2 (by decide)⟩
  rw [← three]
  exact cells 0 0

end Session

end Lamplighter
