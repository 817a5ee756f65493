import Lamplighter.Proofs.Lamps

/-! # What a run leaves behind

A session takes a program through four phases: the nesting of its scopes is checked, its functions are
collected, its calls are checked for recursion, and it is executed. Each phase can stop the run, and each
leaves something else behind. Only the last one changes the world, by the commands that were carried out
until the run came to its end or was stopped. The settings and the snapshot of the start never change.
-/

namespace Lamplighter

open Execution (Moment replay moments)

namespace Execution

variable {σ : Type}

/-- What is let happen are the first of the events, in their order. -/
theorem map_event_moments_isPrefix (handle : Event → σ → Run σ) (events : List Event) (state : σ) :
    (moments handle events state).map (·.event) <+: events := by
  induction events generalizing state with
  | nil => exact List.prefix_rfl
  | cons event events ih =>
    rcases handled : handle event state with ⟨next, _ | fault⟩
    · rw [moments_cons_of_done handled, List.map_cons]
      exact (List.prefix_cons_inj event).mpr (ih next)
    · rw [moments_cons_of_stop handled]
      exact List.nil_prefix

end Execution

def commandsOf (moments : List (Moment Machine)) : List Primitive := moments.filterMap (·.event.primitive?)

theorem commandsOf_eq (moments : List (Moment Machine)) :
    commandsOf moments = (moments.map (·.event)).filterMap Event.primitive? := by
  rw [commandsOf, List.filterMap_map]
  rfl

namespace Machine

variable (budget : Option Int)

/-- Nothing but the commands that are carried out changes the world. -/
theorem world_replay (events : List Event) (machine : Machine) :
    (replay (handle budget) events machine).state.world =
      (commandsOf (moments (handle budget) events machine)).foldl World.perform machine.world := by
  induction events generalizing machine with
  | nil => rfl
  | cons event events ih =>
    rcases handle_cases budget event machine with accepted | ⟨limit, _, refused⟩
    · rw [Execution.replay_cons_of_done accepted, Execution.moments_cons_of_done accepted, ih]
      cases event <;> rfl
    · rw [Execution.replay_cons_of_stop refused, Execution.moments_cons_of_stop refused]
      rfl

variable (machine : Machine) (env : Env) (program : List Token)

theorem world_run : (machine.run env budget program).state.world =
    (commandsOf (machine.history env budget program)).foldl World.perform machine.world := by
  rw [run_eq_play, Script.state_play, world_replay, history, Execution.history_eq_moments]

/-- The commands that are carried out are the first of those in the script of the program. -/
theorem commandsOf_history_isPrefix : commandsOf (machine.history env budget program) <+:
    (Execution.script env program).events.filterMap Event.primitive? := by
  rw [commandsOf_eq, history, Execution.history_eq_moments]
  exact (Execution.map_event_moments_isPrefix _ _ _).filterMap _

/-- All of them are carried out unless the budget is exceeded. -/
theorem commandsOf_history_of_within
    (within : ∀ limit, (machine.run env budget program).fault ≠ some (.budget limit)) :
    commandsOf (machine.history env budget program) =
      (Execution.script env program).events.filterMap Event.primitive? := by
  rw [commandsOf_eq, history, Execution.history_eq_moments]
  rcases replay_cases budget (Execution.script env program).events machine with
    ⟨_, whole⟩ | ⟨limit, state, _, stopped⟩
  · rw [whole]
  · refine absurd ?_ (within limit)
    rw [run_eq_play, Script.play, stopped, Run.andThen_stop]
    rfl

end Machine

/-- What the recursion check has against a program with the given functions: a call that cannot be read, or
recursive functions. -/
inductive CallGraph.Objection (program : List Token) (table : FunctionTable) : Fault → Prop where
  | unread {malformed : Malformed} (undrawn : CallGraph.ofProgram program table = .error malformed) :
    Objection program table (.malformed malformed)
  | recursive {graph : CallGraph} (drawn : CallGraph.ofProgram program table = .ok graph)
    (named : graph.recursiveNames ≠ []) : Objection program table (.recursive graph.recursiveNames)

namespace Session

variable (session : Session)

/-- The nesting of a program is in order, or the settings do not ask for that. -/
def PassesNesting (tokens : List Token) : Prop :=
  session.settings.validateNesting = true → Nesting.check tokens = .ok ()

theorem checkNesting_eq_ok_iff (tokens : List Token) :
    session.checkNesting tokens = .ok () ↔ session.PassesNesting tokens := by
  unfold checkNesting PassesNesting
  cases session.settings.validateNesting with
  | false => simp
  | true =>
    cases Nesting.check tokens with
    | ok _ => simp [Except.mapError]
    | error malformed => simp [Except.mapError]

theorem checkRecursion_eq_error_iff (tokens : List Token) (fault : Fault) :
    session.checkRecursion tokens = .error fault ↔
      session.settings.rejectRecursion = true ∧ CallGraph.Objection tokens session.functions fault := by
  unfold checkRecursion
  cases session.settings.rejectRecursion with
  | false => simp
  | true =>
    simp only [if_true, true_and]
    constructor
    · intro refused
      split at refused
      · cases refused
        exact .unread ‹_›
      · split at refused
        · cases refused
        · rename_i graph drawn names named
          cases refused
          exact .recursive drawn named
    · rintro (undrawn | ⟨drawn, named⟩)
      · simp only [undrawn]
      · simp only [drawn]

section Run

variable {session} {program : List Text} {fault : Fault} {table : FunctionTable}

theorem run_of_nesting_error (refused : session.checkNesting (Token.normalize program) = .error fault) :
    session.run program = ⟨session, .error fault, []⟩ := by
  simp only [run, refused]

theorem run_of_table_error {malformed : Malformed} (passed : session.PassesNesting (Token.normalize program))
    (unread : FunctionTable.ofProgram (Token.normalize program) = .error malformed) :
    session.run program = ⟨{ session with functions := .empty }, .error (.malformed malformed), []⟩ := by
  simp only [run, (session.checkNesting_eq_ok_iff _).mpr passed, unread]

theorem run_of_refused (passed : session.PassesNesting (Token.normalize program))
    (built : FunctionTable.ofProgram (Token.normalize program) = .ok table)
    (refused : checkRecursion { session with functions := table } (Token.normalize program) = .error fault) :
    session.run program = ⟨{ session with functions := table }, .error fault, []⟩ := by
  simp only [run, (session.checkNesting_eq_ok_iff _).mpr passed, built, refused]

theorem run_of_accepted (passed : session.PassesNesting (Token.normalize program))
    (built : FunctionTable.ofProgram (Token.normalize program) = .ok table)
    (accepted : checkRecursion { session with functions := table } (Token.normalize program) = .ok ()) :
    session.run program = execute { session with functions := table } (Token.normalize program) := by
  simp only [run, (session.checkNesting_eq_ok_iff _).mpr passed, built, accepted]

theorem run_of_objection (passed : session.PassesNesting (Token.normalize program))
    (built : FunctionTable.ofProgram (Token.normalize program) = .ok table)
    (rejects : session.settings.rejectRecursion = true)
    (objection : CallGraph.Objection (Token.normalize program) table fault) :
    session.run program = ⟨{ session with functions := table }, .error fault, []⟩ := by
  apply run_of_refused passed built
  exact (checkRecursion_eq_error_iff { session with functions := table } _ fault).mpr ⟨rejects, objection⟩

/-- A program that no check has anything against is executed with its functions. -/
theorem run_of_checked (passed : session.PassesNesting (Token.normalize program))
    (built : FunctionTable.ofProgram (Token.normalize program) = .ok table)
    (clear : session.settings.rejectRecursion = true →
      ∀ fault, ¬ CallGraph.Objection (Token.normalize program) table fault) :
    let ready := { session with functions := table }
    session.run program = ready.execute (Token.normalize program) ∧
      session.history program = (ready.machine (Token.normalize program)).history ready.env
        ready.settings.maxSteps (Token.normalize program) := by
  intro ready
  have accepted : ready.checkRecursion (Token.normalize program) = .ok () := by
    cases checked : ready.checkRecursion (Token.normalize program) with
    | ok _ => rfl
    | error fault =>
      obtain ⟨rejects, objection⟩ := (checkRecursion_eq_error_iff ready _ fault).mp checked
      exact absurd objection (clear rejects fault)
  refine ⟨run_of_accepted passed built accepted, ?_⟩
  simp only [history, (session.checkNesting_eq_ok_iff _).mpr passed, built, ready, accepted]

/-- A program whose functions are collected is refused by a check, and leaves no trace, or it is executed with
its functions. -/
theorem run_of_built (built : FunctionTable.ofProgram (Token.normalize program) = .ok table) :
    (session.run program).log = [] ∧ session.history program = [] ∨
      session.PassesNesting (Token.normalize program) ∧
        let ready := { session with functions := table }
        session.run program = ready.execute (Token.normalize program) ∧
          session.history program = (ready.machine (Token.normalize program)).history ready.env
            ready.settings.maxSteps (Token.normalize program) := by
  cases nesting : session.checkNesting (Token.normalize program) with
  | error fault => exact .inl (by simp only [history, run, nesting, and_self])
  | ok _ =>
    cases recursion : checkRecursion { session with functions := table } (Token.normalize program) with
    | error fault => exact .inl (by simp only [history, run, nesting, built, recursion, and_self])
    | ok _ =>
      refine .inr ⟨(session.checkNesting_eq_ok_iff _).mp nesting, ?_⟩
      simp only [history, run, nesting, built, recursion, and_self]

/-- What happens in a run is the first part of the script of its program. -/
theorem map_event_history_isPrefix
    (built : FunctionTable.ofProgram (Token.normalize program) = .ok table) :
    (session.history program).map (·.event) <+:
      (Execution.script ⟨table, session.settings.maxDepth, session.stack⟩
        (Token.normalize program)).events := by
  rcases session.run_of_built built with ⟨_, idle⟩ | ⟨_, _, happened⟩
  · rw [idle]
    exact List.nil_prefix
  · rw [happened, Machine.history, Execution.history_eq_moments]
    exact Execution.map_event_moments_isPrefix _ _ _

end Run

def after (session : Session) : Action → Session
  | .run program => (session.run program).session
  | .reset => session.reset

/-- Two sessions that agree on what no action changes. -/
structure SameSetup (first second : Session) : Prop where
  settings : first.settings = second.settings
  initial : first.initial = second.initial
  stack : first.stack = second.stack

theorem SameSetup.trans {first second third : Session} (same : SameSetup first second)
    (next : SameSetup second third) : SameSetup first third :=
  ⟨same.settings.trans next.settings, same.initial.trans next.initial, same.stack.trans next.stack⟩

theorem sameSetup_after (action : Action) : SameSetup (session.after action) session := by
  cases action with
  | reset =>
    unfold after reset
    dsimp only
    split <;> exact ⟨rfl, rfl, rfl⟩
  | run program =>
    rw [after]
    unfold run
    dsimp only
    split
    · exact ⟨rfl, rfl, rfl⟩
    · split
      · exact ⟨rfl, rfl, rfl⟩
      · split
        · exact ⟨rfl, rfl, rfl⟩
        · rw [execute_session]
          exact ⟨rfl, rfl, rfl⟩

theorem sameSetup_foldl_after (actions : List Action) :
    SameSetup (actions.foldl after session) session := by
  induction actions generalizing session with
  | nil => exact ⟨rfl, rfl, rfl⟩
  | cons action actions ih => exact (ih (session.after action)).trans (session.sameSetup_after action)

/-- A run that was executed is stopped by what stops its machine. -/
theorem execute_error_iff (tokens : List Token) (fault : Fault) :
    (session.execute tokens).result = .error fault ↔
      ((session.machine tokens).run session.env session.settings.maxSteps tokens).fault = some fault := by
  unfold execute
  dsimp only
  rw [← machine]
  generalize (session.machine tokens).run session.env session.settings.maxSteps tokens = ran
  rcases ran with ⟨machine, _ | cause⟩
  · simp
  · simp

/-- What a run leaves behind, phase by phase. A program that fails the nesting check leaves the session as it
was; one with a definition that cannot be read takes away the functions. Any other program puts its own
functions in their place, and leaves the world alone if the recursion check has something against it. If it
has not, the commands that were carried out have changed the world: the first of the program's script, and
all of them unless the budget was exceeded. No action changes the settings and the snapshot of the start. -/
theorem run_leaves_behind (program : List Text) :
    let tokens := Token.normalize program
    let ran := session.run program
    let left := ran.session
    (∀ actions : List Action, (actions.foldl after session).settings = session.settings ∧
        (actions.foldl after session).initial = session.initial) ∧
      (∀ malformed, session.settings.validateNesting = true → Nesting.check tokens = .error malformed →
        ran.result = .error (.malformed malformed) ∧ left.functions = session.functions ∧
          left.world = session.world) ∧
      (session.PassesNesting tokens →
        (∀ malformed, FunctionTable.ofProgram tokens = .error malformed →
          ran.result = .error (.malformed malformed) ∧ left.functions = .empty ∧ left.world = session.world) ∧
        ∀ table, FunctionTable.ofProgram tokens = .ok table → left.functions = table ∧
          (∀ fault, session.settings.rejectRecursion = true → CallGraph.Objection tokens table fault →
            ran.result = .error fault ∧ left.world = session.world) ∧
          ((session.settings.rejectRecursion = true → ∀ fault, ¬ CallGraph.Objection tokens table fault) →
            let scripted := (Execution.script ⟨table, session.settings.maxDepth, session.stack⟩
              tokens).events.filterMap Event.primitive?
            let executed := commandsOf (session.history program)
            left.world = executed.foldl World.perform session.world ∧ executed <+: scripted ∧
              ((∀ limit, ran.result ≠ .error (.budget limit)) → executed = scripted))) := by
  intro tokens ran left
  refine ⟨fun actions => ?_, fun malformed validates disorder => ?_, fun passed => ⟨?_, ?_⟩⟩
  · have same := session.sameSetup_foldl_after actions
    exact ⟨same.settings, same.initial⟩
  · have refused : session.checkNesting tokens = .error (.malformed malformed) := by
      rw [checkNesting, if_pos validates, disorder]
      rfl
    have stopped : ran = ⟨session, .error (.malformed malformed), []⟩ := run_of_nesting_error refused
    simp only [left, stopped, and_self]
  · intro malformed unread
    have stopped : ran = ⟨{ session with functions := .empty }, .error (.malformed malformed), []⟩ :=
      run_of_table_error passed unread
    simp only [left, stopped, and_self]
  · intro table built
    by_cases refused : session.settings.rejectRecursion = true ∧
      ∃ fault, CallGraph.Objection tokens table fault
    · obtain ⟨rejects, fault, objection⟩ := refused
      have stopped {fault : Fault} (objection : CallGraph.Objection tokens table fault) :
          ran = ⟨{ session with functions := table }, .error fault, []⟩ :=
        run_of_objection passed built rejects objection
      refine ⟨?_, fun fault _ objection => ?_, fun clear => absurd objection (clear rejects fault)⟩
      · simp only [left, stopped objection]
      · simp only [left, stopped objection, and_self]
    · have clear (rejects : session.settings.rejectRecursion = true) (fault : Fault) :
          ¬ CallGraph.Objection tokens table fault := fun objection => refused ⟨rejects, fault, objection⟩
      obtain ⟨executes, happened⟩ := run_of_checked passed built clear
      have reached : ran = Session.execute { session with functions := table } tokens := executes
      have functions : left.functions = table := by
        simp only [left, reached, execute_session]
      refine ⟨functions, fun fault rejects objection => absurd objection (clear rejects fault), fun _ => ?_⟩
      rw [happened]
      refine ⟨?_, Machine.commandsOf_history_isPrefix _ _ _ _, fun within => ?_⟩
      · simp only [left, reached, execute_session, Machine.world_run]
        rfl
      · apply Machine.commandsOf_history_of_within
        intro limit exceeded
        apply within limit
        rw [reached, execute_error_iff]
        exact exceeded

/-- A robot at the left end of a row of lamps, with a budget of three steps and a function of an earlier
run. -/
private def lampRow : Session :=
  ⟨{ maxSteps := some 3 }, ⟨⟨["....".toList]⟩, 0, 0, .right⟩, ⟨⟨["....".toList]⟩, 0, 0, .right⟩,
    ⟨[⟨"OLD".toList, [], []⟩]⟩, 450⟩

/-- A closer too many. -/
private def crossedProgram : List Text := ["LIGHT".toList, "ENDREPEAT".toList]

private def namelessProgram : List Text := ["LIGHT".toList, "FUNCTION ()".toList, "ENDFUNCTION".toList]

private def endlessProgram : List Text :=
  ["LIGHT".toList, "FUNCTION F".toList, "CALL F".toList, "ENDFUNCTION".toList, "CALL F".toList]

private def longProgram : List Text :=
  ["LIGHT".toList, "FUNCTION F".toList, "ENDFUNCTION".toList, "FORWARD".toList, "LIGHT".toList, "LEFT".toList]

/-- One program for each phase; the last one takes a step more than the budget has. -/
theorem run_leaves_behind_in_each_phase :
    let crossed := (lampRow.run crossedProgram).session
    let nameless := (lampRow.run namelessProgram).session
    let endless := (lampRow.run endlessProgram).session
    let long := (lampRow.run longProgram).session
    (crossed.functions = lampRow.functions ∧ crossed.world = lampRow.world) ∧
      (nameless.functions = .empty ∧ nameless.world = lampRow.world) ∧
      (endless.functions = ⟨[⟨"F".toList, [], ["CALL F".toList]⟩]⟩ ∧ endless.world = lampRow.world) ∧
      (lampRow.run longProgram).result = .error (.budget 3) ∧ long.functions = ⟨[⟨"F".toList, [], []⟩]⟩ ∧
        long.world =
          [Primitive.light, Primitive.forward, Primitive.light].foldl World.perform lampRow.world := by
  intro crossed nameless endless long
  obtain ⟨_, disorder, _⟩ := lampRow.run_leaves_behind crossedProgram
  obtain ⟨_, _, unread⟩ := lampRow.run_leaves_behind namelessProgram
  obtain ⟨_, _, defined⟩ := lampRow.run_leaves_behind endlessProgram
  obtain ⟨_, _, checked⟩ := lampRow.run_leaves_behind longProgram
  have unopened : Nesting.check (Token.normalize crossedProgram) = .error ⟨.unopened .loop, some 1⟩ := rfl
  have missing : FunctionTable.ofProgram (Token.normalize namelessProgram) =
      .error ⟨.missingName "FUNCTION ()".toList, some 1⟩ := rfl
  obtain ⟨functions, objected, _⟩ := (defined fun _ => rfl).2 ⟨[⟨"F".toList, [], ["CALL F".toList]⟩]⟩ rfl
  have cycle : CallGraph.ofProgram (Token.normalize endlessProgram) ⟨[⟨"F".toList, [], ["CALL F".toList]⟩]⟩ =
      .ok ⟨["<main>".toList, "F".toList], [("<main>".toList, "F".toList), ("F".toList, "F".toList)]⟩ := rfl
  obtain ⟨taken, _, ran⟩ := (checked fun _ => rfl).2 ⟨[⟨"F".toList, [], []⟩]⟩ rfl
  have uncalled : CallGraph.ofProgram (Token.normalize longProgram) ⟨[⟨"F".toList, [], []⟩]⟩ =
      .ok ⟨["<main>".toList, "F".toList], []⟩ := rfl
  have clear (fault : Fault) :
      ¬ CallGraph.Objection (Token.normalize longProgram) ⟨[⟨"F".toList, [], []⟩]⟩ fault := by
    rintro (undrawn | ⟨drawn, named⟩)
    · rw [uncalled] at undrawn
      cases undrawn
    · rw [uncalled] at drawn
      cases drawn
      exact named (by decide +kernel)
  have three : commandsOf (lampRow.history longProgram) = [.light, .forward, .light] := by decide +kernel
  refine ⟨(disorder _ rfl unopened).2, ((unread fun _ => rfl).1 _ missing).2,
    ⟨functions, (objected _ rfl (.recursive cycle (by decide +kernel))).2⟩, rfl, taken, ?_⟩
  rw [← three]
  exact (ran fun _ => clear).1

end Session

end Lamplighter
