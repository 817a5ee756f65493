import Lamplighter.Proofs.Phases

/-! # Starting over

A reset takes a session back to how it started, whatever was done with it before, except that it keeps the
functions of the last run. These are never seen at work: a run either is refused for its nesting, before
anything is looked up, or puts its own functions in their place. A session after a reset therefore answers
every sequence of runs and resets as a new one does.
-/

namespace Lamplighter

namespace Session

/-- What an action answers: the result of a run, or the world that a reset puts back. -/
inductive Answer where
  | ran (result : Except Fault Summary)
  | restored (result : Except WorldFault World)

/-- What is seen of an action: its answer, its log, and the world after it, which says where the robot
stands, which way it faces and what the map shows. -/
structure Observation where
  answer : Answer
  log : List Note
  world : World

def observe (session : Session) (action : Action) : Observation :=
  match action with
  | .run program =>
    let report := session.run program
    ⟨.ran report.result, report.log, report.session.world⟩
  | .reset => ⟨.restored (session.world.restore session.initial), resetLog, session.reset.world⟩

def observations (session : Session) : List Action → List Observation
  | [] => []
  | action :: actions => session.observe action :: (session.after action).observations actions

/-- The functions of earlier runs make no difference to a run that passes the nesting check. -/
theorem run_of_passesNesting {session : Session} {program : List Text} (table : FunctionTable)
    (passed : session.PassesNesting (Token.normalize program)) :
    run { session with functions := table } program = session.run program := by
  have nested := (session.checkNesting_eq_ok_iff _).mpr passed
  have same : checkNesting { session with functions := table } (Token.normalize program) = .ok () := nested
  simp only [run, nested, same]

/-- A run that does not pass leaves everything as it was. -/
theorem exists_run_of_not_passesNesting {session : Session} {program : List Text}
    (refused : ¬ session.PassesNesting (Token.normalize program)) :
    ∃ fault, ∀ table, run { session with functions := table } program =
      ⟨{ session with functions := table }, .error fault, []⟩ := by
  cases nested : session.checkNesting (Token.normalize program) with
  | ok _ => exact absurd ((session.checkNesting_eq_ok_iff _).mp nested) refused
  | error fault =>
    refine ⟨fault, fun table => ?_⟩
    have same : checkNesting { session with functions := table } (Token.normalize program) = .error fault :=
      nested
    exact run_of_nesting_error same

/-- Two sessions that differ at most in their functions. -/
def SameButFunctions (first second : Session) : Prop := ∃ table, first = { second with functions := table }

namespace SameButFunctions

variable {first second : Session}

theorem observe (same : SameButFunctions first second) (action : Action) :
    first.observe action = second.observe action := by
  obtain ⟨table, rfl⟩ := same
  cases action with
  | reset =>
    simp only [Session.observe, reset]
    split <;> rfl
  | run program =>
    simp only [Session.observe]
    by_cases passed : second.PassesNesting (Token.normalize program)
    · rw [run_of_passesNesting table passed]
    · obtain ⟨fault, refused⟩ := exists_run_of_not_passesNesting passed
      rw [refused table, refused second.functions]

theorem after (same : SameButFunctions first second) (action : Action) :
    SameButFunctions (first.after action) (second.after action) := by
  obtain ⟨table, rfl⟩ := same
  cases action with
  | reset =>
    refine ⟨table, ?_⟩
    simp only [Session.after, reset]
    split <;> rfl
  | run program =>
    simp only [Session.after]
    by_cases passed : second.PassesNesting (Token.normalize program)
    · rw [run_of_passesNesting table passed]
      exact ⟨_, rfl⟩
    · obtain ⟨fault, refused⟩ := exists_run_of_not_passesNesting passed
      rw [refused table, refused second.functions]
      exact ⟨table, rfl⟩

theorem foldl_after (same : SameButFunctions first second) (actions : List Action) :
    SameButFunctions (actions.foldl Session.after first) (actions.foldl Session.after second) := by
  induction actions generalizing first second with
  | nil => exact same
  | cons action actions ih => exact ih (same.after action)

/-- Sessions that differ in their functions only cannot be told apart by what is seen of them. -/
theorem observations (same : SameButFunctions first second) (actions : List Action) :
    first.observations actions = second.observations actions := by
  induction actions generalizing first second with
  | nil => rfl
  | cons action actions ih => exact congrArg₂ List.cons (same.observe action) (ih (same.after action))

/-- A run that passes the nesting check makes them the same. -/
theorem after_run (same : SameButFunctions first second) {program : List Text}
    (passed : second.PassesNesting (Token.normalize program)) :
    first.after (.run program) = second.after (.run program) := by
  obtain ⟨table, rfl⟩ := same
  exact congrArg Report.session (run_of_passesNesting table passed)

end SameButFunctions

theorem start_eq_ok {settings : Settings} {stack : Nat} {rows : List Text} {fresh : Session}
    (started : start settings stack rows = .ok fresh) :
    ∃ world, World.load rows = .ok world ∧ fresh = ⟨settings, world, world.snapshot, .empty, stack⟩ := by
  unfold start at started
  cases loaded : World.load rows with
  | error fault =>
    rw [loaded] at started
    cases started
  | ok world =>
    rw [loaded] at started
    cases started
    exact ⟨world, rfl, rfl⟩

theorem session_foldl_after (actions : List Action) (chronicle : Chronicle) :
    (actions.foldl Chronicle.after chronicle).session = actions.foldl after chronicle.session := by
  induction actions generalizing chronicle with
  | nil => rfl
  | cons action actions ih =>
    rw [List.foldl_cons, List.foldl_cons, ih]
    cases action <;> rfl

/-- The world of the start can always be put back. -/
theorem restore_foldl_after {settings : Settings} {stack : Nat} {rows : List Text} {fresh : Session}
    (started : start settings stack rows = .ok fresh) (actions : List Action) :
    let reached := actions.foldl after fresh
    reached.world.restore reached.initial = .ok fresh.world := by
  intro reached
  obtain ⟨world, loaded, rfl⟩ := start_eq_ok started
  have valid := World.load_valid loaded
  have begun : Chronicle.Accounted world ⟨⟨settings, world, world.snapshot, .empty, stack⟩, []⟩ :=
    ⟨rfl, .refl valid⟩
  have accounted := begun.foldl_after valid actions
  have shape := accounted.follows.shape
  have initial := accounted.initial
  rw [session_foldl_after] at shape initial
  rw [initial]
  exact if_pos shape.symm

/-- Whatever was done with a session, a reset puts back the world of its start, and from then on every
sequence of actions shows what it shows on a new session: the same results, faults, logs and worlds, action
by action. After the first run that passes the nesting check the two are the same session, functions
included. -/
theorem reset_starts_over {settings : Settings} {stack : Nat} {rows : List Text} {fresh : Session}
    (started : start settings stack rows = .ok fresh) (earlier : List Action) :
    let reached := earlier.foldl after fresh
    let again := reached.after .reset
    reached.world.restore reached.initial = .ok fresh.world ∧ again.world = fresh.world ∧
      (∀ later, again.observations later = fresh.observations later) ∧
      ∀ before program rest, fresh.PassesNesting (Token.normalize program) →
        (before ++ .run program :: rest).foldl after again =
          (before ++ .run program :: rest).foldl after fresh := by
  intro reached again
  have restored := restore_foldl_after started earlier
  have setup : SameSetup reached fresh := fresh.sameSetup_foldl_after earlier
  have put : again = { reached with world := fresh.world } := by
    simp only [again, after, reset]
    rw [restored]
  have same : SameButFunctions again fresh := by
    refine ⟨reached.functions, ?_⟩
    rw [put, ← setup.settings, ← setup.initial, ← setup.stack]
  refine ⟨restored, by rw [put], same.observations, fun before program rest passed => ?_⟩
  have meanwhile := same.foldl_after before
  have kept := (fresh.sameSetup_foldl_after before).settings
  have passes : (before.foldl after fresh).PassesNesting (Token.normalize program) := by
    rw [PassesNesting, kept]
    exact passed
  rw [List.foldl_append, List.foldl_append, List.foldl_cons, List.foldl_cons, meanwhile.after_run passes]

/-- A run that defines a function and stops at a call of another. -/
private def failedCall : List Action :=
  [.run ["FUNCTION F".toList, "LIGHT".toList, "ENDFUNCTION".toList, "CALL F".toList, "FORWARD".toList,
    "CALL G".toList]]

/-- A run that is refused for its nesting, and one that calls the function of another session. -/
private def refusedThenCall : List Action :=
  [.run ["ENDREPEAT".toList], .run ["FORWARD".toList, "CALL F".toList]]

/-- The functions of the failed run outlast the reset and a refused run, and still are of no use to a
program that calls one of them. -/
theorem reset_starts_over_after_failed_call :
    let fresh : Session :=
      ⟨{}, ⟨⟨["..#".toList]⟩, 0, 0, .right⟩, ⟨⟨["..#".toList]⟩, 0, 0, .right⟩, .empty, 450⟩
    let again := (failedCall.foldl after fresh).after .reset
    start {} 450 ["R.#".toList] = .ok fresh ∧ (failedCall.foldl after fresh).world ≠ fresh.world ∧
      again.functions ≠ fresh.functions ∧ again.world = fresh.world ∧
      again.observations refusedThenCall = fresh.observations refusedThenCall ∧
      refusedThenCall.foldl after again = refusedThenCall.foldl after fresh := by
  intro fresh again
  have started : start {} 450 ["R.#".toList] = .ok fresh := rfl
  obtain ⟨_, world, observed, met⟩ := reset_starts_over started failedCall
  exact ⟨started, by decide +kernel, by decide +kernel, world, observed refusedThenCall,
    met [.run ["ENDREPEAT".toList]] ["FORWARD".toList, "CALL F".toList] [] fun _ => rfl⟩

end Session

end Lamplighter
