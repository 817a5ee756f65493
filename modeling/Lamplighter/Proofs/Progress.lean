import Lamplighter.Machine
import Lamplighter.Proofs.Script

/-! # A machine on its way through a script

What a machine makes of each event, and of many: it takes up the events in their order, counting steps,
acting on its world and keeping its log, and the only thing that can stop it is its budget. A run of a
program is its way through the script of the program.
-/

namespace Lamplighter

namespace Event

def isCounted : Event → Bool
  | .act _ => true
  | .iteration => true
  | _ => false

def primitive? : Event → Option Primitive
  | .act primitive => some primitive
  | _ => none

/-- Every command is counted. -/
theorem filterMap_primitive?_filter (events : List Event) :
    (events.filter isCounted).filterMap primitive? = events.filterMap primitive? := by
  rw [List.filterMap_filter]
  congr
  funext event
  cases event <;> rfl

end Event

namespace Machine

open Execution (replay moments)

/-- The machine after an event that it lets happen. -/
def absorb (machine : Machine) : Event → Machine
  | .act primitive => { machine with world := machine.world.perform primitive, steps := machine.steps + 1 }
  | .iteration => { machine with steps := machine.steps + 1 }
  | .call name args depth => machine.report (.call name args depth)
  | .loop count size depth => machine.report (.loop count size depth)
  | .cut _ => machine

theorem steps_absorb (machine : Machine) (event : Event) :
    (machine.absorb event).steps = machine.steps + if event.isCounted then 1 else 0 := by
  cases event <;> rfl

/-- A machine lets every event happen, except that a budget refuses the step that goes over it: that
step is counted and nothing else. -/
theorem handle_eq (budget : Option Int) (event : Event) (machine : Machine) :
    handle budget event machine =
      match budget with
      | none => .done (machine.absorb event)
      | some limit =>
        if event.isCounted = true ∧ limit < (machine.steps + 1 : Nat) then
          .stop { machine with steps := machine.steps + 1 } (.budget limit)
        else .done (machine.absorb event) := by
  cases budget with
  | none => cases event <;> rfl
  | some limit =>
    cases event with
    | act primitive =>
      simp only [handle, count, Event.isCounted, true_and]
      split_ifs <;> rfl
    | iteration => simp only [handle, count, Event.isCounted, true_and, absorb]
    | call name args depth => rfl
    | loop count size depth => rfl
    | cut depth => rfl

/-- What a machine does on an event: it lets it happen, or refuses it for the sake of its budget. -/
theorem handle_cases (budget : Option Int) (event : Event) (machine : Machine) :
    handle budget event machine = .done (machine.absorb event) ∨
      ∃ limit, budget = some limit ∧ handle budget event machine =
        .stop { machine with steps := machine.steps + 1 } (.budget limit) := by
  rw [handle_eq]
  cases budget with
  | none => exact .inl rfl
  | some limit =>
    dsimp only
    split_ifs
    · exact .inr ⟨limit, rfl, rfl⟩
    · exact .inl rfl

section Absorbed

variable (events : List Event) (machine : Machine)

theorem steps_foldl_absorb :
    (events.foldl absorb machine).steps = machine.steps + events.countP Event.isCounted := by
  induction events generalizing machine with
  | nil => rfl
  | cons event events ih =>
    rw [List.foldl_cons, ih, steps_absorb, List.countP_cons]
    omega

theorem world_foldl_absorb :
    (events.foldl absorb machine).world =
      (events.filterMap Event.primitive?).foldl World.perform machine.world := by
  induction events generalizing machine with
  | nil => rfl
  | cons event events ih =>
    rw [List.foldl_cons, ih]
    cases event <;> rfl

theorem log_isSuffix_foldl_absorb : machine.log <:+ (events.foldl absorb machine).log := by
  induction events generalizing machine with
  | nil => exact List.suffix_rfl
  | cons event events ih =>
    refine List.IsSuffix.trans ?_ (ih (machine.absorb event))
    cases event with
    | call name args depth => exact List.suffix_cons _ _
    | loop count size depth => exact List.suffix_cons _ _
    | act primitive => exact List.suffix_rfl
    | iteration => exact List.suffix_rfl
    | cut depth => exact List.suffix_rfl

end Absorbed

/-- Events are let happen up to the last, or a budget refuses one of them. -/
theorem replay_cases (budget : Option Int) (events : List Event) (machine : Machine) :
    replay (handle budget) events machine = .done (events.foldl absorb machine) ∧
        (moments (handle budget) events machine).map (·.event) = events ∨
      ∃ limit state, budget = some limit ∧
        replay (handle budget) events machine = .stop state (.budget limit) := by
  induction events generalizing machine with
  | nil => exact .inl ⟨rfl, rfl⟩
  | cons event events ih =>
    rcases handle_cases budget event machine with accepted | ⟨limit, limited, refused⟩
    · rw [Execution.replay_cons_of_done accepted, Execution.moments_cons_of_done accepted, List.map_cons,
        List.foldl_cons, List.cons.injEq, eq_self, true_and]
      exact ih (machine.absorb event)
    · exact .inr ⟨limit, _, limited, Execution.replay_cons_of_stop refused⟩

/-- Without a budget nothing is refused. -/
theorem replay_none (events : List Event) (machine : Machine) :
    replay (handle none) events machine = .done (events.foldl absorb machine) ∧
      (moments (handle none) events machine).map (·.event) = events := by
  rcases replay_cases none events machine with whole | ⟨limit, state, limited, _⟩
  · exact whole
  · cases limited

def history (machine : Machine) (env : Env) (budget : Option Int) (program : List Token) :
    List (Execution.Moment Machine) :=
  Execution.history (handle budget) env program machine

def countedEvents (machine : Machine) (env : Env) (budget : Option Int) (program : List Token) :
    List Event :=
  ((machine.history env budget program).map (·.event)).filter Event.isCounted

/-- The worlds that a run passes through: one before each thing that happens, and the last. -/
def worlds (machine : Machine) (env : Env) (budget : Option Int) (program : List Token) : List World :=
  (machine.history env budget program).map (·.state.world) ++ [(machine.run env budget program).state.world]

theorem run_eq_play (machine : Machine) (env : Env) (budget : Option Int) (program : List Token) :
    machine.run env budget program = (Execution.script env program).play (handle budget) machine :=
  congrFun (Execution.execute_eq_play (handle budget) env program) machine

theorem countedEvents_eq (machine : Machine) (env : Env) (budget : Option Int) (program : List Token) :
    machine.countedEvents env budget program =
      ((moments (handle budget) (Execution.script env program).events machine).map (·.event)).filter
        Event.isCounted := by
  rw [countedEvents, history, Execution.history_eq_moments]

theorem countedEvents_none (machine : Machine) (env : Env) (program : List Token) :
    machine.countedEvents env none program =
      (Execution.script env program).events.filter Event.isCounted := by
  rw [countedEvents_eq, (replay_none _ machine).2]

theorem run_none (machine : Machine) (env : Env) (program : List Token) :
    machine.run env none program =
      ⟨(Execution.script env program).events.foldl absorb machine, (Execution.script env program).fault⟩ := by
  rw [run_eq_play, Script.play, (replay_none _ machine).1, Run.andThen_done]

end Machine

end Lamplighter
