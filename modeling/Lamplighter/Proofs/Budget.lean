import Lamplighter.Proofs.Progress

/-! # Budgets

A budget does not change what a program does, only how far it comes: it cuts the counted events of the
unlimited run off after as many as it allows.
-/

namespace Lamplighter

namespace Machine

open Execution (replay moments)

section Budget

variable {limit : Nat} {events : List Event} {machine : Machine}

/-- A budget that suffices refuses nothing. -/
theorem replay_of_counted_le (enough : machine.steps + events.countP Event.isCounted ≤ limit) :
    replay (handle (some limit)) events machine = .done (events.foldl absorb machine) := by
  induction events generalizing machine with
  | nil => rfl
  | cons event events ih =>
    have absorbed := machine.steps_absorb event
    rw [List.countP_cons] at enough
    have accepted : handle (some limit) event machine = .done (machine.absorb event) := by
      rw [handle_eq]
      refine if_neg fun ⟨counted, overspent⟩ => ?_
      rw [if_pos counted] at enough
      omega
    rw [Execution.replay_cons_of_done accepted]
    exact ih (by omega)

/-- A budget that is exceeded refuses the first counted event beyond it. -/
theorem replay_of_lt_counted (fresh : machine.steps ≤ limit)
    (exceeded : limit < machine.steps + events.countP Event.isCounted) :
    ∃ before refused after, events = before ++ refused :: after ∧ refused.isCounted = true ∧
      machine.steps + before.countP Event.isCounted = limit ∧
      replay (handle (some limit)) events machine =
        .stop { before.foldl absorb machine with steps := limit + 1 } (.budget limit) := by
  induction events generalizing machine with
  | nil =>
    rw [List.countP_nil] at exceeded
    omega
  | cons event events ih =>
    have absorbed := machine.steps_absorb event
    rw [List.countP_cons] at exceeded
    by_cases overspent : event.isCounted = true ∧ limit < machine.steps + 1
    · have full : machine.steps = limit := by omega
      have refused : handle (some limit) event machine =
          .stop { machine with steps := limit + 1 } (.budget limit) := by
        rw [handle_eq, full]
        exact if_pos ⟨overspent.1, by omega⟩
      exact ⟨[], event, events, rfl, overspent.1, full, Execution.replay_cons_of_stop refused⟩
    · have accepted : handle (some limit) event machine = .done (machine.absorb event) := by
        rw [handle_eq]
        exact if_neg fun ⟨counted, beyond⟩ => overspent ⟨counted, by omega⟩
      have room : (machine.absorb event).steps ≤ limit := by
        by_cases counted : event.isCounted = true
        · have within : ¬ limit < machine.steps + 1 := fun beyond => overspent ⟨counted, beyond⟩
          rw [if_pos counted] at absorbed
          omega
        · rw [if_neg counted] at absorbed
          omega
      obtain ⟨before, refused, after, split, counted, used, replayed⟩ := ih room (by omega)
      refine ⟨event :: before, refused, after, congrArg (event :: ·) split, counted, ?_, ?_⟩
      · rw [List.countP_cons]
        omega
      · rw [Execution.replay_cons_of_done accepted, replayed, List.foldl_cons]

/-- Of the events that go over a budget, those before the refused one happen. -/
theorem moments_of_refused {before after : List Event} {refused : Event} (counted : refused.isCounted = true)
    (used : machine.steps + before.countP Event.isCounted = limit) :
    (moments (handle (some limit)) (before ++ refused :: after) machine).map (·.event) = before := by
  have accepted := replay_of_counted_le (Nat.le_of_eq used)
  have stopped : handle (some limit) refused (before.foldl absorb machine) =
      .stop { before.foldl absorb machine with steps := (before.foldl absorb machine).steps + 1 }
        (.budget limit) := by
    rw [handle_eq, steps_foldl_absorb, used]
    exact if_pos ⟨counted, by omega⟩
  rw [Execution.moments_append accepted, Execution.moments_cons_of_stop stopped, List.append_nil]
  rcases replay_cases (some limit) before machine with ⟨_, happened⟩ | ⟨_, _, _, cut⟩
  · exact happened
  · rw [accepted] at cut
    cases cut

variable {env : Env} {program : List Token}

theorem length_countedEvents_none : (machine.countedEvents env none program).length =
    (Execution.script env program).events.countP Event.isCounted := by
  rw [countedEvents_none, List.countP_eq_length_filter]

theorem steps_run_none : (machine.run env none program).state.steps =
    machine.steps + (machine.countedEvents env none program).length := by
  rw [run_none, steps_foldl_absorb, length_countedEvents_none]

theorem world_run_none : (machine.run env none program).state.world =
    ((machine.countedEvents env none program).filterMap Event.primitive?).foldl World.perform
      machine.world := by
  rw [run_none, world_foldl_absorb, countedEvents_none, Event.filterMap_primitive?_filter]

/-- A budget in which the counted events fit changes nothing. -/
theorem run_of_counted_le
    (enough : machine.steps + (machine.countedEvents env none program).length ≤ limit) :
    machine.run env (some limit) program = machine.run env none program := by
  rw [length_countedEvents_none] at enough
  rw [run_none, run_eq_play, Script.play, replay_of_counted_le enough, Run.andThen_done]

/-- A budget that the counted events exceed cuts the script in two at the event that it refuses. -/
theorem run_of_lt_counted (fresh : machine.steps ≤ limit)
    (exceeded : limit < machine.steps + (machine.countedEvents env none program).length) :
    ∃ before refused after, (Execution.script env program).events = before ++ refused :: after ∧
      refused.isCounted = true ∧ machine.steps + before.countP Event.isCounted = limit ∧
      machine.run env (some limit) program =
        .stop { before.foldl absorb machine with steps := limit + 1 } (.budget limit) := by
  rw [length_countedEvents_none] at exceeded
  obtain ⟨before, refused, after, split, counted, used, replayed⟩ := replay_of_lt_counted fresh exceeded
  refine ⟨before, refused, after, split, counted, used, ?_⟩
  rw [run_eq_play, Script.play, replayed, Run.andThen_stop]

end Budget

/-- A budget only truncates a run. The unlimited run is described by its counted events. Under a budget
that they fit in the run is the same. Under one that they exceed it stops at the first event beyond the
budget, which is counted, with the world after the commands before that event and the log up to there. -/
theorem run_budget_truncates (env : Env) (world : World) (program : List Token) (limit : Nat) :
    let free := (start world).run env none program
    let bounded := (start world).run env (some limit) program
    let counted := (start world).countedEvents env none program
    free.state.steps = counted.length ∧
      free.state.world = (counted.filterMap Event.primitive?).foldl World.perform world ∧
      (counted.length ≤ limit → bounded = free) ∧
      (limit < counted.length →
        bounded.fault = some (.budget limit) ∧ bounded.state.steps = limit + 1 ∧
          (start world).countedEvents env (some limit) program = counted.take limit ∧
          bounded.state.world = ((counted.take limit).filterMap Event.primitive?).foldl World.perform world ∧
          bounded.state.log.reverse <+: free.state.log.reverse) := by
  intro free bounded counted
  have fresh : (start world).steps + counted.length = counted.length := Nat.zero_add _
  have listed : counted = (Execution.script env program).events.filter Event.isCounted :=
    countedEvents_none ..
  refine ⟨steps_run_none.trans fresh, world_run_none, fun enough => ?_, fun exceeded => ?_⟩
  · apply run_of_counted_le
    exact Nat.le_trans (Nat.le_of_eq fresh) enough
  · have beyond : limit < (start world).steps + counted.length := Nat.lt_of_lt_of_eq exceeded fresh.symm
    obtain ⟨before, refused, after, split, counts, used, ran⟩ := run_of_lt_counted (Nat.zero_le limit) beyond
    have first : counted.take limit = before.filter Event.isCounted := by
      rw [listed, split, List.filter_append]
      apply List.take_left'
      rw [← List.countP_eq_length_filter, ← used]
      exact (Nat.zero_add _).symm
    have stopped : bounded =
        .stop { before.foldl absorb (start world) with steps := limit + 1 } (.budget limit) := ran
    rw [stopped, first]
    refine ⟨rfl, rfl, ?_, ?_, ?_⟩
    · rw [countedEvents_eq, split, moments_of_refused counts used]
    · rw [Event.filterMap_primitive?_filter]
      exact world_foldl_absorb before (start world)
    · have unlimited := congrArg Run.state (run_none (start world) env program)
      rw [List.reverse_prefix, unlimited, split, List.foldl_append]
      exact log_isSuffix_foldl_absorb (refused :: after) (before.foldl absorb (start world))

/-- A robot at the left end of a row of four lamps, all dark. -/
private def lane : World := ⟨⟨["....".toList]⟩, 0, 0, .right⟩

/-- A loop that counts three steps in each of its two iterations. -/
private def lightTwice : List Token :=
  ["REPEAT 2".toList, "FORWARD".toList, "LIGHT".toList, "ENDREPEAT".toList]

/-- Four steps of a loop that takes six, and six of them. -/
theorem run_budget_truncates_in_loop :
    let free := (start lane).run ⟨.empty, 3, 450⟩ none lightTwice
    let bounded := (start lane).run ⟨.empty, 3, 450⟩ (some 4) lightTwice
    let counted := (start lane).countedEvents ⟨.empty, 3, 450⟩ none lightTwice
    counted.length = 6 ∧ (start lane).run ⟨.empty, 3, 450⟩ (some 6) lightTwice = free ∧
      bounded.fault = some (.budget 4) ∧ bounded.state.steps = 5 ∧
      bounded.state.world = [Primitive.forward, Primitive.light].foldl World.perform lane ∧
      bounded.state.log.reverse <+: free.state.log.reverse := by
  intro free bounded counted
  have six : counted.length = 6 := by decide +kernel
  obtain ⟨_, _, fits, _⟩ := run_budget_truncates ⟨.empty, 3, 450⟩ lane lightTwice 6
  obtain ⟨_, _, _, exceeds⟩ := run_budget_truncates ⟨.empty, 3, 450⟩ lane lightTwice 4
  obtain ⟨fault, steps, _, world, log⟩ := exceeds (Nat.lt_of_lt_of_eq (by decide) six.symm)
  have first : (counted.take 4).filterMap Event.primitive? = [.forward, .light] := by decide +kernel
  exact ⟨six, fits (Nat.le_of_eq six), fault, steps, world.trans (by rw [first]), log⟩

end Machine

end Lamplighter
