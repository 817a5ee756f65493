import Lamplighter.Proofs.Budget
import Lamplighter.Proofs.Torus
import Lamplighter.Proofs.Walk

/-! # Taking commands back

Every command can be taken back by commands: a turn by the opposite turn, a switched lamp by switching it
again, and a step by turning about, stepping and turning about once more. The commands that take a whole list
back are those of its members, the last one first. Around the joined edges of a grid there is always a way
back, so this holds on every grid and wherever the robot stands.
-/

namespace Lamplighter

namespace Heading

/-- A step after turning about adds what a step before takes off. -/
theorem delta_turnedAbout (heading : Heading) :
    heading.turnRight.turnRight.delta = (-heading.delta.1, -heading.delta.2) := by
  cases heading <;> rfl

theorem turnedAbout_twice (heading : Heading) :
    heading.turnRight.turnRight.turnRight.turnRight = heading := by
  cases heading <;> rfl

end Heading

namespace Primitive

/-- The commands that take a command back. -/
def inverse : Primitive → List Primitive
  | left => [right]
  | right => [left]
  | light => [light]
  | forward => [right, right, forward, right, right]

/-- The commands that take a list of commands back, from the last to the first. -/
def undo (commands : List Primitive) : List Primitive := commands.reverse.flatMap inverse

theorem undo_cons (command : Primitive) (commands : List Primitive) :
    undo (command :: commands) = undo commands ++ command.inverse := by
  rw [undo, undo, List.reverse_cons, List.flatMap_append, List.flatMap_singleton]

theorem kind_word (command : Primitive) : Token.kind command.word = .act command := by
  rw [Token.kind, ofWord?_word]

end Primitive

namespace Grid

/-- A change of a cell that undoes itself leaves the grid as it was when it is made twice. -/
theorem modify_modify_self (grid : Grid) (row col : Nat) {change : Char → Char}
    (undone : ∀ cell, change (change cell) = cell) :
    (grid.modify row col change).modify row col change = grid := by
  have twice : change ∘ change = id := funext undone
  have whole : (fun cells : List Char => cells.modify col change) ∘ (fun cells => cells.modify col change) =
      id := by
    funext cells
    rw [Function.comp_apply, List.modify_modify_eq, twice, List.modify_id, id_eq]
  rw [modify, modify, List.modify_modify_eq, whole, List.modify_id]

end Grid

namespace World

/-- A step forward and a step back around the joined edges. -/
theorem wrap_wrap_add_neg {place size : Nat} (offset : Int) (inside : place < size) :
    wrap (wrap (place + offset) size + -offset) size = place := by
  rw [wrap_wrap_add _ _ (by omega), Int.add_neg_cancel_right, wrap_of_lt inside]

/-- Every command is taken back. -/
theorem Valid.foldl_inverse {world : World} (valid : world.Valid) (command : Primitive) :
    command.inverse.foldl World.perform (world.perform command) = world := by
  obtain ⟨_, inRows, inCols⟩ := valid
  cases command with
  | left => simp [Primitive.inverse, World.perform, turnLeft, turnRight]
  | right => simp [Primitive.inverse, World.perform, turnLeft, turnRight]
  | light =>
    have switched := world.grid.modify_modify_self world.row world.col Grid.switchLamp_switchLamp
    simp [Primitive.inverse, World.perform, toggleLight, switched]
  | forward =>
    have rows := wrap_wrap_add_neg world.heading.delta.1 inRows
    have cols := wrap_wrap_add_neg world.heading.delta.2 inCols
    simp only [Primitive.inverse, List.foldl_cons, List.foldl_nil, World.perform, turnRight, moveForward,
      Heading.delta_turnedAbout, Heading.turnedAbout_twice, rows, cols]

/-- A list of commands is taken back. The commands in front are carried out first and are the last ones that
are taken back, so the induction is on the list with the world left open. -/
theorem Valid.foldl_undo {world : World} (valid : world.Valid) (commands : List Primitive) :
    (Primitive.undo commands).foldl World.perform (commands.foldl World.perform world) = world := by
  induction commands generalizing world with
  | nil => rfl
  | cons command commands ih =>
    rw [Primitive.undo_cons, List.foldl_cons, List.foldl_append, ih (valid.perform command),
      valid.foldl_inverse command]

end World

namespace Event

theorem countP_isCounted_act (commands : List Primitive) :
    (commands.map act).countP isCounted = commands.length := by
  rw [List.countP_map]
  exact List.countP_eq_length.mpr fun _ _ => rfl

theorem filterMap_primitive?_act (commands : List Primitive) :
    (commands.map act).filterMap primitive? = commands := by
  rw [List.filterMap_map]
  exact List.filterMap_some

end Event

namespace Execution

variable {σ : Type}

/-- The words of commands tell the handler these commands, one after the other. -/
theorem walk_words (handle : Event → σ → Run σ) (env : Env) (enter : List Token → σ → Run σ)
    (depth index : Nat) (commands : List Primitive) (state : σ) :
    walk handle env enter depth 0 index (commands.map Primitive.word) state =
      replay handle (commands.map Event.act) state := by
  induction commands generalizing index state with
  | nil => rfl
  | cons command commands ih =>
    rw [List.map_cons, List.map_cons, walk_act _ _ _ _ _ _ _ command.kind_word, replay]
    exact congrArg (Run.andThen _) (funext (ih (index + 1)))

end Execution

namespace Machine

open Execution (replay)

/-- The machine after commands that are all carried out. -/
def obey (machine : Machine) (commands : List Primitive) : Machine :=
  (commands.map Event.act).foldl absorb machine

section Commands

variable (machine : Machine) {budget : Option Int} (commands : List Primitive)

theorem world_obey : (machine.obey commands).world = commands.foldl World.perform machine.world := by
  rw [obey, world_foldl_absorb, Event.filterMap_primitive?_act]

theorem steps_obey : (machine.obey commands).steps = machine.steps + commands.length := by
  rw [obey, steps_foldl_absorb, Event.countP_isCounted_act]

theorem obey_append (later : List Primitive) :
    machine.obey (commands ++ later) = (machine.obey commands).obey later := by
  rw [obey, List.map_append, List.foldl_append]
  rfl

theorem world_obey_undo (valid : machine.world.Valid) :
    (machine.obey (commands ++ Primitive.undo commands)).world = machine.world := by
  rw [world_obey, List.foldl_append, valid.foldl_undo]

/-- A budget that suffices for the commands lets all of them happen. -/
theorem replay_act_of_affordable
    (affordable : ∀ limit, budget = some limit → machine.steps + commands.length ≤ limit) :
    replay (handle budget) (commands.map Event.act) machine = .done (machine.obey commands) := by
  cases budget with
  | none => exact (replay_none _ machine).1
  | some limit =>
    have enough := affordable limit rfl
    obtain ⟨bound, rfl⟩ := Int.eq_ofNat_of_zero_le (by omega : 0 ≤ limit)
    apply replay_of_counted_le
    rw [Event.countP_isCounted_act]
    omega

/-- A run of the words of commands carries them all out, or does nothing if the depth limit leaves no level
for the program itself. -/
theorem run_words (env : Env)
    (affordable : ∀ limit, budget = some limit → machine.steps + commands.length ≤ limit) :
    machine.run env budget (commands.map Primitive.word) =
      if 0 ≤ env.maxDepth then .done (machine.obey commands) else .stop machine (.depth env.maxDepth) := by
  rw [run, Execution.execute]
  split_ifs with level
  · obtain ⟨room, roomy⟩ : ∃ room, env.room = room + 1 := by
      apply Nat.exists_eq_add_one.mpr
      unfold Env.room
      omega
    rw [roomy, Execution.block, Execution.walk_words, machine.replay_act_of_affordable commands affordable]
  · have roomless : env.room = 0 := by
      unfold Env.room
      omega
    rw [roomless, Execution.block]

end Commands

/-- Every list of commands can be taken back. Running it and then the commands that take it back leaves the
grid and the robot's pose as they were, and so does running both as one program. None of these runs is
stopped, unless the depth limit lets nothing run at all. -/
theorem run_undone {machine : Machine} (valid : machine.world.Valid) (env : Env) (budget : Option Int)
    (commands : List Primitive)
    (affordable : ∀ limit, budget = some limit →
      machine.steps + commands.length + (Primitive.undo commands).length ≤ limit) :
    let there := machine.run env budget (commands.map Primitive.word)
    let back := there.state.run env budget ((Primitive.undo commands).map Primitive.word)
    let both := machine.run env budget ((commands ++ Primitive.undo commands).map Primitive.word)
    back.state.world = machine.world ∧ both.state.world = machine.world ∧
      (0 ≤ env.maxDepth → there.fault = none ∧ back.fault = none ∧ both.fault = none ∧
        there.state.world = commands.foldl World.perform machine.world) := by
  intro there back both
  have went : there = _ := machine.run_words commands env fun limit limited => by
    have enough := affordable limit limited
    omega
  have whole : both = _ := machine.run_words (commands ++ Primitive.undo commands) env fun limit limited => by
    have enough := affordable limit limited
    rw [List.length_append]
    omega
  have came : back = _ := there.state.run_words (Primitive.undo commands) env fun limit limited => by
    have enough := affordable limit limited
    have spent := machine.steps_obey commands
    rw [went]
    split_ifs
    · simp only [Run.done]
      omega
    · simp only [Run.stop]
      omega
  by_cases level : 0 ≤ env.maxDepth
  · rw [if_pos level] at went whole came
    have joined : back = both := by
      rw [came, went, whole]
      exact congrArg Run.done (machine.obey_append commands (Primitive.undo commands)).symm
    rw [joined, whole, went]
    have restored := machine.world_obey_undo commands valid
    exact ⟨restored, restored, fun _ => ⟨rfl, rfl, rfl, machine.world_obey commands⟩⟩
  · rw [if_neg level] at went whole came
    rw [went] at came
    rw [came, whole]
    exact ⟨rfl, rfl, fun limit => absurd limit level⟩

/-- A robot on a lit lamp at the right end of a row of three cells, with one step counted. -/
private def narrow : Machine := ⟨⟨⟨["O#x".toList]⟩, 0, 2, .up⟩, 1, []⟩

/-- A step over the upper edge onto the same cell, one over the right edge, and lamps on both cells. -/
private def aroundTheRow : List Primitive :=
  [.light, .forward, .light, .right, .forward, .light, .left, .light, .light, .left, .forward]

/-- The budget is spent to the last step on the way there and back. -/
theorem run_undone_around_the_row :
    let there := narrow.run ⟨.empty, 0, 450⟩ (some 35) (aroundTheRow.map Primitive.word)
    let back := there.state.run ⟨.empty, 0, 450⟩ (some 35) ((Primitive.undo aroundTheRow).map Primitive.word)
    narrow.world.Valid ∧ narrow.steps + aroundTheRow.length + (Primitive.undo aroundTheRow).length = 35 ∧
      there.state.world = ⟨⟨["X#x".toList]⟩, 0, 2, .left⟩ ∧ there.fault = none ∧ back.fault = none ∧
      back.state.world = narrow.world := by
  have valid : narrow.world.Valid := ⟨by decide, by decide, by decide⟩
  have spent : narrow.steps + aroundTheRow.length + (Primitive.undo aroundTheRow).length = 35 := by decide
  have affordable : ∀ limit : Int, some 35 = some limit →
      narrow.steps + aroundTheRow.length + (Primitive.undo aroundTheRow).length ≤ limit := by
    rintro _ ⟨⟩
    exact_mod_cast spent.le
  obtain ⟨world, _, ended⟩ := run_undone valid ⟨.empty, 0, 450⟩ (some 35) aroundTheRow affordable
  obtain ⟨went, came, _, reached⟩ := ended (by decide)
  exact ⟨valid, spent, reached.trans (by decide +kernel), went, came, world⟩

end Machine

end Lamplighter
