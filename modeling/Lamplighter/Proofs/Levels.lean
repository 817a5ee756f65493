import Lamplighter.Proofs.Invariant
import Lamplighter.Proofs.Progress

/-! # Limits on levels

A limit on levels does not change what a program does, only how far it comes: it cuts the script of the
program off where it goes too deep. A run under a larger limit starts with all that happens under the
smaller one, and is the same run if the smaller one was not exceeded.
-/

namespace Lamplighter

namespace Script

/-- The script is another one up to the given fault, or the same. -/
def Truncates (fault : Fault) (script longer : Script) : Prop :=
  script = longer ∨ script.fault = some fault ∧ script.events <+: longer.events

theorem events_isPrefix_andThen (script next : Script) : script.events <+: (script.andThen next).events := by
  rcases script with ⟨events, _ | fault⟩
  · exact List.prefix_append events next.events
  · exact List.prefix_rfl

namespace Truncates

variable {fault : Fault} {script longer next further : Script}

theorem events_isPrefix (truncates : script.Truncates fault longer) : script.events <+: longer.events := by
  rcases truncates with rfl | ⟨_, shorter⟩
  · exact List.prefix_rfl
  · exact shorter

theorem andThen (truncates : script.Truncates fault longer) (continued : next.Truncates fault further) :
    (script.andThen next).Truncates fault (longer.andThen further) := by
  rcases truncates with rfl | ⟨stopped, shorter⟩
  · rcases script with ⟨events, _ | cause⟩
    · rcases continued with rfl | ⟨stopped, shorter⟩
      · exact .inl rfl
      · exact .inr ⟨stopped, (List.prefix_append_right_inj events).mpr shorter⟩
    · exact .inl rfl
  · have ended : script.andThen next = script := by
      rw [Script.andThen, stopped]
    rw [ended]
    exact .inr ⟨stopped, shorter.trans (events_isPrefix_andThen longer further)⟩

end Truncates

end Script

namespace Execution

/-- Two ways to write down, of which the first writes the same up to the given fault. -/
private def Truncated (fault : Fault) (write other : List Event → Run (List Event)) : Prop :=
  ∃ script longer : Script, write = script.play record ∧ other = longer.play record ∧
    script.Truncates fault longer

private theorem Truncated.congruence (fault : Fault) : Congruence Eq (Truncated fault) where
  done := ⟨⟨[], none⟩, ⟨[], none⟩, rfl, rfl, .inl rfl⟩
  stop := by
    rintro cause _ rfl
    exact ⟨⟨[], some cause⟩, ⟨[], some cause⟩, rfl, rfl, .inl rfl⟩
  andThen := by
    rintro _ _ _ _ ⟨script, longer, rfl, rfl, truncates⟩ ⟨next, further, rfl, rfl, continued⟩
    exact ⟨script.andThen next, longer.andThen further,
      funext fun written => (Script.play_andThen record script next written).symm,
      funext fun written => (Script.play_andThen record longer further written).symm,
      truncates.andThen continued⟩

theorem room_le_room (functions : FunctionTable) (stack : Nat) {shallow deep : Int} (le : shallow ≤ deep) :
    Env.room ⟨functions, shallow, stack⟩ ≤ Env.room ⟨functions, deep, stack⟩ := by
  unfold Env.room
  dsimp only
  omega

/-- A script under a limit on levels is the script under a larger one, up to where it goes too deep. -/
theorem script_truncates (functions : FunctionTable) (stack : Nat) (program : List Token)
    {shallow deep : Int} (le : shallow ≤ deep) :
    (script ⟨functions, shallow, stack⟩ program).Truncates (.depth shallow)
      (script ⟨functions, deep, stack⟩ program) := by
  let tight : Env := ⟨functions, shallow, stack⟩
  let loose : Env := ⟨functions, deep, stack⟩
  obtain ⟨extra, wider⟩ : ∃ extra, loose.room = tight.room + extra :=
    Nat.exists_eq_add_of_le (room_le_room functions stack le)
  have truncated : Truncated (.depth shallow) (block record tight tight.room 0 program)
      (block record loose (tight.room + extra) 0 program) := by
    have same : loose.functions = tight.functions := rfl
    refine block_related 0 extra (Truncated.congruence _) (fun _ => rfl) same (fun event => ?_)
      (fun depth tokens => ?_) tight.room 0 program
    · rw [Event.deeper_zero]
      have single : record event = Script.play record ⟨[event], none⟩ :=
        funext fun written => (Script.play_single record event written).symm
      exact ⟨_, _, single, single, .inl rfl⟩
    · obtain ⟨script, written⟩ := exists_script_block loose extra depth tokens
      exact ⟨⟨[], some (.depth shallow)⟩, script, rfl, written, .inr ⟨rfl, List.nil_prefix⟩⟩
  rw [← wider] at truncated
  obtain ⟨script, longer, written, further, truncates⟩ := truncated
  rw [script_eq_of_play written, script_eq_of_play further]
  exact truncates

end Execution

namespace Machine

open Execution (replay moments)

variable {env : Env} {budget : Option Int} {program : List Token}

/-- The limit in the fault of a run that went too deep is the one that was set. -/
theorem run_depth_fault {machine : Machine} {limit : Int}
    (raised : (machine.run env budget program).fault = some (.depth limit)) : limit = env.maxDepth := by
  have meets : Run.Meets (fun _ => True) (fun fault => ∀ limit, fault = .depth limit → limit = env.maxDepth)
      (machine.run env budget program) := by
    refine Execution.block_meets (fun event state _ => ⟨trivial, ?_⟩) ?_ ?_ env.room 0 program trivial
    · intro fault refused limit deep
      obtain ⟨spent, rfl⟩ := handle_fault refused
      cases deep
    · intro fault ofProgram limit deep
      subst deep
      cases ofProgram
    · intro limit deep
      cases deep
      rfl
  exact meets.2 _ raised limit rfl

/-- A run that went too deep had nothing refused. -/
theorem replay_of_depth_fault {machine : Machine} {limit : Int}
    (raised : (machine.run env budget program).fault = some (.depth limit)) :
    replay (handle budget) (Execution.script env program).events machine =
        .done (machine.run env budget program).state ∧
      (machine.run env budget program).state = (Execution.script env program).events.foldl absorb machine ∧
      machine.countedEvents env budget program =
        (Execution.script env program).events.filter Event.isCounted := by
  rw [run_eq_play, Script.play] at raised
  rw [run_eq_play, Script.state_play, countedEvents_eq]
  rcases replay_cases budget (Execution.script env program).events machine with
    ⟨replayed, happened⟩ | ⟨spent, state, _, stopped⟩
  · rw [replayed, happened]
    exact ⟨rfl, rfl, rfl⟩
  · rw [stopped, Run.andThen_stop] at raised
    cases raised

section Continued

variable (budget) {events : List Event} {machine : Machine}

theorem steps_le_replay (events : List Event) (machine : Machine) :
    machine.steps ≤ (replay (handle budget) events machine).state.steps := by
  induction events generalizing machine with
  | nil => exact Nat.le_refl _
  | cons event events ih =>
    rcases handle_cases budget event machine with accepted | ⟨limit, _, refused⟩
    · rw [Execution.replay_cons_of_done accepted]
      have absorbed := machine.steps_absorb event
      have later := ih (machine.absorb event)
      omega
    · rw [Execution.replay_cons_of_stop refused]
      exact Nat.le_succ _

/-- The worlds on the way through some events, and the one after them. -/
def worldsThrough (events : List Event) (machine : Machine) : List World :=
  (moments (handle budget) events machine).map (·.state.world) ++
    [(replay (handle budget) events machine).state.world]

/-- A refused event leaves the world alone, so the way through events starts in the world before them
in any case. -/
theorem world_isPrefix_worldsThrough (events : List Event) (machine : Machine) :
    [machine.world] <+: worldsThrough budget events machine := by
  cases events with
  | nil => exact List.prefix_rfl
  | cons event events =>
    rw [worldsThrough]
    rcases handle_cases budget event machine with accepted | ⟨limit, _, refused⟩
    · rw [Execution.moments_cons_of_done accepted, List.map_cons, List.cons_append]
      exact List.prefix_append [machine.world] _
    · rw [Execution.moments_cons_of_stop refused, Execution.replay_cons_of_stop refused]
      exact List.prefix_rfl

variable {budget} {longer : List Event} {next : Machine}

/-- What is let happen of longer events starts with the shorter ones, if these all happened. -/
theorem moments_isPrefix (accepted : replay (handle budget) events machine = .done next)
    (shorter : events <+: longer) :
    moments (handle budget) events machine <+: moments (handle budget) longer machine := by
  obtain ⟨rest, rfl⟩ := shorter
  rw [Execution.moments_append accepted]
  exact List.prefix_append _ _

theorem steps_le_of_isPrefix (accepted : replay (handle budget) events machine = .done next)
    (shorter : events <+: longer) :
    next.steps ≤ (replay (handle budget) longer machine).state.steps := by
  obtain ⟨rest, rfl⟩ := shorter
  rw [Execution.replay_append, accepted, Run.andThen_done]
  exact steps_le_replay budget rest next

theorem worldsThrough_isPrefix (accepted : replay (handle budget) events machine = .done next)
    (shorter : events <+: longer) :
    worldsThrough budget events machine <+: worldsThrough budget longer machine := by
  obtain ⟨rest, rfl⟩ := shorter
  have further : worldsThrough budget (events ++ rest) machine =
      (moments (handle budget) events machine).map (·.state.world) ++ worldsThrough budget rest next := by
    rw [worldsThrough, worldsThrough, Execution.moments_append accepted, Execution.replay_append, accepted,
      Run.andThen_done, List.map_append, List.append_assoc]
  rw [further, worldsThrough, accepted]
  exact (List.prefix_append_right_inj _).mpr (world_isPrefix_worldsThrough budget rest next)

end Continued

theorem worlds_eq (machine : Machine) (env : Env) (budget : Option Int) (program : List Token) :
    machine.worlds env budget program =
      worldsThrough budget (Execution.script env program).events machine := by
  rw [worlds, worldsThrough, history, Execution.history_eq_moments, run_eq_play, Script.state_play]

/-- A larger limit on levels makes no difference to a run that does not go too deep. -/
theorem run_eq_of_not_tooDeep (functions : FunctionTable) (stack : Nat) (budget : Option Int)
    (program : List Token) (machine : Machine) {shallow deep : Int} (le : shallow ≤ deep)
    (fits : ∀ limit, (machine.run ⟨functions, shallow, stack⟩ budget program).fault ≠ some (.depth limit)) :
    machine.run ⟨functions, deep, stack⟩ budget program =
      machine.run ⟨functions, shallow, stack⟩ budget program := by
  have shorter := Execution.script_truncates functions stack program le
  rw [run_eq_play] at fits ⊢
  rw [run_eq_play]
  generalize Execution.script ⟨functions, shallow, stack⟩ program = script at shorter fits ⊢
  generalize Execution.script ⟨functions, deep, stack⟩ program = longer at shorter ⊢
  rcases shorter with rfl | ⟨tooDeep, rest, split⟩
  · rfl
  · rw [Script.play] at fits
    rw [Script.play, Script.play, ← split, Execution.replay_append]
    -- The shorter script ends too deep, so its run can only have another end if the budget cuts it off.
    rcases replay_cases budget script.events machine with ⟨replayed, _⟩ | ⟨spent, state, _, stopped⟩
    · rw [replayed, Run.andThen_done, tooDeep] at fits
      exact absurd rfl (fits shallow)
    · rw [stopped]
      rfl

/-- A run that went too deep has taken a step for each of its counted events. -/
theorem length_countedEvents_of_depth_fault {machine : Machine} {limit : Int}
    (raised : (machine.run env budget program).fault = some (.depth limit)) :
    machine.steps + (machine.countedEvents env budget program).length =
      (machine.run env budget program).state.steps := by
  obtain ⟨_, reached, listed⟩ := replay_of_depth_fault raised
  rw [reached, listed, steps_foldl_absorb, List.countP_eq_length_filter]

section Deeper

variable {functions : FunctionTable} {stack : Nat} {machine : Machine} {shallow deep limit : Int}
  (le : shallow ≤ deep)
  (raised : (machine.run ⟨functions, shallow, stack⟩ budget program).fault = some (.depth limit))
include le raised

theorem countedEvents_isPrefix :
    machine.countedEvents ⟨functions, shallow, stack⟩ budget program <+:
      machine.countedEvents ⟨functions, deep, stack⟩ budget program := by
  have shorter := (Execution.script_truncates functions stack program le).events_isPrefix
  rw [countedEvents_eq, countedEvents_eq]
  exact ((moments_isPrefix (replay_of_depth_fault raised).1 shorter).map _).filter _

theorem steps_le_of_depth_fault :
    (machine.run ⟨functions, shallow, stack⟩ budget program).state.steps ≤
      (machine.run ⟨functions, deep, stack⟩ budget program).state.steps := by
  have shorter := (Execution.script_truncates functions stack program le).events_isPrefix
  rw [run_eq_play machine ⟨functions, deep, stack⟩, Script.state_play]
  exact steps_le_of_isPrefix (replay_of_depth_fault raised).1 shorter

theorem worlds_isPrefix :
    machine.worlds ⟨functions, shallow, stack⟩ budget program <+:
      machine.worlds ⟨functions, deep, stack⟩ budget program := by
  have shorter := (Execution.script_truncates functions stack program le).events_isPrefix
  rw [worlds_eq, worlds_eq]
  exact worldsThrough_isPrefix (replay_of_depth_fault raised).1 shorter

end Deeper

/-- The limit on levels is a guard that only cuts runs short. A run that does not go too deep is the same
under a larger limit. One that does is the beginning of the run under a larger limit: it has the same
counted events first, and passes through the same worlds up to the one it was left in. -/
theorem run_depth_monotone (functions : FunctionTable) (stack : Nat) (world : World) (budget : Option Int)
    (program : List Token) {shallow deep : Int} (le : shallow ≤ deep) :
    let first := (start world).run ⟨functions, shallow, stack⟩ budget program
    let second := (start world).run ⟨functions, deep, stack⟩ budget program
    let counted := (start world).countedEvents ⟨functions, shallow, stack⟩ budget program
    ((∀ limit, first.fault ≠ some (.depth limit)) → second = first) ∧
      ∀ limit, first.fault = some (.depth limit) →
        limit = shallow ∧ counted.length = first.state.steps ∧
          counted <+: (start world).countedEvents ⟨functions, deep, stack⟩ budget program ∧
          first.state.steps ≤ second.state.steps ∧
          (start world).worlds ⟨functions, shallow, stack⟩ budget program <+:
            (start world).worlds ⟨functions, deep, stack⟩ budget program := by
  intro first second counted
  refine ⟨run_eq_of_not_tooDeep functions stack budget program (start world) le, fun limit raised => ?_⟩
  have taken := length_countedEvents_of_depth_fault raised
  rw [start, Nat.zero_add] at taken
  exact ⟨run_depth_fault raised, taken, countedEvents_isPrefix le raised, steps_le_of_depth_fault le raised,
    worlds_isPrefix le raised⟩

/-- A robot at the left end of a row of four cells. -/
private def track : World := ⟨⟨["....".toList]⟩, 0, 0, .right⟩

/-- A function that walks on and calls itself. -/
private def walkOn : FunctionDef := ⟨"ON".toList, [], ["FORWARD".toList, "CALL ON".toList]⟩

/-- Endless calls come one step farther under a limit that is larger by one. -/
theorem run_depth_monotone_of_endless_calls :
    let first := (start track).run ⟨⟨[walkOn]⟩, 1, 450⟩ none ["CALL ON".toList]
    let second := (start track).run ⟨⟨[walkOn]⟩, 2, 450⟩ none ["CALL ON".toList]
    let counted := (start track).countedEvents ⟨⟨[walkOn]⟩, 1, 450⟩ none ["CALL ON".toList]
    (1 : Int) ≤ 2 ∧ first.fault = some (.depth 1) ∧ counted.length = first.state.steps ∧
      counted <+: (start track).countedEvents ⟨⟨[walkOn]⟩, 2, 450⟩ none ["CALL ON".toList] ∧
      first.state.steps ≤ second.state.steps ∧
      (start track).worlds ⟨⟨[walkOn]⟩, 1, 450⟩ none ["CALL ON".toList] <+:
        (start track).worlds ⟨⟨[walkOn]⟩, 2, 450⟩ none ["CALL ON".toList] := by
  intro first second counted
  have raised : first.fault = some (.depth 1) := by decide +kernel
  have le : (1 : Int) ≤ 2 := by decide
  obtain ⟨_, tooDeep⟩ := run_depth_monotone ⟨[walkOn]⟩ 450 track none ["CALL ON".toList] le
  exact ⟨le, raised, (tooDeep 1 raised).2⟩

end Machine

end Lamplighter
