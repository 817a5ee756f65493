import Lamplighter.Proofs.Simulation

/-! # Scripts and histories

Which events a program brings about is decided by its tokens, its functions and the limit on levels, and
not by the handler. They are the program's script: the events in their order, and the fault that comes
after the last of them. Executing a program is telling its script to the handler, who may still refuse
an event and so cut the script short.

The history of an execution is what the handler let happen, each event with the state it was met in.
-/

namespace Lamplighter

namespace Run

variable {σ : Type}

@[simp] theorem andThen_self_done (run : Run σ) : run.andThen .done = run := by
  rcases run with ⟨state, _ | fault⟩ <;> rfl

end Run

namespace Execution

variable {σ : Type}

/-- Tells a handler one event after the other, until it refuses. -/
def replay (handle : Event → σ → Run σ) : List Event → σ → Run σ
  | [], state => .done state
  | event :: events, state => (handle event state).andThen (replay handle events)

theorem replay_append (handle : Event → σ → Run σ) (events later : List Event) (state : σ) :
    replay handle (events ++ later) state =
      (replay handle events state).andThen (replay handle later) := by
  induction events generalizing state with
  | nil => rfl
  | cons event events ih =>
    rw [List.cons_append, replay, replay, Run.andThen_assoc]
    exact congrArg (Run.andThen _) (funext ih)

/-- The handler that refuses nothing and writes down what it is told, newest first. -/
def record (event : Event) (written : List Event) : Run (List Event) := .done (event :: written)

theorem replay_record (events written : List Event) :
    replay record events written = .done (events.reverse ++ written) := by
  induction events generalizing written with
  | nil => rfl
  | cons event events ih =>
    rw [replay, record, Run.andThen_done, ih, List.reverse_cons, List.append_assoc, List.singleton_append]

end Execution

/-- Events in their order, and the fault that comes after the last of them if there is one. -/
structure Script where
  events : List Event
  fault : Option Fault
deriving DecidableEq, Repr

namespace Script

variable {σ : Type}

/-- Tells a handler the events of a script, and stops with its fault. -/
def play (handle : Event → σ → Run σ) (script : Script) (state : σ) : Run σ :=
  (Execution.replay handle script.events state).andThen fun state => ⟨state, script.fault⟩

/-- Goes on with another script, unless the first ends in a fault. -/
def andThen (script next : Script) : Script :=
  match script.fault with
  | none => ⟨script.events ++ next.events, next.fault⟩
  | some _ => script

theorem play_andThen (handle : Event → σ → Run σ) (script next : Script) (state : σ) :
    (script.andThen next).play handle state = (script.play handle state).andThen (next.play handle) := by
  rcases script with ⟨events, _ | fault⟩
  · simp only [andThen, play, Execution.replay_append, Run.andThen_assoc]
    rfl
  · simp only [andThen, play, Run.andThen_assoc]
    rfl

theorem play_single (handle : Event → σ → Run σ) (event : Event) (state : σ) :
    play handle ⟨[event], none⟩ state = handle event state := by
  change ((handle event state).andThen .done).andThen .done = handle event state
  rw [Run.andThen_self_done, Run.andThen_self_done]

theorem state_play (handle : Event → σ → Run σ) (script : Script) (state : σ) :
    (script.play handle state).state = (Execution.replay handle script.events state).state := by
  rw [play]
  rcases Execution.replay handle script.events state with ⟨final, _ | fault⟩ <;> rfl

theorem play_record (script : Script) (written : List Event) :
    script.play Execution.record written = ⟨script.events.reverse ++ written, script.fault⟩ := by
  rw [play, Execution.replay_record, Run.andThen_done]

end Script

namespace Execution

variable {σ : Type}

/-- What happens when a program is executed and nothing is refused. -/
def script (env : Env) (program : List Token) : Script :=
  let run := execute record env program []
  ⟨run.state.reverse, run.fault⟩

theorem script_eq_of_play {env : Env} {program : List Token} {script : Script}
    (played : execute record env program = script.play record) : Execution.script env program = script := by
  rw [Execution.script, played, Script.play_record, List.append_nil, List.reverse_reverse]

/-- Both ways to go on play the same script, the second to a handler that writes it down. -/
private def Scripted (handle : Event → σ → Run σ) (next : σ → Run σ)
    (write : List Event → Run (List Event)) : Prop :=
  ∃ script : Script, next = script.play handle ∧ write = script.play record

private theorem Scripted.congruence (handle : Event → σ → Run σ) :
    Congruence Eq (Scripted handle) where
  done := ⟨⟨[], none⟩, rfl, rfl⟩
  stop := by
    rintro fault _ rfl
    exact ⟨⟨[], some fault⟩, rfl, rfl⟩
  andThen := by
    rintro _ _ _ _ ⟨script, rfl, rfl⟩ ⟨next, rfl, rfl⟩
    exact ⟨script.andThen next, funext fun state => (Script.play_andThen handle script next state).symm,
      funext fun written => (Script.play_andThen record script next written).symm⟩

private theorem block_scripted (handle : Event → σ → Run σ) (env : Env) (room depth : Nat)
    (tokens : List Token) :
    Scripted handle (block handle env room depth tokens) (block record env room depth tokens) := by
  refine block_related 0 0 (Scripted.congruence handle) (fun _ => rfl) rfl (fun event => ?_) (fun _ _ => ?_)
    room depth tokens
  · rw [Event.deeper_zero]
    exact ⟨⟨[event], none⟩, funext fun state => (Script.play_single handle event state).symm,
      funext fun written => (Script.play_single record event written).symm⟩
  · exact (Scripted.congruence handle).stop rfl

/-- What is written down of a block is a script. -/
theorem exists_script_block (env : Env) (room depth : Nat) (tokens : List Token) :
    ∃ script : Script, block record env room depth tokens = script.play record := by
  obtain ⟨script, _, written⟩ := block_scripted record env room depth tokens
  exact ⟨script, written⟩

/-- Every handler is told the script of the program. -/
theorem execute_eq_play (handle : Event → σ → Run σ) (env : Env) (program : List Token) :
    execute handle env program = (script env program).play handle := by
  obtain ⟨script, played, written⟩ := block_scripted handle env env.room 0 program
  rw [script_eq_of_play written]
  exact played

/-- An event that a handler let happen, and the state that it was met in. -/
structure Moment (σ : Type) where
  event : Event
  state : σ

/-- The handler that also writes down what it lets happen, newest first. -/
def recording (handle : Event → σ → Run σ) (event : Event) (entry : σ × List (Moment σ)) :
    Run (σ × List (Moment σ)) :=
  match handle event entry.1 with
  | ⟨next, none⟩ => .done (next, ⟨event, entry.1⟩ :: entry.2)
  | ⟨next, some fault⟩ => .stop (next, entry.2) fault

/-- What a handler lets happen while a program is executed, from first to last. -/
def history (handle : Event → σ → Run σ) (env : Env) (program : List Token) (state : σ) :
    List (Moment σ) :=
  (execute (recording handle) env program (state, [])).state.2.reverse

/-- What a handler lets happen of the events that it is told. -/
def moments (handle : Event → σ → Run σ) : List Event → σ → List (Moment σ)
  | [], _ => []
  | event :: events, state =>
    match handle event state with
    | ⟨next, none⟩ => ⟨event, state⟩ :: moments handle events next
    | ⟨_, some _⟩ => []

section Moments

variable {handle : Event → σ → Run σ} {event : Event} {events : List Event} {state next : σ}

theorem replay_cons_of_done (accepted : handle event state = .done next) :
    replay handle (event :: events) state = replay handle events next := by
  rw [replay, accepted, Run.andThen_done]

theorem replay_cons_of_stop {fault : Fault} (refused : handle event state = .stop next fault) :
    replay handle (event :: events) state = .stop next fault := by
  rw [replay, refused, Run.andThen_stop]

theorem moments_cons_of_done (accepted : handle event state = .done next) :
    moments handle (event :: events) state = ⟨event, state⟩ :: moments handle events next := by
  rw [moments, accepted]
  rfl

theorem moments_cons_of_stop {fault : Fault} (refused : handle event state = .stop next fault) :
    moments handle (event :: events) state = [] := by
  rw [moments, refused]
  rfl

/-- Writing down changes nothing of what a handler does. -/
theorem replay_recording (handle : Event → σ → Run σ) (events : List Event) (state : σ)
    (written : List (Moment σ)) :
    replay (recording handle) events (state, written) =
      ⟨((replay handle events state).state, (moments handle events state).reverse ++ written),
        (replay handle events state).fault⟩ := by
  induction events generalizing state written with
  | nil => rfl
  | cons event events ih =>
    rcases handled : handle event state with ⟨next, _ | fault⟩
    · have accepted : recording handle event (state, written) = .done (next, ⟨event, state⟩ :: written) := by
        rw [recording, handled]
      rw [replay_cons_of_done accepted, replay_cons_of_done handled, moments_cons_of_done handled, ih,
        List.reverse_cons, List.append_assoc, List.singleton_append]
    · have refused : recording handle event (state, written) = .stop (next, written) fault := by
        rw [recording, handled]
      rw [replay_cons_of_stop refused, replay_cons_of_stop handled, moments_cons_of_stop handled]
      rfl

/-- After events that were all let happen comes what is let happen of the others. -/
theorem moments_append {later : List Event} (accepted : replay handle events state = .done next) :
    moments handle (events ++ later) state = moments handle events state ++ moments handle later next := by
  induction events generalizing state with
  | nil =>
    cases accepted
    rfl
  | cons event events ih =>
    rcases handled : handle event state with ⟨middle, _ | fault⟩
    · rw [replay_cons_of_done handled] at accepted
      rw [List.cons_append, moments_cons_of_done handled, moments_cons_of_done handled, ih accepted,
        List.cons_append]
    · rw [replay_cons_of_stop handled] at accepted
      cases accepted

end Moments

/-- An execution that writes down its history comes to the same state and the same fault. -/
theorem execute_recording (handle : Event → σ → Run σ) (env : Env) (program : List Token) (state : σ) :
    execute (recording handle) env program (state, []) =
      ⟨((execute handle env program state).state, (history handle env program state).reverse),
        (execute handle env program state).fault⟩ := by
  simp only [history, execute_eq_play, Script.play, replay_recording, List.reverse_reverse]
  rcases replay handle (script env program).events state with ⟨final, _ | fault⟩ <;> rfl

theorem history_eq_moments (handle : Event → σ → Run σ) (env : Env) (program : List Token) (state : σ) :
    history handle env program state = moments handle (script env program).events state := by
  simp only [history, execute_eq_play, Script.play, replay_recording, List.append_nil]
  rcases replay handle (script env program).events state with ⟨final, _ | fault⟩ <;>
    exact List.reverse_reverse _

end Execution

end Lamplighter
