import Lamplighter.Proofs.Invariant
import Lamplighter.Proofs.Simulation

/-! # Programs one after the other

A program whose scopes are closed in order can be written in front of any other one: running both as one
list is running the first and then, on the machine that it leaves, the second. Only the places change that
the second program's own instructions have in their list. An instruction inside a loop or a function is
counted from the start of that body, so its place stays as it is.
-/

namespace Lamplighter

namespace Fault

/-- The fault with the place of its instruction moved on. -/
def movedBy (offset : Nat) : Fault → Fault
  | malformed cause => malformed { cause with index := cause.index.map (· + (offset : Int)) }
  | fault => fault

@[simp] theorem movedBy_zero (fault : Fault) : fault.movedBy 0 = fault := by
  rcases fault with _ | ⟨problem, _ | index⟩ <;> simp [movedBy]

theorem movedBy_of_ne_malformed {fault : Fault} (other : ∀ cause, fault ≠ .malformed cause) (offset : Nat) :
    fault.movedBy offset = fault := by
  cases fault with
  | malformed cause => exact absurd rfl (other cause)
  | _ => rfl

end Fault

namespace Execution

variable {σ : Type}

/-- Tells a handler an event, and leaves the mark on the state as it is. -/
def handleMarked (handle : Event → σ → Run σ) (event : Event) (entry : σ × Bool) : Run (σ × Bool) :=
  let run := handle event entry.1
  ⟨(run.state, entry.2), run.fault⟩

/-- Executes a block, and marks the state if the block was stopped. -/
def enterMarked (enter : List Token → σ → Run σ) (tokens : List Token) (entry : σ × Bool) : Run (σ × Bool) :=
  let run := enter tokens entry.1
  ⟨(run.state, run.fault.isSome), run.fault⟩

/-- Whether the execution of a program is stopped inside a loop or a called function, and not at one of
the program's own tokens. -/
def stoppedBelow (handle : Event → σ → Run σ) (env : Env) (program : List Token) (state : σ) : Bool :=
  match env.room with
  | 0 => false
  | room + 1 =>
    (walk (handleMarked handle) env (enterMarked (block handle env room 1)) 0 0 0 program
      (state, false)).state.2

/-- The run that a marked one stands for, at a place further on: the faults that come from below have
their place in the list below, and the others are moved on. -/
def unmark (offset : Nat) (marked : Run (σ × Bool)) : Run σ :=
  ⟨marked.state.1, if marked.state.2 then marked.fault else marked.fault.map (·.movedBy offset)⟩

theorem unmark_zero (marked : Run (σ × Bool)) : unmark 0 marked = ⟨marked.state.1, marked.fault⟩ := by
  rcases marked with ⟨⟨state, _ | _⟩, _ | fault⟩ <;> simp [unmark]

/-- The first way to go on is what the marks make of the second, and there is no mark without a fault. -/
private def Marks (offset : Nat) (next : σ → Run σ) (follow : σ × Bool → Run (σ × Bool)) : Prop :=
  ∀ state, next state = unmark offset (follow (state, false)) ∧
    ((follow (state, false)).fault = none → (follow (state, false)).state.2 = false)

private theorem Marks.congruence (offset : Nat) :
    Congruence (fun fault cause => fault = cause.movedBy offset) (@Marks σ offset) where
  done := fun _ => ⟨rfl, fun _ => rfl⟩
  stop := by
    rintro _ cause rfl state
    exact ⟨rfl, fun _ => rfl⟩
  andThen := by
    intro first next second follow marks continued state
    obtain ⟨ran, unmarked⟩ := marks state
    dsimp only
    rw [ran]
    rcases reached : second (state, false) with ⟨⟨middle, mark⟩, _ | fault⟩
    · rw [reached] at unmarked
      obtain rfl : mark = false := unmarked rfl
      exact continued middle
    · refine ⟨?_, fun ended => by cases ended⟩
      cases mark <;> rfl

private theorem Marks.entered (offset : Nat) (enter : List Token → σ → Run σ) (tokens : List Token) :
    Marks offset (enter tokens) (enterMarked enter tokens) := by
  intro state
  unfold enterMarked
  generalize enter tokens state = run
  rcases run with ⟨next, _ | fault⟩
  · exact ⟨rfl, fun _ => rfl⟩
  · exact ⟨rfl, fun ended => by cases ended⟩

private theorem Marks.handled {handle : Event → σ → Run σ}
    (other : ∀ event state cause, (handle event state).fault ≠ some (.malformed cause)) (offset : Nat)
    (event : Event) : Marks offset (handle event) (handleMarked handle event) := by
  intro state
  have placeless := other event state
  unfold handleMarked
  generalize handle event state = run at placeless ⊢
  rcases run with ⟨next, _ | fault⟩
  · exact ⟨rfl, fun _ => rfl⟩
  · refine ⟨?_, fun ended => by cases ended⟩
    have same : fault.movedBy offset = fault :=
      Fault.movedBy_of_ne_malformed (fun cause named => placeless cause (congrArg some named)) offset
    exact congrArg (Run.stop next) same.symm

/-- A walk that starts further on in a list is what the marks make of the walk from the start. -/
theorem walk_eq_unmark {handle : Event → σ → Run σ}
    (other : ∀ event state cause, (handle event state).fault ≠ some (.malformed cause)) (env : Env)
    (enter : List Token → σ → Run σ) (depth offset : Nat) (tokens : List Token) (state : σ) :
    walk handle env enter depth 0 offset tokens state =
      unmark offset (walk (handleMarked handle) env (enterMarked enter) depth 0 0 tokens (state, false)) := by
  refine (walk_related 0 (Marks.congruence offset) (fun fault read => ?_) rfl (fun event => ?_)
    (Marks.entered offset enter) depth tokens offset 0 (fun problem ahead => ?_) state).1
  · exact (Fault.movedBy_of_ne_malformed read offset).symm
  · rw [Event.deeper_zero]
    exact Marks.handled other offset event
  · simp only [Fault.movedBy, Option.map_some, Nat.zero_add, Int.natCast_add, Int.add_comm]

/-- The cause is that one of the tokens cannot be read, and gives its place; `index` is that of the first
token. -/
def BlamesToken (tokens : List Token) (index : Nat) (cause : Malformed) : Prop :=
  ∃ (ahead : Nat) (token : Token), tokens[ahead]? = some token ∧
    cause.index = some ((index + ahead : Nat) : Int) ∧
    (token.readCount = .error cause.problem ∨ Signature.read Token.callWord token = .error cause.problem)

/-- A token that is blamed behind others stands that much further on in the whole list. -/
theorem BlamesToken.of_drop {tokens : List Token} {index passed : Nat} {cause : Malformed}
    (blames : BlamesToken (tokens.drop passed) (index + (passed + 1)) cause) (token : Token) :
    BlamesToken (token :: tokens) index cause := by
  obtain ⟨ahead, other, found, place, unread⟩ := blames
  rw [List.getElem?_drop] at found
  refine ⟨passed + ahead + 1, other, found, ?_, unread⟩
  rw [place, Nat.add_assoc, Nat.add_right_comm]

/-- Without a mark there is no fault, or it is one of the given places. -/
private def Blames (site : Malformed → Prop) (run : Run (σ × Bool)) : Prop :=
  (run.fault = none → run.state.2 = false) ∧
    ∀ cause, run.fault = some (.malformed cause) → run.state.2 = false → site cause

private theorem Blames.andThen {site : Malformed → Prop} {run : Run (σ × Bool)}
    {next : σ × Bool → Run (σ × Bool)} (blames : Blames site run)
    (continued : ∀ state, Blames site (next (state, false))) : Blames site (run.andThen next) := by
  rcases run with ⟨⟨state, mark⟩, _ | fault⟩
  · obtain rfl : mark = false := blames.1 rfl
    exact continued state
  · exact blames

private theorem Blames.iterate {site : Malformed → Prop} {body : σ × Bool → Run (σ × Bool)}
    (once : ∀ state, Blames site (body (state, false))) (count : Nat) (state : σ) :
    Blames site (Run.iterate body count (state, false)) := by
  induction count generalizing state with
  | zero => exact ⟨fun _ => rfl, fun _ raised => by cases raised⟩
  | succ count ih => exact (once state).andThen ih

private theorem Blames.mono {site wider : Malformed → Prop} {run : Run (σ × Bool)} (blames : Blames site run)
    (weaken : ∀ cause, site cause → wider cause) : Blames wider run :=
  ⟨blames.1, fun cause raised unmarked => weaken cause (blames.2 cause raised unmarked)⟩

private theorem blames_enterMarked (site : Malformed → Prop) (enter : List Token → σ → Run σ)
    (tokens : List Token) (state : σ) : Blames site (enterMarked enter tokens (state, false)) := by
  unfold enterMarked
  generalize enter tokens state = run
  rcases run with ⟨next, _ | fault⟩
  · exact ⟨fun _ => rfl, fun _ raised => by cases raised⟩
  · exact ⟨fun ended => (by cases ended), fun _ _ unmarked => (by cases unmarked)⟩

private theorem blames_handleMarked (site : Malformed → Prop) {handle : Event → σ → Run σ}
    (other : ∀ event state cause, (handle event state).fault ≠ some (.malformed cause)) (event : Event)
    (state : σ) : Blames site (handleMarked handle event (state, false)) :=
  ⟨fun _ => rfl, fun cause raised => absurd raised (other event state cause)⟩

private theorem readAt_of_resolve {env : Env} {token : Token} {index : Nat} {cause : Malformed}
    (unresolved : resolve env token index = .error (.malformed cause)) :
    Signature.readAt Token.callWord token index = .error cause := by
  unfold resolve at unresolved
  split at unresolved
  · rename_i malformed unread
    cases unresolved
    exact unread
  · split at unresolved
    · cases unresolved
    · split at unresolved <;> cases unresolved

/-- A walk that stops without a mark because of something malformed has come to a token of its list that
cannot be read. -/
private theorem walk_blames {handle : Event → σ → Run σ}
    (other : ∀ event state cause, (handle event state).fault ≠ some (.malformed cause)) (env : Env)
    (enter : List Token → σ → Run σ) (depth index : Nat) (tokens : List Token) (state : σ) :
    Blames (BlamesToken tokens index)
      (walk (handleMarked handle) env (enterMarked enter) depth 0 index tokens (state, false)) := by
  have stopped {site : Malformed → Prop} (fault : Fault) (state : σ)
      (blamed : ∀ cause, fault = .malformed cause → site cause) : Blames site (.stop (state, false) fault) :=
    ⟨fun _ => rfl, fun cause raised _ => blamed cause (Option.some.inj raised)⟩
  induction tokens using leapwise generalizing index state with
  | nil => exact ⟨fun _ => rfl, fun _ raised => by cases raised⟩
  | cons token rest ih =>
    have later (passed : Nat) (state : σ) : Blames (BlamesToken (token :: rest) index)
        (walk (handleMarked handle) env (enterMarked enter) depth 0 (index + (passed + 1))
          (rest.drop passed) (state, false)) :=
      (ih passed (index + (passed + 1)) state).mono fun _ blames => blames.of_drop token
    have told (event : Event) (state : σ) :=
      blames_handleMarked (BlamesToken (token :: rest) index) other event state
    have entered (tokens : List Token) (state : σ) :=
      blames_enterMarked (BlamesToken (token :: rest) index) enter tokens state
    have blamed {cause : Malformed} (unread : token.readCount = .error cause.problem ∨
        Signature.read Token.callWord token = .error cause.problem)
        (place : cause.index = some (index : Int)) :
        BlamesToken (token :: rest) index cause := ⟨0, token, rfl, place, unread⟩
    cases step env index token with
    | act acts =>
      rw [walk_act _ _ _ _ _ _ _ acts]
      exact (told _ state).andThen (later 0)
    | cut closes =>
      rw [walk_cut _ _ _ _ _ _ _ closes]
      exact told _ state
    | @loop count opens read =>
      rw [walk_loop_of_ok _ _ _ _ _ _ _ opens read]
      refine Blames.andThen ((told _ state).andThen fun met => ?_) (later (Scope.loop.size rest + 1))
      exact Blames.iterate (fun state => (told .iteration state).andThen (entered _)) count.toNat met
    | unread opens unread =>
      rw [walk_loop_of_error _ _ _ _ _ _ _ opens unread]
      refine stopped _ state fun cause same => ?_
      cases same
      have located := Problem.locate_eq_error_iff.mp unread
      exact blamed (.inl located.1) located.2
    | definition opens =>
      rw [walk_definition _ _ _ _ _ _ _ opens]
      exact later (Scope.definition.size rest + 1) state
    | call calls resolved =>
      rw [walk_call_of_ok _ _ _ _ _ _ _ calls resolved]
      exact Blames.andThen ((told _ state).andThen (entered _)) (later 0)
    | unresolved calls unresolved =>
      rw [walk_call_of_error _ _ _ _ _ _ _ calls unresolved]
      refine stopped _ state fun cause same => ?_
      subst same
      have located := Problem.locate_eq_error_iff.mp (readAt_of_resolve unresolved)
      exact blamed (.inr located.1) located.2
    | pass idle =>
      rw [walk_pass _ _ _ _ _ _ _ idle]
      exact later 0 state

end Execution

namespace Machine

open Execution (walk block handleMarked enterMarked stoppedBelow unmark_zero walk_eq_unmark BlamesToken)

private theorem handle_ne_malformed (budget : Option Int) (event : Event) (machine : Machine)
    (cause : Malformed) :
    (handle budget event machine).fault ≠ some (.malformed cause) := by
  intro raised
  obtain ⟨limit, budget⟩ := handle_fault raised
  cases budget

/-- A program further on in a list comes to the same machine. The places of its own tokens are moved on, and
a fault that is not from below and names a place is about one of them. -/
private theorem walk_moved (env : Env) (budget : Option Int) {room : Nat} (levels : env.room = room + 1)
    (offset : Nat) (program : List Token) (machine : Machine) :
    let moved := walk (handle budget) env (block (handle budget) env room 1) 0 0 offset program machine
    let ran := machine.run env budget program
    moved.state = ran.state ∧
      moved.fault = (if stoppedBelow (handle budget) env program machine then ran.fault
        else ran.fault.map (·.movedBy offset)) ∧
      (stoppedBelow (handle budget) env program machine = false → ∀ cause,
        ran.fault = some (.malformed cause) → BlamesToken program 0 cause) := by
  have read (offset : Nat) := walk_eq_unmark (handle_ne_malformed budget) env
    (block (handle budget) env room 1) 0 offset program machine
  have blames := Execution.walk_blames (handle_ne_malformed budget) env
    (block (handle budget) env room 1) 0 0 program machine
  rcases marked : walk (handleMarked (handle budget)) env
    (enterMarked (block (handle budget) env room 1)) 0 0 0 program (machine, false) with ⟨⟨state, mark⟩, fault⟩
  rw [marked] at blames
  have below : stoppedBelow (handle budget) env program machine = mark := by
    rw [stoppedBelow, levels]
    exact congrArg (·.state.2) marked
  have ran : machine.run env budget program = ⟨state, fault⟩ := by
    rw [Machine.run, Execution.execute, levels, block, read, marked, unmark_zero]
  rw [below, ran, read, marked]
  exact ⟨rfl, rfl, fun unmarked cause raised => blames.2 cause raised unmarked⟩

/-- A program whose scopes are closed in order and any program after it run as one list. If the first fails,
the list fails in the same way. If it comes to its end, the list goes on like the second program on its own:
to the same world, steps and log and with the same fault, whose place is moved on by the length of the first
program if it is that of a token of the second one itself. -/
theorem run_append_of_nested (env : Env) (budget : Option Int) (machine : Machine) {first : List Token}
    (nested : Nesting.check first = .ok ()) (second : List Token) :
    let joined := machine.run env budget (first ++ second)
    (∀ middle fault, machine.run env budget first = .stop middle fault → joined = .stop middle fault) ∧
      ∀ middle, machine.run env budget first = .done middle →
        let later := middle.run env budget second
        let below := stoppedBelow (handle budget) env second middle
        joined.state = later.state ∧
          joined.fault = (if below then later.fault else later.fault.map (·.movedBy first.length)) ∧
          (below = false → ∀ cause, later.fault = some (.malformed cause) → BlamesToken second 0 cause) := by
  intro joined
  obtain ⟨forest, rfl⟩ := (Nesting.check_eq_ok_iff first).mp nested
  cases levels : env.room with
  | zero =>
    have deep (program : List Token) :
        machine.run env budget program = .stop machine (.depth env.maxDepth) := by
      rw [Machine.run, Execution.execute, levels, block]
    refine ⟨fun middle fault stopped => ?_, fun middle done => ?_⟩
    · rw [← stopped, deep forest.flatten]
      exact deep _
    · rw [deep] at done
      cases done
  | succ room =>
    have split : joined = (machine.run env budget forest.flatten).andThen
        (walk (handle budget) env (block (handle budget) env room 1) 0 0 forest.size second) := by
      have walked := Execution.walk_flatten_append (handle budget) env (block (handle budget) env room 1) 0 0
        forest second machine
      rw [Nat.zero_add] at walked
      simp only [joined, Machine.run, Execution.execute, levels, block]
      exact walked
    refine ⟨fun middle fault stopped => ?_, fun middle done => ?_⟩
    · rw [split, stopped, Run.andThen_stop]
    · rw [split, done, Run.andThen_done]
      exact walk_moved env budget levels forest.size second middle

/-- A machine at the left end of a row of four cells, with three steps counted already. -/
private def alley : Machine := ⟨⟨⟨["....".toList]⟩, 0, 0, .right⟩, 3, []⟩

private def walkTwo : List Token := ["REPEAT 2".toList, "FORWARD".toList, "ENDREPEAT".toList]

/-- A call that cannot be read after another token, and one in a loop. The first moves on to the fifth place
of the list, the second stays the first of the loop. -/
theorem run_append_of_unreadable_calls :
    let own := ["LIGHT".toList, "CALL (".toList, "LEFT".toList]
    let below := ["REPEAT 1".toList, "CALL (".toList, "ENDREPEAT".toList]
    let middle := (alley.run ⟨.empty, 2, 450⟩ (some 8) walkTwo).state
    Nesting.check walkTwo = .ok () ∧ (alley.run ⟨.empty, 2, 450⟩ (some 8) walkTwo).fault = none ∧
      middle.steps = 7 ∧
      (alley.run ⟨.empty, 2, 450⟩ (some 8) (walkTwo ++ own)).state =
        (middle.run ⟨.empty, 2, 450⟩ (some 8) own).state ∧
      (alley.run ⟨.empty, 2, 450⟩ (some 8) (walkTwo ++ own)).fault =
        some (.malformed ⟨.unclosedList "CALL (".toList, some 4⟩) ∧
      (alley.run ⟨.empty, 2, 450⟩ (some 8) (walkTwo ++ below)).state =
        (middle.run ⟨.empty, 2, 450⟩ (some 8) below).state ∧
      (alley.run ⟨.empty, 2, 450⟩ (some 8) (walkTwo ++ below)).fault =
        some (.malformed ⟨.unclosedList "CALL (".toList, some 0⟩) := by
  intro own below middle
  have nested : Nesting.check walkTwo = .ok () := rfl
  have ended : (alley.run ⟨.empty, 2, 450⟩ (some 8) walkTwo).fault = none := by decide +kernel
  have done : alley.run ⟨.empty, 2, 450⟩ (some 8) walkTwo = .done middle := by rw [Run.done, ← ended]
  have steps : middle.steps = 7 := by decide +kernel
  obtain ⟨state, fault, _⟩ := (run_append_of_nested ⟨.empty, 2, 450⟩ (some 8) alley nested own).2 middle done
  obtain ⟨inner, kept, _⟩ := (run_append_of_nested ⟨.empty, 2, 450⟩ (some 8) alley nested below).2 middle done
  refine ⟨nested, ended, steps, state, fault.trans ?_, inner, kept.trans ?_⟩
  · decide +kernel
  · decide +kernel

end Machine

end Lamplighter
