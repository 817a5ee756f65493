import Lamplighter.Proofs.Progress

/-! # Loops and unrolled bodies

A loop whose body has its scopes closed in order does what its body does when it is written out as often
as the loop repeats it. The copies stand one level higher, so only the depth limit can tell the two apart
if there is no budget; and each iteration counts one step that the copies do not.
-/

namespace Lamplighter

namespace Machine

/-- Two machines in the same world, of which the first has counted some steps more. -/
def Ahead (extra : Nat) (machine other : Machine) : Prop :=
  machine.world = other.world ∧ machine.steps = other.steps + extra

theorem Ahead.absorb {extra : Nat} {machine other : Machine} (ahead : Ahead extra machine other)
    (shift : Nat) (event : Event) :
    Ahead extra (machine.absorb (event.deeper shift)) (other.absorb event) := by
  obtain ⟨world, steps⟩ := ahead
  have stepped : machine.steps + 1 = other.steps + 1 + extra := by omega
  cases event with
  | act primitive => exact ⟨congrArg (World.perform · primitive) world, stepped⟩
  | iteration => exact ⟨world, stepped⟩
  | call name args depth => exact ⟨world, steps⟩
  | loop count size depth => exact ⟨world, steps⟩
  | cut depth => exact ⟨world, steps⟩

/-- The iteration of a loop is one step more. -/
theorem Ahead.iteration {extra : Nat} {machine other : Machine} (ahead : Ahead extra machine other) :
    Ahead (extra + 1) (machine.absorb .iteration) other :=
  ⟨ahead.1, congrArg (· + 1) ahead.2⟩

end Machine

namespace Execution

open Machine (Ahead)

/-- Two ways to go on that keep the lead of the first machine, unless the first goes too deep. -/
private def InStep (next follow : Machine → Run Machine) : Prop :=
  ∀ extra machine other, Ahead extra machine other →
    Run.Agrees TooDeep (Ahead extra) (next machine) (follow other)

private theorem InStep.congruence :
    Congruence (fun fault cause => fault.withoutIndex = cause.withoutIndex) InStep where
  done := fun _ _ _ ahead => .done ahead
  stop := fun alike _ _ _ ahead => .stop ahead alike
  andThen := fun first next extra machine other ahead =>
    (first extra machine other ahead).andThen (next extra)

private theorem InStep.handled (shift : Nat) (event : Event) :
    InStep (Machine.handle none (event.deeper shift)) (Machine.handle none event) := by
  intro extra machine other ahead
  rw [Machine.handle_eq, Machine.handle_eq]
  exact .done (ahead.absorb shift event)

private theorem InStep.deep (limit : Int) (follow : Machine → Run Machine) :
    InStep (.stop · (.depth limit)) follow :=
  fun _ _ _ _ => .excuse ⟨limit, rfl⟩ _

section Unrolling

variable (env : Env) (room depth : Nat)

/-- A block does on the level above what it does on its own, wherever its tokens stand there. -/
private theorem block_inStep_walk (place : Nat) (tokens : List Token) :
    InStep (block (Machine.handle none) env room (depth + 1) tokens)
      (walk (Machine.handle none) env (block (Machine.handle none) env room (depth + 1)) depth 0 place
        tokens) := by
  cases room with
  | zero => exact .deep env.maxDepth _
  | succ room =>
    refine walk_related 1 InStep.congruence (fun _ _ => rfl) rfl (InStep.handled 1) (fun tokens => ?_)
      depth tokens 0 place (fun _ _ => rfl)
    exact block_related 1 1 InStep.congruence (fun _ => rfl) rfl (InStep.handled 1)
      (fun _ _ => .deep env.maxDepth _) room (depth + 1) tokens

/-- Iterations of a body against its copies, written one after the other. -/
private theorem iterate_agrees_copies (body : Forest) (count place : Nat) {extra : Nat}
    {machine other : Machine} (ahead : Ahead extra machine other) :
    let looped := Run.iterate (fun machine => (Machine.handle none .iteration machine).andThen
      (block (Machine.handle none) env room (depth + 1) body.flatten)) count machine
    let unrolled := walk (Machine.handle none) env (block (Machine.handle none) env room (depth + 1)) depth 0
      place (List.replicate count body.flatten).flatten other
    Run.Agrees TooDeep (fun machine other => machine.world = other.world) looped unrolled ∧
      (looped.fault = none → Ahead (extra + count) looped.state unrolled.state) := by
  induction count generalizing place extra machine other with
  | zero => exact ⟨.done ahead.1, fun _ => ahead⟩
  | succ count ih =>
    have once := block_inStep_walk env room depth place body.flatten (extra + 1) _ other ahead.iteration
    rw [List.replicate_succ, List.flatten_cons, walk_flatten_append, Run.iterate, Machine.handle_eq,
      Run.andThen_done]
    rcases once.outcomes with ⟨state, fault, stopped, deep⟩ | ⟨state, reached, done, copied, led⟩ |
      ⟨state, reached, fault, cause, stopped, copied, led, alike⟩
    · rw [stopped, Run.andThen_stop]
      exact ⟨.excuse deep _, fun ended => by cases ended⟩
    · rw [done, copied, Run.andThen_done, Run.andThen_done, Nat.add_comm count 1, ← Nat.add_assoc]
      exact ih (place + body.size) led
    · rw [stopped, copied, Run.andThen_stop, Run.andThen_stop]
      exact ⟨.stop led.1 alike, fun ended => by cases ended⟩

end Unrolling

end Execution

namespace Machine

/-- A loop and its unrolled body come to the same world, with the same success or the same fault up to
the place of an instruction, if the loop does not go too deep; the loop counts one step more for each
iteration. -/
theorem run_unrolled_loop (env : Env) (machine : Machine) {token : Token} {count : Int} {body : List Token}
    {looped unrolled : Run Machine} (opens : token.keyword = Scope.loop.opener)
    (read : token.readCount = .ok count) (nested : Nesting.check body = .ok ())
    (ran : machine.run env none ([token] ++ body ++ [Scope.loop.closer]) = looped)
    (copied : machine.run env none (List.replicate count.toNat body).flatten = unrolled)
    (shallow : ∀ limit, looped.fault ≠ some (.depth limit)) :
    unrolled.state.world = looped.state.world ∧
      unrolled.fault.map Fault.withoutIndex = looped.fault.map Fault.withoutIndex ∧
      (looped.fault = none → looped.state.steps = unrolled.state.steps + count.toNat) := by
  obtain ⟨forest, rfl⟩ := (Nesting.check_eq_ok_iff body).mp nested
  have kind : token.kind = .opens .loop := (Token.kind_eq_opens_iff token .loop).mpr opens
  have located : token.readCountAt 0 = .ok count := Problem.locate_eq_ok_iff.mpr read
  unfold Machine.run Execution.execute at ran copied
  cases levels : env.room with
  | zero =>
    rw [levels, Execution.block] at ran
    exact absurd (congrArg Run.fault ran.symm) (shallow env.maxDepth)
  | succ room =>
    rw [levels, Execution.block] at ran copied
    rw [List.append_assoc, List.singleton_append,
      Execution.walk_loop_node_of_ok _ _ _ _ _ _ _ _ kind located, Execution.loop, handle_eq,
      Run.andThen_done, funext (Execution.walk_nil _ _ _ _ _), Run.andThen_self_done] at ran
    have met : Ahead 0 (machine.absorb (.loop count forest.flatten.length 0)) machine := ⟨rfl, rfl⟩
    obtain ⟨agrees, led⟩ := Execution.iterate_agrees_copies env room 0 forest count.toNat 0 met
    rw [ran, copied] at agrees led
    rcases agrees with ⟨fault, raised, limit, rfl⟩ | ⟨world, alike⟩
    · exact absurd raised (shallow limit)
    · refine ⟨world.symm, alike.symm, fun ended => ?_⟩
      rw [(led ended).2, Nat.zero_add]

/-- A machine at the left end of a row of seven cells, some of them with lamps. -/
private def lampRow : Machine := start ⟨⟨[".O.#.x.".toList]⟩, 0, 0, .right⟩

/-- A body with a loop, a definition and a lamp to switch. -/
private def lampBody : List Token :=
  ["REPEAT 2".toList, "FORWARD".toList, "ENDREPEAT".toList, "FUNCTION F".toList, "LEFT".toList,
    "ENDFUNCTION".toList, "LIGHT".toList]

/-- Three iterations of the body and its three copies. -/
theorem run_unrolled_loop_of_lamps :
    let looped := lampRow.run ⟨.empty, 2, 450⟩ none (["REPEAT 3".toList] ++ lampBody ++ [Scope.loop.closer])
    let unrolled := lampRow.run ⟨.empty, 2, 450⟩ none (List.replicate 3 lampBody).flatten
    looped.fault = none ∧ unrolled.state.world = looped.state.world ∧
      unrolled.fault.map Fault.withoutIndex = looped.fault.map Fault.withoutIndex ∧
      looped.state.steps = unrolled.state.steps + 3 := by
  intro looped unrolled
  have ended : looped.fault = none := by decide +kernel
  have shallow (limit : Int) : looped.fault ≠ some (.depth limit) := by
    rw [ended]
    simp
  have read : Token.readCount "REPEAT 3".toList = .ok 3 := rfl
  have nested : Nesting.check lampBody = .ok () := rfl
  obtain ⟨world, alike, steps⟩ := run_unrolled_loop ⟨.empty, 2, 450⟩ lampRow (by decide +kernel) read nested
    (rfl : _ = looped) (rfl : _ = unrolled) shallow
  exact ⟨ended, world, alike, steps ended⟩

end Machine

end Lamplighter
