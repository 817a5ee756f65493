import Lamplighter.Machine
import Lamplighter.Proofs.Agreement

/-! # Calls and inlined bodies

A call can be replaced by the body that it runs, wherever it stands, as long as the scopes of the body
are closed in order: such a body changes the end of no scope around it, and walking through it in place
does what the call does one level deeper. Only the depth limit can tell the two apart, since the inlined
body needs one level less.
-/

namespace Lamplighter

/-- Substitution gives the body with its parameters replaced, also where there are none. -/
theorem eq_instantiate_of_substitute {params args : List Text} {body result : List Token}
    (substituted : substitute params args body = .ok result) : result = instantiate params args body := by
  unfold substitute at substituted
  split_ifs at substituted with unparameterised
  · have none : params = [] := List.isEmpty_iff.mp unparameterised
    have unchanged : Bindings.apply [] = id := funext Bindings.apply_nil
    cases substituted
    simp [instantiate, none, unchanged]
  · cases substituted
    rfl

/-- The second list is the first with some occurrences of a call replaced by a body. -/
inductive Inlined (call : Token) (body : List Token) : List Token → List Token → Prop where
  | nil : Inlined call body [] []
  | keep (token : Token) {tokens others : List Token} (rest : Inlined call body tokens others) :
    Inlined call body (token :: tokens) (token :: others)
  | inline {tokens others : List Token} (rest : Inlined call body tokens others) :
    Inlined call body (call :: tokens) (body ++ others)

namespace Inlined

variable {call : Token} {body : List Token}

theorem refl (tokens : List Token) : Inlined call body tokens tokens := by
  induction tokens with
  | nil => exact .nil
  | cons token rest ih => exact .keep token ih

/-- One call replaced between tokens that stay. -/
theorem middle (before after : List Token) :
    Inlined call body (before ++ [call] ++ after) (before ++ body ++ after) := by
  induction before with
  | nil => exact .inline (refl after)
  | cons token rest ih => exact .keep token ih

/-- The scan for the end of a scope cuts both lists at the same place: what is inside the scope and
what comes after its closer are related again. -/
theorem cut {forest : Forest} (plain : call.IsLeaf) (scope : Scope) (inner : Nat)
    {tokens others : List Token} (inlined : Inlined call forest.flatten tokens others) :
    Inlined call forest.flatten (tokens.take (scope.sizeFrom inner tokens))
        (others.take (scope.sizeFrom inner others)) ∧
      Inlined call forest.flatten (tokens.drop (scope.sizeFrom inner tokens + 1))
        (others.drop (scope.sizeFrom inner others + 1)) := by
  induction inlined generalizing inner with
  | nil => exact ⟨by simpa using .nil, by simpa using .nil⟩
  | @keep token tokens others rest ih =>
    by_cases closes : token.kind = .closes scope
    · obtain rfl := (Token.kind_eq_closes_iff token scope).mp closes
      cases inner with
      | zero =>
        simp only [Scope.sizeFrom_end, List.take_zero, Nat.zero_add, List.drop_one, List.tail_cons]
        exact ⟨.nil, rest⟩
      | succ inner =>
        simp only [Scope.sizeFrom_close, List.take_succ_cons, List.drop_succ_cons]
        exact ⟨.keep _ (ih inner).1, (ih inner).2⟩
    · by_cases opens : token.kind = .opens scope
      · simp only [Scope.sizeFrom_open scope inner token _ opens, List.take_succ_cons, List.drop_succ_cons]
        exact ⟨.keep token (ih (inner + 1)).1, (ih (inner + 1)).2⟩
      · simp only [Scope.sizeFrom_pass scope inner token _ closes opens, List.take_succ_cons,
          List.drop_succ_cons]
        exact ⟨.keep token (ih inner).1, (ih inner).2⟩
  | @inline tokens others rest ih =>
    obtain ⟨inside, outside⟩ := ih inner
    rw [Scope.sizeFrom_pass scope inner call _ (plain scope).2 (plain scope).1, Scope.sizeFrom_flatten,
      Forest.size, Nat.add_assoc forest.flatten.length, List.take_length_add_append,
      List.drop_length_add_append,
      List.take_succ_cons, List.drop_succ_cons]
    exact ⟨.inline inside, outside⟩

end Inlined

namespace Machine

/-- Two machines that differ at most in their logs. -/
def SameProgress (machine other : Machine) : Prop :=
  machine.world = other.world ∧ machine.steps = other.steps

variable {excused : Fault → Prop} {machine other : Machine}

theorem SameProgress.report (same : SameProgress machine other) (note remark : Note) :
    SameProgress (machine.report note) (other.report remark) := same

theorem SameProgress.count (same : SameProgress machine other) (budget : Option Int) :
    Run.Agrees excused SameProgress (machine.count budget) (other.count budget) := by
  obtain ⟨world, steps⟩ := same
  have counted : SameProgress { machine with steps := machine.steps + 1 }
      { other with steps := other.steps + 1 } := ⟨world, congrArg (· + 1) steps⟩
  unfold Machine.count
  cases budget with
  | none => exact .done counted
  | some limit =>
    simp only [← steps] at counted ⊢
    split_ifs
    · exact .stop counted rfl
    · exact .done counted

theorem SameProgress.act (same : SameProgress machine other) (budget : Option Int)
    (primitive : Primitive) :
    Run.Agrees excused SameProgress (handle budget (.act primitive) machine)
      (handle budget (.act primitive) other) := by
  apply (same.count budget).andThen
  rintro machine other ⟨world, steps⟩
  exact .done ⟨congrArg (World.perform · primitive) world, steps⟩

end Machine

namespace Execution

open Machine (SameProgress)

section Inlining

variable {env : Env} {budget : Option Int} {token : Token} {function : FunctionDef} {args : List Text}
variable {forest : Forest}

/-- One level of two walks that agree: `entered` is agreement below the level, and `inside` that the
inlined body does on this level what the call does below it. -/
private theorem walk_agrees {enter follow : List Token → Machine → Run Machine} {depth level : Nat}
    (calls : token.kind = .call) (resolved : ∀ index, resolve env token index = .ok (function, args))
    (written : forest.flatten = instantiate function.params args function.body)
    (entered : ∀ {tokens others machine other}, Inlined token forest.flatten tokens others →
      SameProgress machine other →
        Run.Agrees TooDeep SameProgress (enter tokens machine) (follow others other))
    (inside : ∀ (place : Nat) {machine other}, SameProgress machine other →
      Run.Agrees TooDeep SameProgress (enter forest.flatten machine)
        (walk (Machine.handle budget) env follow level 0 place forest.flatten other))
    {tokens others : List Token} (inlined : Inlined token forest.flatten tokens others)
    (index place : Nat) {machine other : Machine} (same : SameProgress machine other) :
    Run.Agrees TooDeep SameProgress
      (walk (Machine.handle budget) env enter depth 0 index tokens machine)
      (walk (Machine.handle budget) env follow level 0 place others other) := by
  generalize bound : tokens.length = length
  induction length using Nat.strongRecOn generalizing tokens others index place machine other with
  | _ length ih =>
    subst bound
    have plain : token.IsLeaf := fun scope => by simp [calls]
    cases inlined with
    | nil => exact .done same
    | @keep head tokens others rest =>
      cases kind : head.kind with
      | act primitive =>
        rw [walk_act _ _ _ _ _ _ _ kind, walk_act _ _ _ _ _ _ _ kind]
        apply (same.act budget primitive).andThen
        intro machine other same
        exact ih tokens.length (by simp) rest (index + 1) (place + 1) same rfl
      | opens scope =>
        obtain ⟨body, after⟩ := rest.cut plain scope 0
        have shorter : (tokens.drop (scope.size tokens + 1)).length < (head :: tokens).length := by
          simp only [List.length_drop, List.length_cons]
          omega
        cases scope with
        | definition =>
          rw [walk_definition _ _ _ _ _ _ _ kind, walk_definition _ _ _ _ _ _ _ kind]
          exact ih _ shorter after _ _ same rfl
        | loop =>
          rcases readCountAt_cases head with ⟨count, read⟩ | ⟨problem, unread⟩
          · rw [walk_loop_of_ok _ _ _ _ _ _ _ kind (read index),
              walk_loop_of_ok _ _ _ _ _ _ _ kind (read place)]
            refine Run.Agrees.andThen ?_ fun machine other same => ih _ shorter after _ _ same rfl
            refine Run.Agrees.iterate (fun machine other same => ?_) count.toNat (same.report _ _)
            exact (same.count budget).andThen fun machine other same => entered body same
          · rw [walk_loop_of_error _ _ _ _ _ _ _ kind (unread index),
              walk_loop_of_error _ _ _ _ _ _ _ kind (unread place)]
            exact .stop same rfl
      | closes scope =>
        cases scope with
        | loop =>
          rw [walk_cut _ _ _ _ _ _ _ kind, walk_cut _ _ _ _ _ _ _ kind]
          exact .done same
        | definition =>
          rw [walk_pass _ _ _ _ _ _ _ (.inr kind), walk_pass _ _ _ _ _ _ _ (.inr kind)]
          exact ih tokens.length (by simp) rest _ _ same rfl
      | call =>
        rcases resolve_cases env head with ⟨callee, found⟩ | ⟨cause, missing⟩
        · rw [walk_call_of_ok _ _ _ _ _ _ _ kind (found index),
            walk_call_of_ok _ _ _ _ _ _ _ kind (found place)]
          refine Run.Agrees.andThen ?_ fun machine other same => ih tokens.length (by simp) rest _ _ same rfl
          exact entered (.refl _) (same.report _ _)
        · obtain ⟨fault, raised, alike⟩ := missing index
          obtain ⟨other, thrown, like⟩ := missing place
          rw [walk_call_of_error _ _ _ _ _ _ _ kind raised, walk_call_of_error _ _ _ _ _ _ _ kind thrown]
          exact .stop same (alike.trans like.symm)
      | other =>
        rw [walk_pass _ _ _ _ _ _ _ (.inl kind), walk_pass _ _ _ _ _ _ _ (.inl kind)]
        exact ih tokens.length (by simp) rest _ _ same rfl
    | @inline tokens others rest =>
      rw [walk_call_of_ok _ _ _ _ _ _ _ calls (resolved index), walk_flatten_append]
      refine Run.Agrees.andThen ?_ fun machine other same => ih tokens.length (by simp) rest _ _ same rfl
      have noted : SameProgress (machine.report (.call function.name args depth)) other := same
      rw [call, ← written]
      exact inside place noted

/-- Two walks agree if the second has the call inlined and at least as much room below it. -/
private theorem walk_block_agrees (calls : token.kind = .call)
    (resolved : ∀ index, resolve env token index = .ok (function, args))
    (written : forest.flatten = instantiate function.params args function.body)
    (room : Nat) {wider : Nat} (wide : room ≤ wider) (depth level : Nat)
    {tokens others : List Token} (inlined : Inlined token forest.flatten tokens others)
    (index place : Nat) {machine other : Machine} (same : SameProgress machine other) :
    Run.Agrees TooDeep SameProgress
      (walk (Machine.handle budget) env (block (Machine.handle budget) env room (depth + 1)) depth 0 index
        tokens machine)
      (walk (Machine.handle budget) env (block (Machine.handle budget) env wider (level + 1)) level 0 place
        others other) := by
  induction room generalizing wider depth level tokens others index place machine other with
  | zero =>
    refine walk_agrees calls resolved written ?_ ?_ inlined index place same
    · intro tokens others machine other _ _
      exact .excuse ⟨env.maxDepth, rfl⟩ _
    · intro place machine other _
      exact .excuse ⟨env.maxDepth, rfl⟩ _
  | succ room ih =>
    refine walk_agrees calls resolved written ?_ ?_ inlined index place same
    · intro tokens others machine other below same
      cases wider with
      | zero => omega
      | succ wider => exact ih (Nat.le_of_succ_le_succ wide) (depth + 1) (level + 1) below 0 0 same
    · intro place machine other same
      exact ih (Nat.le_of_succ_le wide) (depth + 1) level (.refl forest.flatten) 0 place same

end Inlining

end Execution

namespace Machine

private theorem run_agrees {env : Env} (budget : Option Int) {token : Token} {function : FunctionDef}
    {args : List Text} {forest : Forest} (calls : token.kind = .call)
    (resolved : ∀ index, Execution.resolve env token index = .ok (function, args))
    (written : forest.flatten = instantiate function.params args function.body)
    (machine : Machine) (before after : List Token) :
    Run.Agrees Execution.TooDeep SameProgress (machine.run env budget (before ++ [token] ++ after))
      (machine.run env budget (before ++ forest.flatten ++ after)) := by
  unfold Machine.run Execution.execute
  cases env.room with
  | zero => exact .excuse ⟨env.maxDepth, rfl⟩ _
  | succ room =>
    exact Execution.walk_block_agrees calls resolved written room (Nat.le_refl room) 0 0
      (.middle before after) 0 0 ⟨rfl, rfl⟩

/-- A call and its inlined body come to the same world and the same count of steps, with the same
success or the same fault up to the place of an instruction, if the call does not go too deep. -/
theorem run_inline_call (env : Env) (budget : Option Int) (machine : Machine) (before after : List Token)
    {token : Token} {signature : Signature} {function : FunctionDef} {body : List Token}
    {called inlined : Run Machine}
    (calls : token.kind = .call) (read : Signature.read Token.callWord token = .ok signature)
    (found : env.functions.find? signature.name = some function)
    (arity : signature.operands.length = function.arity)
    (substituted : substitute function.params signature.operands function.body = .ok body)
    (nested : Nesting.check body = .ok ())
    (ran : machine.run env budget (before ++ [token] ++ after) = called)
    (replaced : machine.run env budget (before ++ body ++ after) = inlined)
    (shallow : ∀ limit, called.fault ≠ some (.depth limit)) :
    inlined.state.world = called.state.world ∧ inlined.state.steps = called.state.steps ∧
      inlined.fault.map Fault.withoutIndex = called.fault.map Fault.withoutIndex := by
  obtain ⟨forest, written⟩ := (Nesting.check_eq_ok_iff body).mp nested
  have resolved (index : Nat) :
      Execution.resolve env token index = .ok (function, signature.operands) := by
    simp [Execution.resolve, Signature.readAt, read, Problem.locate, Except.mapError, found, arity]
  have instantiated : forest.flatten = instantiate function.params signature.operands function.body :=
    written.trans (eq_instantiate_of_substitute substituted)
  have agrees := run_agrees budget calls resolved instantiated machine before after
  rw [written, ran, replaced] at agrees
  rcases agrees with ⟨fault, raised, limit, rfl⟩ | ⟨⟨world, steps⟩, faults⟩
  · exact absurd raised (shallow limit)
  · exact ⟨world.symm, steps.symm, faults.symm⟩

/-- A function that walks a number of steps. -/
private def walkSteps : FunctionDef :=
  ⟨"WALK".toList, ["n".toList], ["REPEAT n".toList, "FORWARD".toList, "ENDREPEAT".toList]⟩

/-- A machine at the left end of a row of five cells. -/
private def corridor : Machine := start ⟨⟨[".....".toList]⟩, 0, 0, .right⟩

/-- A call inside a loop and its inlined body go over the budget at the same step. -/
theorem run_inline_call_over_budget :
    let called := corridor.run ⟨⟨[walkSteps]⟩, 5, 450⟩ (some 9)
      (["REPEAT 2".toList] ++ ["CALL WALK(2)".toList] ++ ["LIGHT".toList, "ENDREPEAT".toList])
    let inlined := corridor.run ⟨⟨[walkSteps]⟩, 5, 450⟩ (some 9)
      (["REPEAT 2".toList] ++ ["REPEAT 2".toList, "FORWARD".toList, "ENDREPEAT".toList] ++
        ["LIGHT".toList, "ENDREPEAT".toList])
    called.fault = some (.budget 9) ∧ inlined.state.world = called.state.world ∧
      inlined.state.steps = called.state.steps ∧
        inlined.fault.map Fault.withoutIndex = called.fault.map Fault.withoutIndex := by
  intro called inlined
  have stopped : called.fault = some (.budget 9) := by decide +kernel
  have shallow (limit : Int) : called.fault ≠ some (.depth limit) := by
    rw [stopped]
    simp
  have signature : Signature.read Token.callWord "CALL WALK(2)".toList =
      .ok ⟨"WALK".toList, ["2".toList]⟩ := rfl
  have found : FunctionTable.find? ⟨[walkSteps]⟩ "WALK".toList = some walkSteps := by decide +kernel
  have body : substitute walkSteps.params ["2".toList] walkSteps.body =
      .ok ["REPEAT 2".toList, "FORWARD".toList, "ENDREPEAT".toList] := rfl
  exact ⟨stopped, run_inline_call ⟨⟨[walkSteps]⟩, 5, 450⟩ (some 9) corridor ["REPEAT 2".toList]
    ["LIGHT".toList, "ENDREPEAT".toList] (by decide +kernel) signature found rfl body rfl
    rfl rfl shallow⟩

end Machine

end Lamplighter
