import Lamplighter.Machine
import Lamplighter.Proofs.Walk

/-! # Structured evaluation

A forest has a meaning of its own, by recursion on its scopes: no closer is looked for, no index jumps,
and a scope is evaluated where it stands. The machine runs the flat writing of a forest to the same
world, the same count of steps, the same log and the same fault, at every level and under every limit.
The body of a called function is a list of tokens, which need not be a forest once its arguments are
put in; a call therefore hands it to the machine.
-/

namespace Lamplighter

namespace Forest

/-- Evaluates on a level, unless the level lies below the deepest one that is allowed. -/
def onLevel (env : Env) (depth : Nat) (evaluate : Machine → Run Machine) (machine : Machine) : Run Machine :=
  if min env.maxDepth env.stack < depth then .stop machine (.depth env.maxDepth) else evaluate machine

/-- A command counts one step and then acts, a call runs the function's body one level deeper, and
any other leaf does nothing. -/
def evaluateLeaf (env : Env) (budget : Option Int) (depth index : Nat) (token : Token)
    (machine : Machine) : Run Machine :=
  match token.kind with
  | .act primitive =>
    (machine.count budget).andThen fun counted =>
      .done { counted with world := counted.world.perform primitive }
  | .call =>
    match Execution.resolve env token index with
    | .error fault => .stop machine fault
    | .ok (function, args) =>
      Execution.block (Machine.handle budget) env (env.roomAt (depth + 1)) (depth + 1)
        (instantiate function.params args function.body) (machine.report (.call function.name args depth))
  | _ => .done machine

/-- Evaluates a row on a level that is allowed; `index` is the place of the row's first token in the
list that the row is written in. -/
def evaluateRow (env : Env) (budget : Option Int) : (depth index : Nat) → Forest → Machine → Run Machine
  | _, _, nil, machine => .done machine
  | depth, index, leaf token _ rest, machine =>
    (evaluateLeaf env budget depth index token machine).andThen
      (evaluateRow env budget depth (index + 1) rest)
  | depth, index, node .loop opener _ body rest, machine =>
    match opener.readCountAt index with
    | .error malformed => .stop machine (.malformed malformed)
    | .ok count =>
      let iteration (machine : Machine) : Run Machine :=
        (machine.count budget).andThen (onLevel env (depth + 1) (evaluateRow env budget (depth + 1) 0 body))
      (Run.iterate iteration count.toNat (machine.report (.loop count body.size depth))).andThen
        (evaluateRow env budget depth (index + body.size + 2) rest)
  | depth, index, node .definition _ _ body rest, machine =>
    evaluateRow env budget depth (index + body.size + 2) rest machine

def evaluate (env : Env) (budget : Option Int) (depth : Nat) (forest : Forest) (machine : Machine) :
    Run Machine :=
  onLevel env depth (evaluateRow env budget depth 0 forest) machine

end Forest

namespace Execution

/-- The room left from a level on runs out exactly where the level is not allowed. -/
theorem block_roomAt (env : Env) (budget : Option Int) (depth : Nat) (tokens : List Token)
    (machine : Machine) :
    block (Machine.handle budget) env (env.roomAt depth) depth tokens machine =
      Forest.onLevel env depth
        (walk (Machine.handle budget) env
          (block (Machine.handle budget) env (env.roomAt (depth + 1)) (depth + 1)) depth 0 0 tokens)
        machine := by
  unfold Forest.onLevel
  split_ifs with exceeded
  · rw [Env.roomAt_of_lt exceeded, block]
  · rw [Env.roomAt_of_le (Int.not_lt.mp exceeded), block]

private theorem walk_leaf (env : Env) (budget : Option Int) (depth index : Nat) (token : Token)
    (plain : token.IsLeaf) (tokens : List Token) (machine : Machine) :
    walk (Machine.handle budget) env
        (block (Machine.handle budget) env (env.roomAt (depth + 1)) (depth + 1)) depth 0 index
        (token :: tokens) machine =
      (Forest.evaluateLeaf env budget depth index token machine).andThen
        (walk (Machine.handle budget) env
          (block (Machine.handle budget) env (env.roomAt (depth + 1)) (depth + 1)) depth 0 (index + 1)
          tokens) := by
  rcases plain.kind_cases with ⟨primitive, acts⟩ | calls | other
  · rw [walk_act _ _ _ _ _ _ _ acts]
    simp only [Forest.evaluateLeaf, acts, Machine.handle]
  · cases resolved : resolve env token index with
    | error fault =>
      rw [walk_call_of_error _ _ _ _ _ _ _ calls resolved]
      simp only [Forest.evaluateLeaf, calls, resolved, Run.andThen_stop]
    | ok callee =>
      rw [walk_call_of_ok _ _ _ _ _ _ _ calls resolved]
      simp only [Forest.evaluateLeaf, calls, resolved, call, Machine.handle, Run.andThen_done]
  · rw [walk_pass _ _ _ _ _ _ _ (.inl other)]
    simp only [Forest.evaluateLeaf, other, Run.andThen_done]

/-- On a level that is allowed, the flat writing of a row is walked through as the row is evaluated. -/
theorem walk_flatten (env : Env) (budget : Option Int) (forest : Forest) (depth index : Nat)
    (machine : Machine) :
    walk (Machine.handle budget) env
        (block (Machine.handle budget) env (env.roomAt (depth + 1)) (depth + 1)) depth 0 index
        forest.flatten machine =
      forest.evaluateRow env budget depth index machine := by
  induction forest generalizing depth index machine with
  | nil => rfl
  | leaf token plain rest ih =>
    rw [Forest.flatten, walk_leaf env budget depth index token plain, Forest.evaluateRow]
    exact congrArg (Run.andThen _) (funext fun next => ih depth (index + 1) next)
  | node scope opener opens body rest bodyIh restIh =>
    rw [Forest.flatten]
    cases scope with
    | definition => rw [walk_definition_node _ _ _ _ _ _ _ _ opens, restIh, Forest.evaluateRow]
    | loop =>
      rw [Forest.evaluateRow]
      cases read : opener.readCountAt index with
      | error malformed => rw [walk_loop_of_error _ _ _ _ _ _ _ opens read]
      | ok count =>
        have inside : block (Machine.handle budget) env (env.roomAt (depth + 1)) (depth + 1) body.flatten =
            Forest.onLevel env (depth + 1) (body.evaluateRow env budget (depth + 1) 0) := by
          funext next
          rw [block_roomAt]
          exact congrArg (Forest.onLevel env (depth + 1) · next) (funext (bodyIh (depth + 1) 0))
        have after := funext (restIh depth (index + body.size + 2))
        rw [walk_loop_node_of_ok _ _ _ _ _ _ _ _ opens read, loop, inside, after]
        rfl

/-- Running the flat writing of a forest is evaluating the forest. -/
theorem block_flatten_eq_evaluate (env : Env) (budget : Option Int) (depth : Nat) (forest : Forest)
    (machine : Machine) :
    block (Machine.handle budget) env (env.roomAt depth) depth forest.flatten machine =
      forest.evaluate env budget depth machine := by
  rw [block_roomAt, Forest.evaluate]
  exact congrArg (Forest.onLevel env depth · machine) (funext (walk_flatten env budget forest depth 0))

end Execution

end Lamplighter
