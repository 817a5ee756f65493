import Lamplighter.Execution
import Lamplighter.Proofs.Forest

/-! # One step of a walk

What a walk does at its next token, one equation for each part that a token can play. The scopes that
are passed over are taken off the tokens, so the equations leave no count of tokens to skip. What is shown
of a walk is shown by `leapwise` induction over its tokens, with the cases of `Step` for the next one. A flat
forest in front is walked through as a whole before the tokens after it.
-/

namespace Lamplighter

namespace Env

/-- The number of levels that there is room for from a level on, that level included. -/
def roomAt (env : Env) (depth : Nat) : Nat := (min env.maxDepth env.stack + 1 - depth).toNat

theorem roomAt_zero (env : Env) : env.roomAt 0 = env.room := by
  simp [roomAt, room]

theorem roomAt_of_lt {env : Env} {depth : Nat} (exceeded : min env.maxDepth env.stack < depth) :
    env.roomAt depth = 0 := by
  unfold roomAt
  omega

theorem roomAt_of_le {env : Env} {depth : Nat} (fits : (depth : Int) ≤ min env.maxDepth env.stack) :
    env.roomAt depth = env.roomAt (depth + 1) + 1 := by
  unfold roomAt
  omega

end Env

namespace Execution

variable {σ : Type}

/-- A loop of a block: its opener is met, and its body is executed as often as it says. -/
def loop (handle : Event → σ → Run σ) (enter : List Token → σ → Run σ) (depth : Nat) (count : Int)
    (body : List Token) (state : σ) : Run σ :=
  (handle (.loop count body.length depth) state).andThen
    (Run.iterate (fun state => (handle .iteration state).andThen (enter body)) count.toNat)

/-- A call of a function: it is met, and the body is executed with the arguments put in. -/
def call (handle : Event → σ → Run σ) (enter : List Token → σ → Run σ) (depth : Nat)
    (function : FunctionDef) (args : List Text) (state : σ) : Run σ :=
  (handle (.call function.name args depth) state).andThen
    (enter (instantiate function.params args function.body))

section Steps

variable (handle : Event → σ → Run σ) (env : Env) (enter : List Token → σ → Run σ)
variable (depth index : Nat) {token : Token} (tokens : List Token) (state : σ)

theorem walk_nil : walk handle env enter depth 0 index [] state = .done state := rfl

theorem walk_act {primitive : Primitive} (acts : token.kind = .act primitive) :
    walk handle env enter depth 0 index (token :: tokens) state =
      (handle (.act primitive) state).andThen (walk handle env enter depth 0 (index + 1) tokens) := by
  rw [walk]
  simp only [acts]

theorem walk_cut (closes : token.kind = .closes .loop) :
    walk handle env enter depth 0 index (token :: tokens) state = handle (.cut depth) state := by
  rw [walk]
  simp only [closes]

theorem walk_loop_of_error {malformed : Malformed} (opens : token.kind = .opens .loop)
    (unread : token.readCountAt index = .error malformed) :
    walk handle env enter depth 0 index (token :: tokens) state = .stop state (.malformed malformed) := by
  rw [walk]
  simp only [opens, unread]

theorem walk_loop_of_ok {count : Int} (opens : token.kind = .opens .loop)
    (read : token.readCountAt index = .ok count) :
    walk handle env enter depth 0 index (token :: tokens) state =
      (loop handle enter depth count (Scope.loop.body tokens) state).andThen
        (walk handle env enter depth 0 (index + Scope.loop.size tokens + 2)
          (tokens.drop (Scope.loop.size tokens + 1))) := by
  rw [walk]
  simp only [opens, read, loop, Run.andThen_assoc]
  congr 1
  funext middle
  congr 1
  funext state
  rw [walk_skip]
  congr 1
  omega

theorem walk_definition (opens : token.kind = .opens .definition) :
    walk handle env enter depth 0 index (token :: tokens) state =
      walk handle env enter depth 0 (index + Scope.definition.size tokens + 2)
        (tokens.drop (Scope.definition.size tokens + 1)) state := by
  rw [walk]
  simp only [opens]
  rw [walk_skip]
  congr 1
  omega

theorem walk_call_of_error {fault : Fault} (calls : token.kind = .call)
    (unresolved : resolve env token index = .error fault) :
    walk handle env enter depth 0 index (token :: tokens) state = .stop state fault := by
  rw [walk]
  simp only [calls, unresolved]

theorem walk_call_of_ok {function : FunctionDef} {args : List Text} (calls : token.kind = .call)
    (resolved : resolve env token index = .ok (function, args)) :
    walk handle env enter depth 0 index (token :: tokens) state =
      (call handle enter depth function args state).andThen
        (walk handle env enter depth 0 (index + 1) tokens) := by
  rw [walk]
  simp only [calls, resolved, call, Run.andThen_assoc]

/-- What plays no part is passed over; so is the closer of a definition that was not opened. -/
theorem walk_pass (idle : token.kind = .other ∨ token.kind = .closes .definition) :
    walk handle env enter depth 0 index (token :: tokens) state =
      walk handle env enter depth 0 (index + 1) tokens state := by
  rw [walk]
  rcases idle with other | closes
  · simp only [other]
  · simp only [closes]

end Steps

/-- What a walk comes to with its next token, and what it reads from it. -/
inductive Step (env : Env) (index : Nat) (token : Token) : Prop
  | act {primitive : Primitive} (acts : token.kind = .act primitive)
  | cut (closes : token.kind = .closes .loop)
  | loop {count : Int} (opens : token.kind = .opens .loop) (read : token.readCountAt index = .ok count)
  | unread {malformed : Malformed} (opens : token.kind = .opens .loop)
      (unread : token.readCountAt index = .error malformed)
  | definition (opens : token.kind = .opens .definition)
  | call {function : FunctionDef} {args : List Text} (calls : token.kind = .call)
      (resolved : resolve env token index = .ok (function, args))
  | unresolved {fault : Fault} (calls : token.kind = .call)
      (unresolved : resolve env token index = .error fault)
  | pass (idle : token.kind = .other ∨ token.kind = .closes .definition)

theorem step (env : Env) (index : Nat) (token : Token) : Step env index token := by
  cases kind : token.kind with
  | act primitive => exact .act kind
  | opens scope =>
    cases scope with
    | definition => exact .definition kind
    | loop =>
      cases read : token.readCountAt index with
      | error malformed => exact .unread kind read
      | ok count => exact .loop kind read
  | closes scope =>
    cases scope with
    | definition => exact .pass (.inr kind)
    | loop => exact .cut kind
  | call =>
    cases resolved : resolve env token index with
    | error fault => exact .unresolved kind resolved
    | ok callee => exact .call kind resolved
  | other => exact .pass (.inl kind)

theorem not_opens_of_idle {token : Token} (idle : token.kind = .other ∨ token.kind = .closes .definition)
    (scope : Scope) : token.kind ≠ .opens scope := by
  rcases idle with other | closes
  · simp [other]
  · simp [closes]

section Forests

variable (handle : Event → σ → Run σ) (env : Env) (enter : List Token → σ → Run σ)
variable (depth index : Nat) {opener : Token} (body : Forest) (tokens : List Token) (state : σ)

theorem walk_loop_node_of_ok {count : Int} (opens : opener.kind = .opens .loop)
    (read : opener.readCountAt index = .ok count) :
    walk handle env enter depth 0 index (opener :: (body.flatten ++ Scope.loop.closer :: tokens)) state =
      (loop handle enter depth count body.flatten state).andThen
        (walk handle env enter depth 0 (index + body.size + 2) tokens) := by
  rw [walk_loop_of_ok handle env enter depth index _ state opens read, Scope.body_flatten,
    Scope.drop_size_flatten, Scope.size_flatten]

theorem walk_definition_node (opens : opener.kind = .opens .definition) :
    walk handle env enter depth 0 index
        (opener :: (body.flatten ++ Scope.definition.closer :: tokens)) state =
      walk handle env enter depth 0 (index + body.size + 2) tokens state := by
  rw [walk_definition handle env enter depth index _ state opens, Scope.drop_size_flatten,
    Scope.size_flatten]

end Forests

/-- A flat forest is walked through before the tokens after it, whatever these are. -/
theorem walk_flatten_append (handle : Event → σ → Run σ) (env : Env) (enter : List Token → σ → Run σ)
    (depth index : Nat) (forest : Forest) (tokens : List Token) (state : σ) :
    walk handle env enter depth 0 index (forest.flatten ++ tokens) state =
      (walk handle env enter depth 0 index forest.flatten state).andThen
        (walk handle env enter depth 0 (index + forest.size) tokens) := by
  induction forest generalizing index state with
  | nil => simp [Forest.flatten, Forest.size, walk_nil]
  | leaf token plain rest ih =>
    have next (state : σ) :
        walk handle env enter depth 0 (index + 1) (rest.flatten ++ tokens) state =
          (walk handle env enter depth 0 (index + 1) rest.flatten state).andThen
            (walk handle env enter depth 0 (index + (Forest.leaf token plain rest).size) tokens) := by
      rw [ih (index + 1) state, Forest.size_leaf, Nat.add_right_comm, Nat.add_assoc]
    simp only [Forest.flatten, List.cons_append]
    rcases plain.kind_cases with ⟨primitive, acts⟩ | calls | other
    · rw [walk_act _ _ _ _ _ _ _ acts, walk_act _ _ _ _ _ _ _ acts, Run.andThen_assoc]
      exact congrArg (Run.andThen _) (funext next)
    · cases resolved : resolve env token index with
      | error fault =>
        rw [walk_call_of_error _ _ _ _ _ _ _ calls resolved,
          walk_call_of_error _ _ _ _ _ _ _ calls resolved, Run.andThen_stop]
      | ok callee =>
        rw [walk_call_of_ok _ _ _ _ _ _ _ calls resolved, walk_call_of_ok _ _ _ _ _ _ _ calls resolved,
          Run.andThen_assoc]
        exact congrArg (Run.andThen _) (funext next)
    · rw [walk_pass _ _ _ _ _ _ _ (.inl other), walk_pass _ _ _ _ _ _ _ (.inl other), next]
  | node scope opener opens body rest bodyIh restIh =>
    have next (state : σ) :
        walk handle env enter depth 0 (index + body.size + 2) (rest.flatten ++ tokens) state =
          (walk handle env enter depth 0 (index + body.size + 2) rest.flatten state).andThen
            (walk handle env enter depth 0 (index + (Forest.node scope opener opens body rest).size)
              tokens) := by
      rw [restIh (index + body.size + 2) state, Forest.add_size_node]
    simp only [Forest.flatten, List.cons_append, List.append_assoc]
    cases scope with
    | definition =>
      rw [walk_definition_node _ _ _ _ _ _ _ _ opens, walk_definition_node _ _ _ _ _ _ _ _ opens, next]
    | loop =>
      cases read : opener.readCountAt index with
      | error malformed =>
        rw [walk_loop_of_error _ _ _ _ _ _ _ opens read, walk_loop_of_error _ _ _ _ _ _ _ opens read,
          Run.andThen_stop]
      | ok count =>
        rw [walk_loop_node_of_ok _ _ _ _ _ _ _ _ opens read, walk_loop_node_of_ok _ _ _ _ _ _ _ _ opens read,
          Run.andThen_assoc]
        exact congrArg (Run.andThen _) (funext next)

end Execution

end Lamplighter
