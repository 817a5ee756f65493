import Lamplighter.Bindings
import Lamplighter.Fault
import Lamplighter.FunctionTable
import Lamplighter.Token.Count

/-! # Execution of programs

A program is executed by walking through its tokens and telling a handler what happens: a primitive
command is due, a loop or a call is entered, an iteration starts, a block is cut short. The handler
alone knows the state that is acted on, and it may refuse. The walk itself decides what comes next
from the tokens and the function table only, so two handlers that never refuse are told the same
events.

The body of a loop and the body of a called function are executed one level deeper. The number of
levels is bounded by the depth limit, and by the stack whatever the limit says: how much room the stack
has is not for the program to decide, so it is a parameter here.
-/

namespace Lamplighter

/-- What happens while a program is executed. -/
inductive Event where
  /-- A primitive command is due. -/
  | act (primitive : Primitive)
  /-- The next iteration of a loop starts. -/
  | iteration
  /-- A function is called. -/
  | call (name : Text) (args : List Text) (depth : Nat)
  /-- A loop is met, with its count and the number of instructions in its body. -/
  | loop (count : Int) (size depth : Nat)
  /-- The closer of a loop stands where no loop of the block is open, and ends the block. -/
  | cut (depth : Nat)
deriving DecidableEq, Repr

/-- The state that an execution has come to, and the fault that stopped it there if it did not come
to its end. -/
structure Run (σ : Type) where
  state : σ
  fault : Option Fault

namespace Run

variable {σ : Type}

def done (state : σ) : Run σ := ⟨state, none⟩

def stop (state : σ) (fault : Fault) : Run σ := ⟨state, some fault⟩

/-- Goes on from the state that an execution has come to, unless it was stopped. -/
@[inline] def andThen (run : Run σ) (next : σ → Run σ) : Run σ :=
  match run.fault with
  | none => next run.state
  | some _ => run

@[simp] theorem andThen_done (state : σ) (next : σ → Run σ) :
    (done state).andThen next = next state := rfl

@[simp] theorem andThen_stop (state : σ) (fault : Fault) (next : σ → Run σ) :
    (stop state fault).andThen next = stop state fault := rfl

/-- Going on twice is going on with both. -/
theorem andThen_assoc (run : Run σ) (first second : σ → Run σ) :
    (run.andThen first).andThen second = run.andThen fun state => (first state).andThen second := by
  rcases run with ⟨state, fault⟩
  cases fault <;> rfl

def iterate (body : σ → Run σ) : Nat → σ → Run σ
  | 0, state => done state
  | count + 1, state => (body state).andThen (iterate body count)

end Run

/-- What an execution looks up: the functions, the limit on nested levels, and the most levels that the
stack has room for. -/
structure Env where
  functions : FunctionTable
  maxDepth : Int
  stack : Nat
deriving DecidableEq, Repr

/-- The number of levels that there is room for: the main program and those below it. -/
def Env.room (env : Env) : Nat := (min env.maxDepth env.stack + 1).toNat

namespace Execution

variable {σ : Type}

/-- The function that a call at an index names, with its arguments, if the number of them is right. -/
def resolve (env : Env) (token : Token) (index : Nat) : Except Fault (FunctionDef × List Text) :=
  match Signature.readAt Token.callWord token index with
  | .error malformed => .error (.malformed malformed)
  | .ok signature =>
    match env.functions.find? signature.name with
    | none => .error (.undefined signature.name)
    | some function =>
      if signature.operands.length = function.arity then .ok (function, signature.operands)
      else .error (.arity signature.name function.arity signature.operands.length)

/-- Walks through the tokens after the first `skip` ones, on the given level; `index` is that of the
next token, and `enter` executes the body of a loop or of a function. -/
def walk (handle : Event → σ → Run σ) (env : Env) (enter : List Token → σ → Run σ) (depth : Nat) :
    (skip index : Nat) → List Token → σ → Run σ
  | _, _, [], state => .done state
  | skip + 1, index, _ :: rest, state => walk handle env enter depth skip (index + 1) rest state
  | 0, index, token :: rest, state =>
    match token.kind with
    | .act primitive =>
      (handle (.act primitive) state).andThen (walk handle env enter depth 0 (index + 1) rest)
    | .closes .loop => handle (.cut depth) state
    | .opens .loop =>
      match token.readCountAt index with
      | .error malformed => .stop state (.malformed malformed)
      | .ok count =>
        let size := Scope.loop.size rest
        let body := Scope.loop.body rest
        (handle (.loop count body.length depth) state).andThen fun state =>
          (Run.iterate (fun state => (handle .iteration state).andThen (enter body)) count.toNat
            state).andThen (walk handle env enter depth (size + 1) (index + 1) rest)
    | .opens .definition =>
      walk handle env enter depth (Scope.definition.size rest + 1) (index + 1) rest state
    | .call =>
      match resolve env token index with
      | .error fault => .stop state fault
      | .ok (function, args) =>
        (handle (.call function.name args depth) state).andThen fun state =>
          (enter (instantiate function.params args function.body) state).andThen
            (walk handle env enter depth 0 (index + 1) rest)
    | _ => walk handle env enter depth 0 (index + 1) rest state

/-- Tokens that are passed over only move the index. -/
theorem walk_skip (handle : Event → σ → Run σ) (env : Env) (enter : List Token → σ → Run σ)
    (depth skip index : Nat) (tokens : List Token) (state : σ) :
    walk handle env enter depth skip index tokens state =
      walk handle env enter depth 0 (index + skip) (tokens.drop skip) state := by
  induction skip generalizing index tokens with
  | zero => simp
  | succ skip ih =>
    cases tokens with
    | nil => simp [walk]
    | cons token rest => rw [walk, ih, List.drop_succ_cons, Nat.add_right_comm, Nat.add_assoc]

/-- Executes a block on a level below which there is room for a number of levels, this one
included. -/
def block (handle : Event → σ → Run σ) (env : Env) : (room depth : Nat) → List Token → σ → Run σ
  | 0, _, _, state => .stop state (.depth env.maxDepth)
  | room + 1, depth, tokens, state =>
    walk handle env (block handle env room (depth + 1)) depth 0 0 tokens state

def execute (handle : Event → σ → Run σ) (env : Env) (program : List Token) (state : σ) : Run σ :=
  block handle env env.room 0 program state

end Execution

end Lamplighter
