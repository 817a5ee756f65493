import Lamplighter.Machine
import Lamplighter.Proofs.Walk

/-! # Invariants of executions

What every event leaves true of the state is true after any execution, whether it came to its end or
was stopped. A walk is stopped by what it reads in the program or by its handler, and by nothing else.
-/

namespace Lamplighter

namespace Run

variable {σ : Type}

/-- The state keeps a property, and the fault is one of those that are allowed. -/
def Meets (keep : σ → Prop) (allowed : Fault → Prop) (run : Run σ) : Prop :=
  keep run.state ∧ ∀ fault, run.fault = some fault → allowed fault

namespace Meets

variable {keep : σ → Prop} {allowed : Fault → Prop}

theorem done {state : σ} (kept : keep state) : Meets keep allowed (.done state) :=
  ⟨kept, fun _ raised => by cases raised⟩

theorem stop {state : σ} {fault : Fault} (kept : keep state) (fits : allowed fault) :
    Meets keep allowed (.stop state fault) :=
  ⟨kept, fun _ raised => by cases raised; exact fits⟩

theorem mono {weak : σ → Prop} {run : Run σ} (meets : Meets keep allowed run)
    (weakened : ∀ state, keep state → weak state) : Meets weak allowed run :=
  ⟨weakened _ meets.1, meets.2⟩

theorem andThen {run : Run σ} {next : σ → Run σ} (meets : Meets keep allowed run)
    (continued : ∀ state, keep state → Meets keep allowed (next state)) :
    Meets keep allowed (run.andThen next) := by
  rcases run with ⟨state, _ | fault⟩
  · exact continued state meets.1
  · exact meets

theorem iterate {body : σ → Run σ} (once : ∀ state, keep state → Meets keep allowed (body state))
    (count : Nat) {state : σ} (kept : keep state) : Meets keep allowed (Run.iterate body count state) := by
  induction count generalizing state with
  | zero => exact done kept
  | succ count ih => exact (once state kept).andThen fun next kept => ih kept

end Meets

end Run

namespace Fault

/-- The faults of a program as it is written. -/
inductive OfProgram : Fault → Prop where
  | malformed (cause : Malformed) : OfProgram (.malformed cause)
  | undefined (name : Text) : OfProgram (.undefined name)
  | arity (name : Text) (expected got : Nat) : OfProgram (.arity name expected got)

end Fault

namespace Execution

variable {σ : Type} {keep : σ → Prop} {allowed : Fault → Prop} {handle : Event → σ → Run σ} {env : Env}

theorem resolve_fault {token : Token} {index : Nat} {fault : Fault}
    (raised : resolve env token index = .error fault) : fault.OfProgram := by
  unfold resolve at raised
  split at raised
  · cases raised
    exact .malformed _
  · split at raised
    · cases raised
      exact .undefined _
    · split at raised
      · cases raised
      · cases raised
        exact .arity _ _ _

/-- A call is resolved to the function that has the name in its signature. -/
theorem resolve_eq_ok {token : Token} {index : Nat} {function : FunctionDef} {args : List Text}
    (resolved : resolve env token index = .ok (function, args)) :
    ∃ signature, Signature.read Token.callWord token = .ok signature ∧
      function ∈ env.functions.functions ∧ function.name = signature.name := by
  unfold resolve at resolved
  split at resolved
  · cases resolved
  · rename_i signature read
    split at resolved
    · cases resolved
    · rename_i found look
      split at resolved
      · cases resolved
        unfold FunctionTable.find? at look
        exact ⟨signature, Problem.locate_eq_ok_iff.mp read, List.mem_of_find?_eq_some look,
          by simpa using List.find?_some look⟩
      · cases resolved

/-- One level of an execution keeps what its events and the levels below it keep. -/
theorem walk_meets {enter : List Token → σ → Run σ} {depth : Nat}
    (handled : ∀ event state, keep state → Run.Meets keep allowed (handle event state))
    (raised : ∀ fault, fault.OfProgram → allowed fault)
    (entered : ∀ tokens state, keep state → Run.Meets keep allowed (enter tokens state))
    (index : Nat) (tokens : List Token) {state : σ} (kept : keep state) :
    Run.Meets keep allowed (walk handle env enter depth 0 index tokens state) := by
  induction tokens using leapwise generalizing index state with
  | nil => exact .done kept
  | cons token rest later =>
    cases step env index token with
    | act acts =>
      rw [walk_act _ _ _ _ _ _ _ acts]
      exact (handled _ _ kept).andThen fun next kept => later 0 _ kept
    | cut closes =>
      rw [walk_cut _ _ _ _ _ _ _ closes]
      exact handled _ _ kept
    | loop opens read =>
      rw [walk_loop_of_ok _ _ _ _ _ _ _ opens read]
      refine Run.Meets.andThen ?_ fun next kept => later _ _ kept
      refine (handled _ _ kept).andThen fun met kept => ?_
      refine Run.Meets.iterate (fun state kept => ?_) _ kept
      exact (handled _ _ kept).andThen fun next kept => entered _ next kept
    | unread opens unread =>
      rw [walk_loop_of_error _ _ _ _ _ _ _ opens unread]
      exact .stop kept (raised _ (.malformed _))
    | definition opens =>
      rw [walk_definition _ _ _ _ _ _ _ opens]
      exact later _ _ kept
    | call calls resolved =>
      rw [walk_call_of_ok _ _ _ _ _ _ _ calls resolved]
      refine Run.Meets.andThen ?_ fun next kept => later 0 _ kept
      exact (handled _ _ kept).andThen fun met kept => entered _ met kept
    | unresolved calls unresolved =>
      rw [walk_call_of_error _ _ _ _ _ _ _ calls unresolved]
      exact .stop kept (raised _ (resolve_fault unresolved))
    | pass idle =>
      rw [walk_pass _ _ _ _ _ _ _ idle]
      exact later 0 _ kept

/-- An execution keeps what its events keep. -/
theorem block_meets (handled : ∀ event state, keep state → Run.Meets keep allowed (handle event state))
    (raised : ∀ fault, fault.OfProgram → allowed fault) (deep : allowed (.depth env.maxDepth))
    (room depth : Nat) (tokens : List Token) {state : σ} (kept : keep state) :
    Run.Meets keep allowed (block handle env room depth tokens state) := by
  induction room generalizing depth tokens state with
  | zero => exact .stop kept deep
  | succ room ih =>
    exact walk_meets handled raised (fun tokens _ kept => ih (depth + 1) tokens kept) 0 tokens kept

end Execution

namespace Machine

theorem count_fault {budget : Option Int} {machine : Machine} {fault : Fault}
    (raised : (machine.count budget).fault = some fault) : ∃ limit, fault = .budget limit := by
  unfold count at raised
  cases budget with
  | none => cases raised
  | some limit =>
    simp only at raised
    split at raised
    · cases raised
      exact ⟨limit, rfl⟩
    · cases raised

/-- A machine refuses an event only because of its budget. -/
theorem handle_fault {budget : Option Int} {event : Event} {machine : Machine} {fault : Fault}
    (raised : (handle budget event machine).fault = some fault) : ∃ limit, fault = .budget limit := by
  cases event with
  | act primitive =>
    have counted : Run.Meets (fun _ => True) (fun fault => ∃ limit, fault = .budget limit)
        (machine.count budget) := ⟨trivial, fun _ raised => count_fault raised⟩
    exact (counted.andThen fun _ _ => .done trivial).2 fault raised
  | iteration => exact count_fault raised
  | call name args depth => cases raised
  | loop count size depth => cases raised
  | cut depth => cases raised

/-- A run is stopped by the program, by the limit on levels or by the budget. -/
theorem run_fault {machine : Machine} {env : Env} {budget : Option Int} {program : List Token}
    {fault : Fault} (raised : (machine.run env budget program).fault = some fault) :
    fault.OfProgram ∨ (∃ limit, fault = .depth limit) ∨ ∃ limit, fault = .budget limit := by
  have meets : Run.Meets (fun _ => True)
      (fun fault => fault.OfProgram ∨ (∃ limit, fault = .depth limit) ∨ ∃ limit, fault = .budget limit)
      (machine.run env budget program) := by
    refine Execution.block_meets (fun event state _ => ⟨trivial, fun fault raised => ?_⟩)
      (fun fault ofProgram => .inl ofProgram) (.inr (.inl ⟨_, rfl⟩)) env.room 0 program trivial
    exact .inr (.inr (handle_fault raised))
  exact meets.2 fault raised

end Machine

end Lamplighter
