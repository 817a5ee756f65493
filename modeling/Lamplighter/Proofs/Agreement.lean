import Lamplighter.Proofs.Walk

/-! # Agreement of two executions

Two executions agree if they come to related states and both end, or both stop for the same cause. The
first one may be excused from this by its own fault, which is how a limit that only the first execution
meets is left out. Agreement goes through the sequence and the repetition of executions.

The index in a fault says where an instruction stands in the list that was being executed. Executions
of different lists are compared up to it.
-/

namespace Lamplighter

namespace Fault

/-- The fault without the place of the instruction that caused it. -/
def withoutIndex : Fault → Fault
  | malformed cause => malformed { cause with index := none }
  | fault => fault

theorem withoutIndex_malformed {cause other : Malformed} (problem : cause.problem = other.problem) :
    (malformed cause).withoutIndex = (malformed other).withoutIndex :=
  congrArg (fun problem => malformed ⟨problem, none⟩) problem

end Fault

namespace Run

variable {σ τ : Type}

/-- Related states and the same cause if any, unless the first execution is excused. -/
def Agrees (excused : Fault → Prop) (same : σ → τ → Prop) (first : Run σ) (second : Run τ) : Prop :=
  (∃ fault, first.fault = some fault ∧ excused fault) ∨
    same first.state second.state ∧
      first.fault.map Fault.withoutIndex = second.fault.map Fault.withoutIndex

namespace Agrees

variable {excused : Fault → Prop} {same : σ → τ → Prop}

theorem done {state : σ} {other : τ} (related : same state other) :
    Agrees excused same (.done state) (.done other) :=
  .inr ⟨related, rfl⟩

theorem stop {state : σ} {other : τ} {fault cause : Fault} (related : same state other)
    (alike : fault.withoutIndex = cause.withoutIndex) :
    Agrees excused same (.stop state fault) (.stop other cause) :=
  .inr ⟨related, congrArg some alike⟩

theorem excuse {state : σ} {fault : Fault} (excuse : excused fault) (second : Run τ) :
    Agrees excused same (.stop state fault) second :=
  .inl ⟨fault, rfl, excuse⟩

/-- Executions that agree both end or both stop, unless the first is excused. -/
theorem outcomes {first : Run σ} {second : Run τ} (agrees : Agrees excused same first second) :
    (∃ state fault, first = .stop state fault ∧ excused fault) ∨
      (∃ state other, first = .done state ∧ second = .done other ∧ same state other) ∨
      ∃ state other fault cause, first = .stop state fault ∧ second = .stop other cause ∧
        same state other ∧ fault.withoutIndex = cause.withoutIndex := by
  rcases first with ⟨state, _ | fault⟩
  · rcases agrees with ⟨_, raised, _⟩ | ⟨related, alike⟩
    · cases raised
    · rcases second with ⟨other, _ | cause⟩
      · exact .inr (.inl ⟨state, other, rfl, rfl, related⟩)
      · cases alike
  · rcases agrees with ⟨_, raised, excuse⟩ | ⟨related, alike⟩
    · cases raised
      exact .inl ⟨state, fault, rfl, excuse⟩
    · rcases second with ⟨other, _ | cause⟩
      · cases alike
      · exact .inr (.inr ⟨state, other, fault, cause, rfl, rfl, related, Option.some.inj alike⟩)

/-- Executions that agree still do after both go on in ways that agree. -/
theorem andThen {first : Run σ} {second : Run τ} {next : σ → Run σ} {follow : τ → Run τ}
    (agrees : Agrees excused same first second)
    (continued : ∀ state other, same state other → Agrees excused same (next state) (follow other)) :
    Agrees excused same (first.andThen next) (second.andThen follow) := by
  rcases agrees.outcomes with ⟨state, fault, rfl, excuse⟩ | ⟨state, other, rfl, rfl, related⟩ |
    ⟨state, other, fault, cause, rfl, rfl, related, alike⟩
  · exact .inl ⟨fault, rfl, excuse⟩
  · exact continued state other related
  · exact stop related alike

/-- Repetition keeps agreement. -/
theorem iterate {body : σ → Run σ} {other : τ → Run τ}
    (once : ∀ state start, same state start → Agrees excused same (body state) (other start))
    (count : Nat) {state : σ} {start : τ} (related : same state start) :
    Agrees excused same (Run.iterate body count state) (Run.iterate other count start) := by
  induction count generalizing state start with
  | zero => exact done related
  | succ count ih =>
    apply (once state start related).andThen
    intro next follow reached
    exact ih reached

end Agrees

end Run

namespace Execution

def TooDeep (fault : Fault) : Prop := ∃ limit, fault = .depth limit

/-- Whether a count can be read, and what it is, does not depend on where its loop stands. -/
theorem readCountAt_cases (token : Token) :
    (∃ count, ∀ index, token.readCountAt index = .ok count) ∨
      ∃ problem, ∀ index : Nat, token.readCountAt index = .error ⟨problem, some index⟩ := by
  cases read : token.readCount with
  | error problem => exact .inr ⟨problem, fun index => by rw [Token.readCountAt, read]; rfl⟩
  | ok count => exact .inl ⟨count, fun index => by rw [Token.readCountAt, read]; rfl⟩

/-- A call has the same outcome wherever it stands, up to the place of a problem in its writing. -/
theorem resolve_at_cases (env : Env) (token : Token) :
    (∃ callee, ∀ index, resolve env token index = .ok callee) ∨
      (∃ problem, ∀ index : Nat, resolve env token index = .error (.malformed ⟨problem, some index⟩)) ∨
      ∃ fault, (∀ cause, fault ≠ .malformed cause) ∧ ∀ index, resolve env token index = .error fault := by
  cases read : Signature.read Token.callWord token with
  | error problem =>
    refine .inr (.inl ⟨problem, fun index => ?_⟩)
    rw [resolve, Signature.readAt, read]
    rfl
  | ok signature =>
    have located (index : Nat) : Signature.readAt Token.callWord token index = .ok signature :=
      Problem.locate_eq_ok_iff.mpr read
    cases found : env.functions.find? signature.name with
    | none =>
      refine .inr (.inr ⟨.undefined signature.name, fun _ => Fault.noConfusion, fun index => ?_⟩)
      simp only [resolve, located, found]
    | some function =>
      by_cases fits : signature.operands.length = function.arity
      · refine .inl ⟨(function, signature.operands), fun index => ?_⟩
        simp only [resolve, located, found, if_pos fits]
      · refine .inr (.inr ⟨.arity signature.name function.arity signature.operands.length,
          fun _ => Fault.noConfusion, fun index => ?_⟩)
        simp only [resolve, located, found, if_neg fits]

/-- Whether a call can be resolved, and to what, does not depend on where it stands. -/
theorem resolve_cases (env : Env) (token : Token) :
    (∃ callee, ∀ index, resolve env token index = .ok callee) ∨
      ∃ cause : Fault, ∀ index, ∃ fault, resolve env token index = .error fault ∧
        fault.withoutIndex = cause := by
  rcases resolve_at_cases env token with resolved | ⟨problem, unread⟩ | ⟨fault, _, raised⟩
  · exact .inl resolved
  · exact .inr ⟨.malformed ⟨problem, none⟩, fun index => ⟨_, unread index, rfl⟩⟩
  · exact .inr ⟨fault.withoutIndex, fun index => ⟨fault, raised index, rfl⟩⟩

end Execution

end Lamplighter
