import Lamplighter.Proofs.Agreement

/-! # Executions in step

Two executions of the same tokens take the same turns, whatever their handlers make of what they are
told. A relation that holds of the answers to each event and is kept by sequence therefore holds of
whole executions. The first execution may stand on a deeper level than the second, which only the events
show, and the second may have room for more levels: what the first does where its room is used up then
has to be related to anything.
-/

namespace Lamplighter

/-- The event on a level that lies deeper by the given number. -/
def Event.deeper (shift : Nat) : Event → Event
  | .call name args depth => .call name args (depth + shift)
  | .loop count size depth => .loop count size (depth + shift)
  | .cut depth => .cut (depth + shift)
  | event => event

@[simp] theorem Event.deeper_zero (event : Event) : event.deeper 0 = event := by
  cases event <;> rfl

namespace Execution

variable {σ τ : Type}

/-- A relation between two ways to go on that holds where both do nothing or both stop with faults
that are alike, and that sequence keeps. -/
structure Congruence (alike : Fault → Fault → Prop) (related : (σ → Run σ) → (τ → Run τ) → Prop) :
    Prop where
  done : related .done .done
  stop : ∀ {fault cause}, alike fault cause → related (.stop · fault) (.stop · cause)
  andThen : ∀ {first next : σ → Run σ} {second follow : τ → Run τ}, related first second →
    related next follow →
      related (fun state => (first state).andThen next) (fun state => (second state).andThen follow)

section Related

variable {alike : Fault → Fault → Prop} {related : (σ → Run σ) → (τ → Run τ) → Prop}
variable {handle : Event → σ → Run σ} {answer : Event → τ → Run τ} {env other : Env}

theorem Congruence.iterate (congruence : Congruence alike related) {body : σ → Run σ} {turn : τ → Run τ}
    (once : related body turn) (count : Nat) :
    related (Run.iterate body count) (Run.iterate turn count) := by
  induction count with
  | zero => exact congruence.done
  | succ count ih => exact congruence.andThen once ih

private theorem related_of_eq {first next : σ → Run σ} {second follow : τ → Run τ}
    (left : ∀ state, first state = next state) (right : ∀ state, second state = follow state)
    (holds : related next follow) : related first second := by
  rw [funext left, funext right]
  exact holds

/-- Only the functions matter for what a call is resolved to. -/
theorem resolve_congr (functions : other.functions = env.functions) (token : Token) (index : Nat) :
    resolve other token index = resolve env token index := by
  simp only [resolve, functions]

/-- One level of two executions in step. The tokens may stand at different places of their lists, if
faults that differ in that alone are alike; any other fault has to be like itself. -/
theorem walk_related (shift : Nat) (congruence : Congruence alike related)
    (placeless : ∀ fault, (∀ cause, fault ≠ .malformed cause) → alike fault fault)
    (functions : other.functions = env.functions)
    (handled : ∀ event : Event, related (handle (event.deeper shift)) (answer event))
    {enter : List Token → σ → Run σ} {follow : List Token → τ → Run τ}
    (entered : ∀ tokens, related (enter tokens) (follow tokens)) (depth : Nat) (tokens : List Token)
    (index place : Nat) (placed : ∀ problem (ahead : Nat),
      alike (.malformed ⟨problem, some ↑(index + ahead)⟩) (.malformed ⟨problem, some ↑(place + ahead)⟩)) :
    related (walk handle env enter (depth + shift) 0 index tokens)
      (walk answer other follow depth 0 place tokens) := by
  induction tokens using leapwise generalizing index place with
  | nil => exact congruence.done
  | cons token rest ih =>
    -- What comes after the next token or scope, at places that are as far apart as before.
    have later (passed ahead : Nat) :
        related (walk handle env enter (depth + shift) 0 (index + ahead) (rest.drop passed))
          (walk answer other follow depth 0 (place + ahead) (rest.drop passed)) := by
      refine ih passed (index + ahead) (place + ahead) fun problem further => ?_
      simpa only [Nat.add_assoc] using placed problem (ahead + further)
    cases kind : token.kind with
    | act primitive =>
      refine related_of_eq (walk_act handle env enter (depth + shift) index rest · kind)
        (walk_act answer other follow depth place rest · kind) ?_
      exact congruence.andThen (handled (.act primitive)) (later 0 1)
    | opens scope =>
      cases scope with
      | definition =>
        refine related_of_eq (walk_definition handle env enter (depth + shift) index rest · kind)
          (walk_definition answer other follow depth place rest · kind) ?_
        exact later _ (Scope.definition.size rest + 2)
      | loop =>
        rcases readCountAt_cases token with ⟨count, read⟩ | ⟨problem, unread⟩
        · refine related_of_eq
            (walk_loop_of_ok handle env enter (depth + shift) index rest · kind (read index))
            (walk_loop_of_ok answer other follow depth place rest · kind (read place)) ?_
          refine congruence.andThen ?_ (later _ (Scope.loop.size rest + 2))
          have body := entered (Scope.loop.body rest)
          exact congruence.andThen (handled (.loop count (Scope.loop.body rest).length depth))
            (congruence.iterate (congruence.andThen (handled .iteration) body) count.toNat)
        · refine related_of_eq
            (walk_loop_of_error handle env enter (depth + shift) index rest · kind (unread index))
            (walk_loop_of_error answer other follow depth place rest · kind (unread place)) ?_
          exact congruence.stop (placed problem 0)
    | closes scope =>
      cases scope with
      | definition =>
        refine related_of_eq (walk_pass handle env enter (depth + shift) index rest · (.inr kind))
          (walk_pass answer other follow depth place rest · (.inr kind)) ?_
        exact later 0 1
      | loop =>
        refine related_of_eq (walk_cut handle env enter (depth + shift) index rest · kind)
          (walk_cut answer other follow depth place rest · kind) ?_
        exact handled (.cut depth)
    | call =>
      have same := resolve_congr functions token place
      rcases resolve_at_cases env token with
        ⟨⟨function, args⟩, resolved⟩ | ⟨problem, unread⟩ | ⟨fault, read, raised⟩
      · refine related_of_eq
          (walk_call_of_ok handle env enter (depth + shift) index rest · kind (resolved index))
          (walk_call_of_ok answer other follow depth place rest · kind (same.trans (resolved place))) ?_
        refine congruence.andThen ?_ (later 0 1)
        exact congruence.andThen (handled (.call function.name args depth)) (entered _)
      · refine related_of_eq
          (walk_call_of_error handle env enter (depth + shift) index rest · kind (unread index))
          (walk_call_of_error answer other follow depth place rest · kind (same.trans (unread place))) ?_
        exact congruence.stop (placed problem 0)
      · refine related_of_eq
          (walk_call_of_error handle env enter (depth + shift) index rest · kind (raised index))
          (walk_call_of_error answer other follow depth place rest · kind (same.trans (raised place))) ?_
        exact congruence.stop (placeless fault read)
    | other =>
      refine related_of_eq (walk_pass handle env enter (depth + shift) index rest · (.inl kind))
        (walk_pass answer other follow depth place rest · (.inl kind)) ?_
      exact later 0 1

/-- Two executions in step, the second with room for some more levels. Where the first has no room left it
goes too deep, and what the second still does there has to be related to that. -/
theorem block_related (shift extra : Nat) (congruence : Congruence alike related)
    (reflexive : ∀ fault, alike fault fault) (functions : other.functions = env.functions)
    (handled : ∀ event : Event, related (handle (event.deeper shift)) (answer event))
    (deep : ∀ depth tokens,
      related (.stop · (.depth env.maxDepth)) (block answer other extra depth tokens))
    (room depth : Nat) (tokens : List Token) :
    related (block handle env room (depth + shift) tokens)
      (block answer other (room + extra) depth tokens) := by
  induction room generalizing depth tokens with
  | zero =>
    rw [Nat.zero_add]
    exact deep depth tokens
  | succ room ih =>
    rw [Nat.add_right_comm room 1 extra]
    refine walk_related shift congruence (fun fault _ => reflexive fault) functions handled
      (fun tokens => ?_) depth tokens 0 0 (fun problem ahead => reflexive _)
    rw [Nat.add_right_comm depth shift 1]
    exact ih (depth + 1) tokens

end Related

end Execution

end Lamplighter
