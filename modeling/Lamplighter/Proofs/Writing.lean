import Lamplighter.Proofs.Script

/-! # What is written down of a walk

A walk writes down one script after the other, one for each token or scope that it comes to. Something that
holds of these scripts and goes through their sequence therefore holds of what is written down of the whole
walk. It may hold by a number, to which each call among the tokens adds one. The tokens may be restricted to
those that fit, as long as what is left of them and the bodies of their loops fit too.
-/

namespace Lamplighter

def callCount (tokens : List Token) : Nat := tokens.countP fun token => token.kind = .call

theorem callCount_cons_of_call {token : Token} (calls : token.kind = .call) (tokens : List Token) :
    callCount (token :: tokens) = 1 + callCount tokens := by
  rw [callCount, List.countP_cons_of_pos (by simpa using calls), Nat.add_comm, callCount]

theorem callCount_le_of_sublist {tokens others : List Token} (part : tokens.Sublist others) :
    callCount tokens ≤ callCount others := part.countP_le

theorem callCount_le_length (tokens : List Token) : callCount tokens ≤ tokens.length := List.countP_le_length

/-- What is written down of a script tells what it is. -/
theorem Script.eq_of_play_record {script other : Script}
    (same : script.play Execution.record = other.play Execution.record) : script = other := by
  have runs := congrFun same []
  rw [play_record, play_record, List.append_nil, List.append_nil] at runs
  obtain ⟨events, fault⟩ := Run.mk.inj runs
  rcases script with ⟨_, _⟩
  rcases other with ⟨_, _⟩
  rw [Script.mk.injEq]
  exact ⟨List.reverse_inj.mp events, fault⟩

namespace Execution

/-- A call is resolved to the function that the table has under its name. -/
theorem find?_of_resolve {env : Env} {token : Token} {index : Nat} {function : FunctionDef} {args : List Text}
    (resolved : resolve env token index = .ok (function, args)) :
    env.functions.find? function.name = some function := by
  unfold resolve at resolved
  split at resolved
  · cases resolved
  · split at resolved
    · cases resolved
    · rename_i found
      split at resolved
      · cases resolved
        have named := List.find?_some found
        rw [beq_iff_eq.mp named]
        exact found
      · cases resolved

/-- Writing goes on by a script of which something holds. -/
def Writes (holds : Script → Prop) (next : List Event → Run (List Event)) : Prop :=
  ∃ script : Script, next = script.play record ∧ holds script

/-- Something that holds of scripts by a number: of a script without events by none, of a sequence by the
sum of the numbers, and by any larger number. -/
structure Tally (holds : Nat → Script → Prop) : Prop where
  done : holds 0 ⟨[], none⟩
  stop : ∀ fault, holds 0 ⟨[], some fault⟩
  andThen : ∀ {first second : Nat} {script next : Script}, holds first script → holds second next →
    holds (first + second) (script.andThen next)
  mono : ∀ {few many : Nat} {script : Script}, few ≤ many → holds few script → holds many script

namespace Writes

variable {next follow : List Event → Run (List Event)}

theorem of_eq {holds : Script → Prop} (same : ∀ written, next written = follow written)
    (writes : Writes holds follow) : Writes holds next := by
  rw [funext same]
  exact writes

theorem event {holds : Script → Prop} {event : Event} (known : holds ⟨[event], none⟩) :
    Writes holds (record event) :=
  ⟨⟨[event], none⟩, funext fun written => (Script.play_single record event written).symm, known⟩

theorem and {holds other : Script → Prop} (writes : Writes holds next) (also : Writes other next) :
    Writes (fun script => holds script ∧ other script) next := by
  obtain ⟨script, rfl, known⟩ := writes
  obtain ⟨copy, played, more⟩ := also
  rw [← Script.eq_of_play_record played] at more
  exact ⟨script, rfl, known, more⟩

/-- One script after the other. -/
theorem sequence {first second whole : Script → Prop} (writes : Writes first next)
    (continued : Writes second follow)
    (joined : ∀ {script further}, first script → second further → whole (script.andThen further)) :
    Writes whole fun written => (next written).andThen follow := by
  obtain ⟨script, rfl, known⟩ := writes
  obtain ⟨further, rfl, more⟩ := continued
  exact ⟨script.andThen further,
    funext fun written => (Script.play_andThen record script further written).symm, joined known more⟩

/-- An event, and what is written after it. -/
theorem event_then {holds : Script → Prop} {event : Event} {script : Script}
    (played : next = script.play record) (known : holds (.andThen ⟨[event], none⟩ script)) :
    Writes holds fun written => (record event written).andThen next := by
  refine ⟨_, funext fun written => ?_, known⟩
  rw [Script.play_andThen, Script.play_single, played]

variable {holds : Nat → Script → Prop} {first second : Nat}

theorem done (tally : Tally holds) : Writes (holds 0) .done := ⟨⟨[], none⟩, rfl, tally.done⟩

theorem stop (tally : Tally holds) (fault : Fault) : Writes (holds 0) (.stop · fault) :=
  ⟨⟨[], some fault⟩, rfl, tally.stop fault⟩

theorem mono (tally : Tally holds) (writes : Writes (holds first) next) (le : first ≤ second) :
    Writes (holds second) next := by
  obtain ⟨script, played, known⟩ := writes
  exact ⟨script, played, tally.mono le known⟩

theorem andThen (tally : Tally holds) (writes : Writes (holds first) next)
    (continued : Writes (holds second) follow) :
    Writes (holds (first + second)) fun written => (next written).andThen follow :=
  writes.sequence continued tally.andThen

/-- What goes on by none leaves the number to what comes after it. -/
theorem before (tally : Tally holds) (number : Nat) (writes : Writes (holds 0) next)
    (continued : Writes (holds number) follow) :
    Writes (holds number) fun written => (next written).andThen follow := by
  rw [← Nat.zero_add number]
  exact writes.andThen tally continued

theorem iterate (tally : Tally holds) (once : Writes (holds 0) next) (count : Nat) :
    Writes (holds 0) (Run.iterate next count) := by
  induction count with
  | zero => exact done tally
  | succ count ih => exact once.before tally 0 ih

end Writes

/-- What is known of one level: which tokens fit, and what holds of each script that is written there. -/
structure Rules (holds : Nat → Script → Prop) (fits : List Token → Prop) (env : Env)
    (enter : List Token → List Event → Run (List Event)) (depth : Nat) : Prop extends Tally holds where
  rest : ∀ {token : Token} {tokens : List Token}, fits (token :: tokens) →
    (∀ scope, token.kind ≠ .opens scope) → fits tokens
  after : ∀ {scope : Scope} {token : Token} {tokens : List Token}, fits (token :: tokens) →
    token.kind = .opens scope → fits (tokens.drop (scope.size tokens + 1))
  body : ∀ {token : Token} {tokens : List Token} {count : Int}, fits (token :: tokens) →
    token.kind = .opens .loop → token.readCount = .ok count → 0 < count → fits (Scope.loop.body tokens)
  act : ∀ primitive, holds 0 ⟨[.act primitive], none⟩
  loop : ∀ count size, holds 0 ⟨[.loop count size depth], none⟩
  cut : ∀ {token : Token} {tokens : List Token}, fits (token :: tokens) → token.kind = .closes .loop →
    holds 0 ⟨[.cut depth], none⟩
  turn : ∀ {tokens : List Token}, fits tokens →
    Writes (holds 0) fun written => (record .iteration written).andThen (enter tokens)
  call : ∀ {function : FunctionDef} (args : List Text), env.functions.find? function.name = some function →
    Writes (holds 1) (call record enter depth function args)

namespace Rules

variable {holds : Nat → Script → Prop} {fits : List Token → Prop} {env : Env} {depth : Nat}
variable {enter : List Token → List Event → Run (List Event)}

theorem writes_loop (rules : Rules holds fits env enter depth) {tokens : List Token} {count : Int}
    (fitting : 0 < count → fits tokens) :
    Writes (holds 0) (Execution.loop record enter depth count tokens) := by
  have turns : Writes (holds 0)
      (Run.iterate (fun written => (record .iteration written).andThen (enter tokens)) count.toNat) := by
    by_cases positive : 0 < count
    · exact (rules.turn (fitting positive)).iterate rules.toTally count.toNat
    · rw [Int.toNat_of_nonpos (Int.not_lt.mp positive)]
      exact .done rules.toTally
  exact (Writes.event (rules.loop count tokens.length)).before rules.toTally 0 turns

/-- What the rules say of each script holds of what a walk through fitting tokens writes down, by the number
of their calls. -/
theorem writes_walk (rules : Rules holds fits env enter depth) {tokens : List Token} (fitting : fits tokens)
    (index : Nat) :
    Writes (holds (callCount tokens)) (walk record env enter depth 0 index tokens) := by
  induction tokens using leapwise generalizing index with
  | nil => exact .done rules.toTally
  | cons token rest later =>
    have fewer (passed : Nat) : callCount (rest.drop passed) ≤ callCount (token :: rest) :=
      callCount_le_of_sublist ((List.drop_sublist passed rest).cons token)
    -- What comes after the next token or after its scope, whose calls are among those of all.
    have next (plain : ∀ scope, token.kind ≠ .opens scope) :=
      (later 0 (rules.rest fitting plain) (index + 1)).mono rules.toTally (fewer 0)
    have beyond {scope : Scope} (opens : token.kind = .opens scope) (ahead : Nat) :=
      (later (scope.size rest + 1) (rules.after fitting opens) ahead).mono rules.toTally (fewer _)
    have stopped (fault : Fault) : Writes (holds (callCount (token :: rest))) (.stop · fault) :=
      (Writes.stop rules.toTally fault).mono rules.toTally (Nat.zero_le _)
    cases step env index token with
    | @act primitive acts =>
      refine .of_eq (walk_act record env enter depth index rest · acts) ?_
      exact (Writes.event (rules.act primitive)).before rules.toTally _ (next (by simp [acts]))
    | cut closes =>
      refine .of_eq (walk_cut record env enter depth index rest · closes) ?_
      exact (Writes.event (rules.cut fitting closes)).mono rules.toTally (Nat.zero_le _)
    | loop opens read =>
      refine .of_eq (walk_loop_of_ok record env enter depth index rest · opens read) ?_
      have counted := Problem.locate_eq_ok_iff.mp read
      exact (rules.writes_loop (rules.body fitting opens counted)).before rules.toTally _ (beyond opens _)
    | unread opens unread =>
      exact .of_eq (walk_loop_of_error record env enter depth index rest · opens unread) (stopped _)
    | definition opens =>
      exact .of_eq (walk_definition record env enter depth index rest · opens) (beyond opens _)
    | @call function args calls resolved =>
      have left := later 0 (rules.rest fitting (by simp [calls])) (index + 1)
      rw [callCount_cons_of_call calls]
      refine .of_eq (walk_call_of_ok record env enter depth index rest · calls resolved) ?_
      exact (rules.call args (find?_of_resolve resolved)).andThen rules.toTally left
    | unresolved calls unresolved =>
      exact .of_eq (walk_call_of_error record env enter depth index rest · calls unresolved) (stopped _)
    | pass idle =>
      exact .of_eq (walk_pass record env enter depth index rest · idle) (next (not_opens_of_idle idle))

end Rules

/-- What goes through the sequence of events goes through the sequence of scripts. -/
theorem Tally.of_events (holds : List Event → Prop) (nil : holds [])
    (append : ∀ {events later}, holds events → holds later → holds (events ++ later)) :
    Tally fun _ script => holds script.events where
  done := nil
  stop := fun _ => nil
  andThen := by
    rintro _ _ ⟨events, _ | fault⟩ next known more
    · exact append known more
    · exact known
  mono := fun _ known => known

/-- What holds of every event that a level can bring about holds of all events of a block, if on each level it
holds of an event whenever it does on the level below. -/
theorem block_writes_forall {holds : Nat → Event → Prop} (env : Env)
    (below : ∀ depth event, holds (depth + 1) event → holds depth event)
    (act : ∀ depth primitive, holds depth (.act primitive)) (iteration : ∀ depth, holds depth .iteration)
    (loop : ∀ depth count size, holds depth (.loop count size depth))
    (cut : ∀ depth, holds depth (.cut depth))
    (call : ∀ depth function args, env.functions.find? function.name = some function →
      holds depth (.call function.name args depth)) (room depth : Nat) (tokens : List Token) :
    Writes (fun script => ∀ event ∈ script.events, holds depth event)
      (block record env room depth tokens) := by
  induction room generalizing depth tokens with
  | zero => exact ⟨⟨[], some _⟩, rfl, fun _ member => absurd member List.not_mem_nil⟩
  | succ room ih =>
    have tally : Tally fun _ script => ∀ event ∈ script.events, holds depth event :=
      .of_events (fun events => ∀ event ∈ events, holds depth event)
        (fun _ member => absurd member List.not_mem_nil)
        fun first second event member => (List.mem_append.mp member).elim (first event) (second event)
    have single {event : Event} (known : holds depth event) : ∀ other ∈ [event], holds depth other :=
      fun _ member => List.mem_singleton.mp member ▸ known
    have entered (tokens : List Token) : Writes (fun script => ∀ event ∈ script.events, holds depth event)
        (block record env room (depth + 1) tokens) := by
      obtain ⟨script, played, deeper⟩ := ih (depth + 1) tokens
      exact ⟨script, played, fun event member => below depth event (deeper event member)⟩
    have rules : Rules (fun _ script => ∀ event ∈ script.events, holds depth event) (fun _ => True) env
        (block record env room (depth + 1)) depth :=
      { tally with
        rest := fun _ _ => trivial
        after := fun _ _ => trivial
        body := fun _ _ _ _ => trivial
        act := fun primitive => single (act depth primitive)
        loop := fun count size => single (loop depth count size)
        cut := fun _ _ => single (cut depth)
        turn := fun _ => .before tally 0 (.event (single (iteration depth))) (entered _)
        call := fun args found => .before tally 0 (.event (single (call depth _ args found))) (entered _) }
    exact rules.writes_walk trivial 0

end Execution

end Lamplighter
