import Lamplighter.Proofs.LiveCalls
import Lamplighter.Proofs.Phases
import Lamplighter.Proofs.Writing

/-! # Stray closers

The closer of a loop that stands where no loop of its block is open ends the block there. The nesting check
leaves none in a program, nor in the bodies of its functions as they are written. What is executed for a call
is the body with the arguments put in, though, and nothing checks that again. So a block that is cut short
always lies inside a call whose arguments have put a stray closer into a body, and in a run that comes to its
end every such call leads to a block that is cut short. Where the parameters stand among operands only, no
arguments can do that.
-/

namespace Lamplighter

/-- The tokens of a block lead to a stray closer: on the level of the block, or in the body of one of its loops
that is executed at least once. Calls are not followed. -/
inductive Strays : List Token → Prop where
  | here {token : Token} {tokens : List Token} (closes : token.kind = .closes .loop) : Strays (token :: tokens)
  | pass {token : Token} {tokens : List Token} (neutral : ∀ scope, token.kind ≠ .opens scope)
      (later : Strays tokens) : Strays (token :: tokens)
  | inside {token : Token} {tokens : List Token} {count : Int} (opens : token.kind = .opens .loop)
      (read : token.readCount = .ok count) (positive : 0 < count) (body : Strays (Scope.loop.body tokens)) :
      Strays (token :: tokens)
  | after {scope : Scope} {token : Token} {tokens : List Token} (opens : token.kind = .opens scope)
      (later : Strays (tokens.drop (scope.size tokens + 1))) : Strays (token :: tokens)

namespace Forest

/-- A flat forest starts with a leaf or with a scope. -/
theorem cons_cases (forest : Forest) {token : Token} {tokens : List Token}
    (flat : forest.flatten = token :: tokens) :
    (token.IsLeaf ∧ ∃ rest : Forest, rest.flatten = tokens) ∨
      ∃ (scope : Scope) (body rest : Forest), token.kind = .opens scope ∧
        body.flatten ++ scope.closer :: rest.flatten = tokens := by
  cases forest with
  | nil => cases flat
  | leaf first plain rest =>
    cases flat
    exact .inl ⟨plain, rest, rfl⟩
  | node scope opener opens body rest =>
    cases flat
    exact .inr ⟨scope, body, rest, opens, rfl⟩

theorem exists_scope (forest : Forest) {scope : Scope} {token : Token} {tokens : List Token}
    (flat : forest.flatten = token :: tokens) (opens : token.kind = .opens scope) :
    ∃ body rest : Forest, body.flatten ++ scope.closer :: rest.flatten = tokens := by
  rcases forest.cons_cases flat with ⟨plain, _⟩ | ⟨other, body, rest, opened, split⟩
  · exact absurd opens (plain scope).1
  · rw [opens] at opened
    cases opened
    exact ⟨body, rest, split⟩

/-- What is nested leads to no stray closer. -/
theorem not_strays_flatten (forest : Forest) : ¬ Strays forest.flatten := by
  intro strays
  generalize flat : forest.flatten = tokens at strays
  induction strays generalizing forest with
  | here closes =>
    rcases forest.cons_cases flat with ⟨plain, _⟩ | ⟨_, _, _, opens, _⟩
    · exact (plain .loop).2 closes
    · rw [opens] at closes
      cases closes
  | pass neutral _ ih =>
    rcases forest.cons_cases flat with ⟨_, rest, flat⟩ | ⟨scope, _, _, opens, _⟩
    · exact ih rest flat
    · exact neutral scope opens
  | inside opens _ _ _ ih =>
    obtain ⟨body, rest, rfl⟩ := forest.exists_scope flat opens
    exact ih body (Scope.loop.body_flatten body rest.flatten).symm
  | @after scope _ _ opens _ ih =>
    obtain ⟨body, rest, rfl⟩ := forest.exists_scope flat opens
    exact ih rest (scope.drop_size_flatten body rest.flatten).symm

end Forest

/-- No arguments put a stray closer into a nested body whose parameters stand among operands only. -/
theorem FunctionDef.OperandsOnly.not_strays {function : FunctionDef} (operands : function.OperandsOnly)
    (nested : Nesting.check function.body = .ok ()) (args : List Text) :
    ¬ Strays (instantiate function.params args function.body) := by
  obtain ⟨forest, flat⟩ := (Nesting.check_eq_ok_iff _).mp nested
  obtain ⟨changed, _, flattened⟩ := forest.exists_instance (Bindings.apply (function.params.zip args))
    fun token member => operands.apply_instance args (flat ▸ member)
  rw [instantiate, ← flat, ← flattened]
  exact changed.not_strays_flatten

/-- A call by the given name puts a stray closer into the body with its arguments. -/
def FunctionTable.CallStrays (table : FunctionTable) (name : Text) (args : List Text) : Prop :=
  ∃ function, table.find? name = some function ∧ Strays (instantiate function.params args function.body)

namespace Event

/-- The level that an event comes from, if the event says so. -/
def level? : Event → Option Nat
  | .call _ _ depth => some depth
  | .loop _ _ depth => some depth
  | .cut depth => some depth
  | _ => none

/-- The event comes from the given level or from one below it, as far as it says. -/
def From (depth : Nat) (event : Event) : Prop := ∀ level, event.level? = some level → depth ≤ level

theorem from_of_level? {depth : Nat} {event : Event} (stands : event.level? = some depth) :
    event.From depth := by
  intro level other
  rw [stands] at other
  cases other
  exact Nat.le_refl depth

end Event

/-- All events come from the given level or from one below it. -/
def AllFrom (depth : Nat) (events : List Event) : Prop := ∀ event ∈ events, event.From depth

/-- The last of the events come from inside a call of a function with the given arguments, which is still
open on the level. -/
def InsideCall (events : List Event) (depth : Nat) (name : Text) (args : List Text) : Prop :=
  ∃ early level inside, events = early ++ .call name args level :: inside ∧ level < depth ∧
    AllFrom (level + 1) inside

theorem InsideCall.append {events : List Event} {depth : Nat} {name : Text} {args : List Text}
    (inside : InsideCall events depth name args) (earlier : List Event) :
    InsideCall (earlier ++ events) depth name args := by
  obtain ⟨early, level, later, rfl, below, deeper⟩ := inside
  exact ⟨earlier ++ early, level, later, (List.append_assoc ..).symm, below, deeper⟩

/-- Every block that is cut short lies inside a call that put a stray closer into a body. -/
def Blamed (table : FunctionTable) (events : List Event) : Prop :=
  ∀ before depth after, events = before ++ .cut depth :: after →
    ∃ name args, InsideCall before depth name args ∧ table.CallStrays name args

namespace Blamed

variable {table : FunctionTable} {events later : List Event}

theorem nil : Blamed table [] := fun _ _ _ split => absurd split (by simp)

theorem single {event : Event} (whole : ∀ depth, event ≠ .cut depth) : Blamed table [event] := by
  intro before depth after split
  cases before with
  | nil =>
    cases split
    exact absurd rfl (whole depth)
  | cons first rest =>
    rw [List.cons_append] at split
    cases rest <;> cases List.cons.inj split |>.2

theorem append (blamed : Blamed table events) (continued : Blamed table later) :
    Blamed table (events ++ later) := by
  intro before depth after split
  rcases List.append_eq_append_iff.mp split with ⟨middle, rfl, rest⟩ | ⟨middle, rfl, rest⟩
  · obtain ⟨name, args, inside, strays⟩ := continued middle depth after rest
    exact ⟨name, args, inside.append events, strays⟩
  · cases middle with
    | nil =>
      obtain ⟨name, args, inside, strays⟩ := continued [] depth after rest.symm
      exact ⟨name, args, by simpa using inside.append before, strays⟩
    | cons first middle =>
      obtain ⟨rfl, _⟩ := List.cons.inj rest
      exact blamed before depth middle rfl

theorem of_isPrefix (blamed : Blamed table later) (first : events <+: later) : Blamed table events := by
  obtain ⟨rest, rfl⟩ := first
  rintro before depth after rfl
  exact blamed before depth (after ++ rest) (by simp)

/-- Whatever is cut short inside a call that put a stray closer into a body is blamed on it. -/
theorem call {name : Text} {args : List Text} (strays : table.CallStrays name args) {depth : Nat}
    (deeper : AllFrom (depth + 1) events) : Blamed table (.call name args depth :: events) := by
  intro before level after split
  cases before with
  | nil => cases split
  | cons first inside =>
    obtain ⟨rfl, rfl⟩ := List.cons.inj split
    have below : depth < level := deeper (.cut level) (by simp) level rfl
    refine ⟨name, args, ⟨[], depth, inside, rfl, below, fun event member => ?_⟩, strays⟩
    exact deeper event (List.mem_append_left _ member)

end Blamed

/-- If a call puts a stray closer into a body, a block is cut short. -/
def Answered (table : FunctionTable) (events : List Event) : Prop :=
  ∀ name args level, .call name args level ∈ events → table.CallStrays name args →
    ∃ depth, .cut depth ∈ events

namespace Answered

variable {table : FunctionTable} {events later : List Event}

theorem of_no_call (uncalled : ∀ name args level, .call name args level ∉ events) : Answered table events :=
  fun name args level member _ => absurd member (uncalled name args level)

theorem append (answered : Answered table events) (continued : Answered table later) :
    Answered table (events ++ later) := by
  intro name args level member strays
  rcases List.mem_append.mp member with first | second
  · obtain ⟨depth, cut⟩ := answered name args level first strays
    exact ⟨depth, List.mem_append_left _ cut⟩
  · obtain ⟨depth, cut⟩ := continued name args level second strays
    exact ⟨depth, List.mem_append_right _ cut⟩

end Answered

namespace Execution

/-- A block brings about events of its own level and of the levels below it. -/
theorem block_writes_from (env : Env) (room depth : Nat) (tokens : List Token) :
    Writes (fun script => AllFrom depth script.events) (block record env room depth tokens) := by
  refine block_writes_forall env (fun _ _ deeper level stands => Nat.le_of_succ_le (deeper level stands))
    (fun _ _ _ stands => ?_) (fun _ _ stands => ?_) (fun _ _ _ => Event.from_of_level? rfl)
    (fun _ => Event.from_of_level? rfl) (fun _ _ _ _ => Event.from_of_level? rfl) room depth tokens
  · cases stands
  · cases stands

/-- What is cut short in a block that does not lead to a stray closer itself is blamed on its calls. -/
theorem block_writes_blamed (env : Env) (room depth : Nat) (tokens : List Token) :
    Writes (fun script => Strays tokens ∨ Blamed env.functions script.events)
      (block record env room depth tokens) := by
  induction room generalizing depth tokens with
  | zero => exact ⟨⟨[], some _⟩, rfl, .inr .nil⟩
  | succ room ih =>
    have tally : Tally fun _ script => Strays tokens ∨ Blamed env.functions script.events := by
      refine .of_events (fun events => Strays tokens ∨ Blamed env.functions events) (.inr .nil) ?_
      rintro _ _ (strays | blamed) (strays | continued)
      · exact .inl strays
      · exact .inl strays
      · exact .inl strays
      · exact .inr (blamed.append continued)
    have single {event : Event} (whole : ∀ depth, event ≠ .cut depth) :
        Strays tokens ∨ Blamed env.functions [event] := .inr (.single whole)
    -- What is left of the tokens, and the bodies of their loops, lead to a stray closer only if they do.
    have rules : Rules (fun _ script => Strays tokens ∨ Blamed env.functions script.events)
        (fun part => Strays part → Strays tokens) env (block record env room (depth + 1)) depth :=
      { tally with
        rest := fun fitting neutral strays => fitting (.pass neutral strays)
        after := fun fitting opens strays => fitting (.after opens strays)
        body := fun fitting opens read positive strays => fitting (.inside opens read positive strays)
        act := fun _ => single fun _ => Event.noConfusion
        loop := fun _ _ => single fun _ => Event.noConfusion
        cut := fun fitting closes => .inl (fitting (.here closes))
        turn := fun {part} fitting => by
          obtain ⟨script, played, strays | blamed⟩ := ih (depth + 1) part
          · exact .event_then played (.inl (fitting strays))
          · exact .event_then played (.inr ((Blamed.single fun _ => Event.noConfusion).append blamed))
        call := fun {function} args found => by
          obtain ⟨script, played, strays | blamed, deeper⟩ := (ih (depth + 1)
            (instantiate function.params args function.body)).and (block_writes_from env room (depth + 1) _)
          · exact .event_then played (.inr (.call ⟨function, found, strays⟩ deeper))
          · exact .event_then played (.inr ((Blamed.single fun _ => Event.noConfusion).append blamed)) }
    exact rules.writes_walk (fun strays => strays) 0

/-- Writing leads to a block that is cut short, unless a fault comes before it. -/
def Cuts (next : List Event → Run (List Event)) : Prop :=
  Writes (fun script => script.fault = none → ∃ level, .cut level ∈ script.events) next

namespace Cuts

variable {next follow : List Event → Run (List Event)}

theorem stop (fault : Fault) : Cuts (.stop · fault) := ⟨⟨[], some fault⟩, rfl, fun ended => by cases ended⟩

theorem of_first (cuts : Cuts next) (goes : Writes (fun _ => True) follow) :
    Cuts fun written => (next written).andThen follow := by
  refine cuts.sequence goes ?_
  rintro ⟨events, _ | fault⟩ further known _ ended
  · obtain ⟨level, member⟩ := known rfl
    exact ⟨level, List.mem_append_left _ member⟩
  · cases ended

theorem of_next (goes : Writes (fun _ => True) next) (cuts : Cuts follow) :
    Cuts fun written => (next written).andThen follow := by
  refine goes.sequence cuts ?_
  rintro ⟨events, _ | fault⟩ further _ known ended
  · obtain ⟨level, member⟩ := known ended
    exact ⟨level, List.mem_append_right _ member⟩
  · cases ended

end Cuts

/-- Whatever a level comes to, it writes some script. -/
theorem rules_true (env : Env) (room depth : Nat) :
    Rules (fun _ _ => True) (fun _ => True) env (block record env room (depth + 1)) depth where
  done := trivial
  stop := fun _ => trivial
  andThen := fun _ _ => trivial
  mono := fun _ _ => trivial
  rest := fun _ _ => trivial
  after := fun _ _ => trivial
  body := fun _ _ _ _ => trivial
  act := fun _ => trivial
  loop := fun _ _ => trivial
  cut := fun _ _ => trivial
  turn := fun {tokens} _ => by
    obtain ⟨script, played⟩ := exists_script_block env room (depth + 1) tokens
    exact .event_then played trivial
  call := fun {function} args _ => by
    obtain ⟨script, played⟩ := exists_script_block env room (depth + 1)
      (instantiate function.params args function.body)
    exact .event_then played trivial

/-- A walk through tokens that lead to a stray closer comes to it, unless a fault comes before it. -/
theorem walk_cuts (env : Env) {tokens : List Token} (strays : Strays tokens) (room depth index : Nat) :
    Cuts (walk record env (block record env room (depth + 1)) depth 0 index tokens) := by
  induction strays generalizing room depth index with
  | here closes =>
    exact .of_eq (walk_cut record env _ depth index _ · closes)
      (.event fun _ => ⟨depth, List.mem_singleton_self _⟩)
  | @pass token rest neutral later ih =>
    have next := ih room depth (index + 1)
    cases step env index token with
    | act acts =>
      exact .of_eq (walk_act record env _ depth index rest · acts) (Cuts.of_next (.event trivial) next)
    | cut closes =>
      exact .of_eq (walk_cut record env _ depth index rest · closes)
        (.event fun _ => ⟨depth, List.mem_singleton_self _⟩)
    | loop opens _ | unread opens _ | definition opens => exact absurd opens (neutral _)
    | @call function args calls resolved =>
      have called := (rules_true env room depth).call args (find?_of_resolve resolved)
      exact .of_eq (walk_call_of_ok record env _ depth index rest · calls resolved) (Cuts.of_next called next)
    | @unresolved fault calls unresolved =>
      exact .of_eq (walk_call_of_error record env _ depth index rest · calls unresolved) (Cuts.stop fault)
    | pass idle => exact .of_eq (walk_pass record env _ depth index rest · idle) next
  | @inside token rest count opens read positive body ih =>
    have located : token.readCountAt index = .ok count := Problem.locate_eq_ok_iff.mpr read
    obtain ⟨more, turns⟩ : ∃ more, count.toNat = more + 1 := ⟨count.toNat - 1, by omega⟩
    -- The stray closer is met in the first iteration.
    have entered : Cuts (block record env room (depth + 1) (Scope.loop.body rest)) := by
      cases room with
      | zero => exact Cuts.stop _
      | succ room => exact ih room (depth + 1) 0
    have turn : Writes (fun _ => True) fun written =>
        (record .iteration written).andThen (block record env room (depth + 1) (Scope.loop.body rest)) :=
      (rules_true env room depth).turn trivial
    have others := Writes.iterate (rules_true env room depth).toTally turn more
    have looped :
        Cuts (loop record (block record env room (depth + 1)) depth count (Scope.loop.body rest)) := by
      refine Cuts.of_next (.event trivial) ?_
      rw [turns]
      exact Cuts.of_first (Cuts.of_next (.event trivial) entered) others
    exact .of_eq (walk_loop_of_ok record env _ depth index rest · opens located)
      (looped.of_first ((rules_true env room depth).writes_walk trivial _))
  | @after scope token rest opens later ih =>
    cases scope with
    | definition => exact .of_eq (walk_definition record env _ depth index rest · opens) (ih room depth _)
    | loop =>
      rcases readCountAt_cases token with ⟨count, read⟩ | ⟨problem, unread⟩
      · exact .of_eq (walk_loop_of_ok record env _ depth index rest · opens (read index))
          (Cuts.of_next ((rules_true env room depth).writes_loop fun _ => trivial) (ih room depth _))
      · exact .of_eq (walk_loop_of_error record env _ depth index rest · opens (unread index)) (Cuts.stop _)

theorem block_writes_cut (env : Env) (room depth : Nat) (tokens : List Token) :
    Writes (fun script => Strays tokens → script.fault = none → ∃ level, .cut level ∈ script.events)
      (block record env room depth tokens) := by
  by_cases strays : Strays tokens
  · have cuts : Cuts (block record env room depth tokens) := by
      cases room with
      | zero => exact Cuts.stop _
      | succ room => exact walk_cuts env strays room depth 0
    obtain ⟨script, played, known⟩ := cuts
    exact ⟨script, played, fun _ => known⟩
  · obtain ⟨script, played⟩ := exists_script_block env room depth tokens
    exact ⟨script, played, fun leads => absurd leads strays⟩

/-- In a block that comes to its end, every call that puts a stray closer into a body has come to it. -/
theorem block_writes_answered (env : Env) (room depth : Nat) (tokens : List Token) :
    Writes (fun script => script.fault = none → Answered env.functions script.events)
      (block record env room depth tokens) := by
  induction room generalizing depth tokens with
  | zero => exact ⟨⟨[], some _⟩, rfl, fun ended => by cases ended⟩
  | succ room ih =>
    have tally : Tally fun _ script => script.fault = none → Answered env.functions script.events :=
      { done := fun _ => .of_no_call fun _ _ _ => List.not_mem_nil
        stop := fun _ ended => by cases ended
        andThen := by
          rintro _ _ ⟨events, _ | fault⟩ next known more ended
          · exact (known rfl).append (more ended)
          · cases ended
        mono := fun _ known => known }
    have uncalled {event : Event} (other : ∀ name args level, event ≠ .call name args level) :
        Answered env.functions [event] :=
      .of_no_call fun name args level member => other name args level (List.mem_singleton.mp member).symm
    have rules : Rules (fun _ script => script.fault = none → Answered env.functions script.events)
        (fun _ => True) env (block record env room (depth + 1)) depth :=
      { tally with
        rest := fun _ _ => trivial
        after := fun _ _ => trivial
        body := fun _ _ _ _ => trivial
        act := fun _ _ => uncalled fun _ _ _ => Event.noConfusion
        loop := fun _ _ _ => uncalled fun _ _ _ => Event.noConfusion
        cut := fun _ _ _ => uncalled fun _ _ _ => Event.noConfusion
        turn := fun {tokens} _ => by
          obtain ⟨script, played, answered⟩ := ih (depth + 1) tokens
          refine .event_then played fun ended => ?_
          exact (uncalled fun _ _ _ => Event.noConfusion).append (answered ended)
        call := fun {function} args found => by
          obtain ⟨script, played, answered, cuts⟩ := (ih (depth + 1)
            (instantiate function.params args function.body)).and (block_writes_cut env room (depth + 1) _)
          refine .event_then played fun ended name others level member strays => ?_
          rcases List.mem_cons.mp member with called | inside
          · cases called
            obtain ⟨same, known, strays⟩ := strays
            rw [found] at known
            cases known
            obtain ⟨low, cut⟩ := cuts strays ended
            exact ⟨low, List.mem_cons_of_mem _ cut⟩
          · obtain ⟨low, cut⟩ := answered ended name others level inside strays
            exact ⟨low, List.mem_cons_of_mem _ cut⟩ }
    exact rules.writes_walk trivial 0

end Execution

/-- The functions of a nested program are nested as they are written. -/
theorem FunctionTable.check_body_of_nested {tokens : List Token} {table : FunctionTable}
    (nested : Nesting.check tokens = .ok ()) (built : ofProgram tokens = .ok table) {function : FunctionDef}
    (listed : function ∈ table.functions) : Nesting.check function.body = .ok () := by
  obtain ⟨forest, rfl⟩ := (Nesting.check_eq_ok_iff _).mp nested
  exact (Nesting.check_eq_ok_iff _).mpr ((ofProgram_flatten built).1 function listed)

/-- A run that comes to its end has gone through the whole script. -/
theorem Machine.history_of_ended {machine : Machine} {env : Env} {budget : Option Int} {program : List Token}
    (ended : (machine.run env budget program).fault = none) :
    (Execution.script env program).fault = none ∧
      (machine.history env budget program).map (·.event) = (Execution.script env program).events := by
  rw [run_eq_play, Script.play] at ended
  rw [history, Execution.history_eq_moments]
  rcases replay_cases budget (Execution.script env program).events machine with
    ⟨whole, happened⟩ | ⟨limit, state, _, stopped⟩
  · rw [whole] at ended
    exact ⟨ended, happened⟩
  · rw [stopped] at ended
    cases ended

namespace Session

/-- What is cut short in the run of a nested program is blamed on the calls. -/
theorem blamed_history {session : Session} {program : List Text} {table : FunctionTable}
    (nested : Nesting.check (Token.normalize program) = .ok ())
    (built : FunctionTable.ofProgram (Token.normalize program) = .ok table) :
    Blamed table ((session.history program).map (·.event)) := by
  obtain ⟨forest, flat⟩ := (Nesting.check_eq_ok_iff _).mp nested
  let env : Env := ⟨table, session.settings.maxDepth, session.stack⟩
  obtain ⟨script, played, known⟩ := Execution.block_writes_blamed env env.room 0 (Token.normalize program)
  have blamed := known.resolve_left (flat ▸ forest.not_strays_flatten)
  apply blamed.of_isPrefix
  rw [← Execution.script_eq_of_play played]
  exact map_event_history_isPrefix built

/-- In a run that comes to its end, every call that puts a stray closer into a body has come to it. -/
theorem answered_history {session : Session} {program : List Text} {table : FunctionTable} {summary : Summary}
    (built : FunctionTable.ofProgram (Token.normalize program) = .ok table)
    (ended : (session.run program).result = .ok summary) :
    Answered table ((session.history program).map (·.event)) := by
  rcases session.run_of_built built with ⟨_, idle⟩ | ⟨_, ran, happened⟩
  · rw [idle]
    exact .of_no_call fun _ _ _ => List.not_mem_nil
  · let ready : Session := { session with functions := table }
    have unstopped : ((ready.machine (Token.normalize program)).run ready.env ready.settings.maxSteps
        (Token.normalize program)).fault = none := by
      refine Option.eq_none_iff_forall_ne_some.mpr fun fault raised => ?_
      rw [ran, (ready.execute_error_iff _ fault).mpr raised] at ended
      cases ended
    obtain ⟨faultless, whole⟩ := Machine.history_of_ended unstopped
    obtain ⟨script, played, answered⟩ :=
      Execution.block_writes_answered ready.env ready.env.room 0 (Token.normalize program)
    rw [Execution.script_eq_of_play played] at faultless whole
    rw [happened, whole]
    exact answered faultless

/-- In a session that checks the nesting, a block is cut short by a stray closer only inside a call whose
arguments put that closer into the body of a function, which is nested as it is written. A run that comes to
its end has a block cut short exactly if it makes such a call. If the parameters of all functions stand among
operands only, there are none. -/
theorem history_cut_iff_call_strays (session : Session)
    (validates : session.settings.validateNesting = true) (program : List Text) (table : FunctionTable)
    (built : FunctionTable.ofProgram (Token.normalize program) = .ok table) :
    let events := (session.history program).map (·.event)
    (∀ before depth after, events = before ++ .cut depth :: after →
      ∃ name args function, InsideCall before depth name args ∧ table.find? name = some function ∧
        Nesting.check function.body = .ok () ∧
        Strays (instantiate function.params args function.body)) ∧
      (∀ summary, (session.run program).result = .ok summary →
        ((∃ depth, .cut depth ∈ events) ↔
          ∃ name args level, .call name args level ∈ events ∧ table.CallStrays name args)) ∧
      ((∀ function ∈ table.functions, function.OperandsOnly) → ∀ depth, .cut depth ∉ events) := by
  intro events
  rcases session.run_of_built built with ⟨_, idle⟩ | ⟨passed, _⟩
  · have none : events = [] := by simp only [events, idle, List.map_nil]
    rw [none]
    simp
  · have nested := passed validates
    have blamed : Blamed table events := blamed_history nested built
    have written {name : Text} {function : FunctionDef} (found : table.find? name = some function) :=
      FunctionTable.check_body_of_nested nested built (List.mem_of_find?_eq_some found)
    refine ⟨fun before depth after split => ?_, fun summary ended => ⟨fun ⟨depth, member⟩ => ?_, ?_⟩,
      fun operands depth member => ?_⟩
    · obtain ⟨name, args, inside, function, found, strays⟩ := blamed before depth after split
      exact ⟨name, args, function, inside, found, written found, strays⟩
    · obtain ⟨before, after, split⟩ := List.append_of_mem member
      obtain ⟨name, args, ⟨early, level, inside, rfl, _⟩, strays⟩ := blamed before depth after split
      exact ⟨name, args, level, by simp [split], strays⟩
    · rintro ⟨name, args, level, member, strays⟩
      exact answered_history built ended name args level member strays
    · obtain ⟨before, after, split⟩ := List.append_of_mem member
      obtain ⟨name, args, _, function, found, strays⟩ := blamed before depth after split
      exact (operands function (List.mem_of_find?_eq_some found)).not_strays (written found) args strays

private def oneLamp : Session := ⟨{}, ⟨⟨[".".toList]⟩, 0, 0, .up⟩, ⟨⟨[".".toList]⟩, 0, 0, .up⟩, .empty, 450⟩

/-- A function that leaves a whole instruction to its caller, who gives the closer of a loop. -/
private def closerAsArgument : List Text :=
  ["FUNCTION F(x)".toList, "x".toList, "LIGHT".toList, "ENDFUNCTION".toList, "CALL F(ENDREPEAT)".toList]

/-- A function that leaves a count to its caller. -/
private def countAsArgument : List Text :=
  ["FUNCTION F(x)".toList, "REPEAT x".toList, "LIGHT".toList, "ENDREPEAT".toList, "ENDFUNCTION".toList,
    "CALL F(3)".toList]

/-- A checked program whose one block is cut short before its command: the run succeeds, and the lamp stays
dark. -/
theorem run_cut_short_by_argument :
    oneLamp.settings.validateNesting = true ∧
      Nesting.check (Token.normalize closerAsArgument) = .ok () ∧
      (oneLamp.history closerAsArgument).map (·.event) =
        [.call "F".toList ["ENDREPEAT".toList] 0, .cut 1] ∧
      (oneLamp.run closerAsArgument).result = .ok ⟨0, 0, 0, 1⟩ ∧
      (oneLamp.run closerAsArgument).session.world = oneLamp.world :=
  ⟨rfl, rfl, by decide +kernel, rfl, by decide +kernel⟩

/-- The call that is to blame for a closer among its arguments, and a loop that no argument can close. -/
theorem history_cut_iff_call_strays_of_closer :
    let table : FunctionTable := ⟨[⟨"F".toList, ["x".toList], ["x".toList, "LIGHT".toList]⟩]⟩
    let counted : FunctionDef :=
      ⟨"F".toList, ["x".toList], ["REPEAT x".toList, "LIGHT".toList, "ENDREPEAT".toList]⟩
    (∃ name args function, InsideCall [.call "F".toList ["ENDREPEAT".toList] 0] 1 name args ∧
        table.find? name = some function ∧ Nesting.check function.body = .ok () ∧
        Strays (instantiate function.params args function.body)) ∧
      (∃ name args level, .call name args level ∈ (oneLamp.history closerAsArgument).map (·.event) ∧
        table.CallStrays name args) ∧
      counted.OperandsOnly ∧ .cut 1 ∉ (oneLamp.history countAsArgument).map (·.event) := by
  intro table counted
  have happened : (oneLamp.history closerAsArgument).map (·.event) =
      [.call "F".toList ["ENDREPEAT".toList] 0] ++ .cut 1 :: [] := by decide +kernel
  have cut : .cut 1 ∈ (oneLamp.history closerAsArgument).map (·.event) := by simp [happened]
  have operands : counted.OperandsOnly := by decide +kernel
  obtain ⟨blames, answers, _⟩ := oneLamp.history_cut_iff_call_strays rfl closerAsArgument table rfl
  obtain ⟨_, _, whole⟩ := oneLamp.history_cut_iff_call_strays rfl countAsArgument ⟨[counted]⟩ rfl
  refine ⟨blames _ _ _ happened, (answers ⟨0, 0, 0, 1⟩ rfl).mp ⟨1, cut⟩, operands,
    whole (fun other member => ?_) 1⟩
  rw [List.mem_singleton.mp member]
  exact operands

end Session

end Lamplighter
