import Lamplighter.Proofs.Hoisting
import Lamplighter.Proofs.Inlining
import Lamplighter.Proofs.Phases
import Lamplighter.Proofs.Structured

/-! # Definitions wherever they stand

The definitions of a nested program may all be moved to its front, out of the loops that they stand in,
and nothing changes but the places of instructions. The table, the call graph and the execution each look
for definitions on their own, so each is compared with what it takes from the forest of the program: the
table its outermost definitions, the call graph its live calls, and the execution the forest without
definitions.
-/

namespace Lamplighter

/-- Results that are the same once a part of their errors is left out. -/
theorem mapError_outcomes {ε δ α : Type} {forget : ε → δ} {first second : Except ε α}
    (alike : first.mapError forget = second.mapError forget) :
    (∃ value, first = .ok value ∧ second = .ok value) ∨
      ∃ error other, first = .error error ∧ second = .error other ∧ forget error = forget other := by
  cases first with
  | ok value =>
    cases second with
    | ok other =>
      cases alike
      exact .inl ⟨value, rfl, rfl⟩
    | error other => cases alike
  | error error =>
    cases second with
    | ok other => cases alike
    | error other => exact .inr ⟨error, other, rfl, rfl, Except.error.inj alike⟩

namespace FunctionTable

/-- Adds the definition with the given opener and body. -/
def define (table : FunctionTable) (definition : Token × List Token) : Except Problem FunctionTable :=
  (Signature.read Scope.definition.opener definition.1).map fun signature =>
    table.insert ⟨signature.name, signature.operands, definition.2⟩

/-- Of a flat forest in front, a table takes the outermost definitions. -/
theorem collect_flatten_append (forest : Forest) (index : Nat) (tokens : List Token) (table : FunctionTable) :
    (collect 0 index (forest.flatten ++ tokens) table).mapError Malformed.problem =
      forest.outermost.foldlM define table >>= fun table =>
        (collect 0 (index + forest.size) tokens table).mapError Malformed.problem := by
  induction forest generalizing index tokens table with
  | nil => rfl
  | leaf token plain rest ih =>
    rw [Forest.flatten, List.cons_append, collect, if_neg (plain _).1, ih, Forest.size_leaf,
      Nat.add_comm rest.size, ← Nat.add_assoc]
    rfl
  | node scope opener opens body rest bodyIh restIh =>
    simp only [Forest.flatten, List.cons_append, List.append_assoc]
    rw [Forest.add_size_node]
    cases scope with
    | definition =>
      rw [collect, if_pos opens, Forest.outermost, List.foldlM_cons, define]
      cases read : Signature.readAt Scope.definition.opener opener index with
      | error malformed =>
        rw [(Problem.locate_eq_error_iff.mp read).1]
        rfl
      | ok signature =>
        have next : index + 1 + (body.size + 1) = index + body.size + 2 := by omega
        rw [Problem.locate_eq_ok_iff.mp read]
        dsimp only
        rw [collect_skip, Scope.drop_size_flatten, Scope.size_flatten, Scope.body_flatten, next, restIh]
        rfl
    | loop =>
      have next : index + 1 + body.size + 1 = index + body.size + 2 := by omega
      rw [collect, if_neg (by simp [opens]), bodyIh, Forest.outermost, List.foldlM_append, bind_assoc]
      refine congrArg (_ >>= ·) (funext fun table => ?_)
      rw [collect, if_neg (by simp), next, restIh]

/-- The table of a nested program, from its outermost definitions in their order. -/
theorem ofProgram_flatten_eq (forest : Forest) :
    (ofProgram forest.flatten).mapError Malformed.problem = forest.outermost.foldlM define empty := by
  have collected := collect_flatten_append forest 0 [] empty
  rw [List.append_nil] at collected
  exact collected.trans (bind_pure _)

theorem ofProgram_hoist (forest : Forest) :
    (ofProgram (forest.hoist forest.bare).flatten).mapError Malformed.problem =
      (ofProgram forest.flatten).mapError Malformed.problem := by
  rw [ofProgram_flatten_eq, ofProgram_flatten_eq, Forest.outermost_hoist, Forest.outermost_bare,
    List.append_nil]

end FunctionTable

namespace CallScan

/-- The names of a scan, or the problem that ends it. -/
def outcome (scan : CallScan) : Except Problem (List Text) := scan.toExcept.mapError Malformed.problem

theorem outcome_cons (name : Text) (scan : CallScan) :
    (scan.cons name).outcome = scan.outcome.map (name :: ·) := by
  rcases scan with ⟨names, _ | malformed⟩ <;> rfl

/-- Reads the name of a call in front of other names. -/
def read (token : Token) (later : Except Problem (List Text)) : Except Problem (List Text) :=
  (Signature.read Token.callWord token).bind fun signature => later.map (signature.name :: ·)

end CallScan

/-- Of a flat forest in front, a scan reads the live calls. -/
theorem outcome_callNamesFrom_flatten (forest : Forest) (index : Nat) (tokens : List Token) :
    (callNamesFrom 0 index (forest.flatten ++ tokens)).outcome =
      forest.liveCalls.foldr CallScan.read (callNamesFrom 0 (index + forest.size) tokens).outcome := by
  induction forest generalizing index tokens with
  | nil => rfl
  | leaf token plain rest ih =>
    rw [Forest.flatten, List.cons_append, Forest.size_leaf, Nat.add_comm rest.size, ← Nat.add_assoc,
      Forest.liveCalls]
    split_ifs with calls
    · rw [List.foldr_cons, CallScan.read]
      cases read : Signature.readAt Token.callWord token index with
      | error malformed =>
        rw [callNamesFrom_call_of_error _ _ calls read, (Problem.locate_eq_error_iff.mp read).1]
        rfl
      | ok signature =>
        rw [callNamesFrom_call_of_ok _ _ calls read, CallScan.outcome_cons, ih,
          Problem.locate_eq_ok_iff.mp read]
        rfl
    · rw [callNamesFrom_pass _ _ (plain _).1 (plain _).1 calls, ih]
  | node scope opener opens body rest bodyIh restIh =>
    simp only [Forest.flatten, List.cons_append, List.append_assoc]
    rw [Forest.add_size_node]
    cases scope with
    | definition => rw [callNamesFrom_definition _ _ opens, restIh, Forest.liveCalls]
    | loop =>
      rw [callNamesFrom_loop _ _ opens, Forest.liveCalls]
      split_ifs
      · have next : index + 1 + body.size + 1 = index + body.size + 2 := by omega
        rw [bodyIh, callNamesFrom_pass _ _ (by simp) (by simp) (by simp), next, restIh, List.foldr_append]
      · exact restIh ..

/-- The scan of a nested program, from its live calls in their order. -/
theorem outcome_callNames_flatten (forest : Forest) :
    (callNames forest.flatten).outcome = forest.liveCalls.foldr CallScan.read (.ok []) := by
  have scanned := outcome_callNamesFrom_flatten forest 0 []
  rw [List.append_nil] at scanned
  exact scanned

theorem outcome_callNames_hoist (forest : Forest) :
    (callNames (forest.hoist forest.bare).flatten).outcome = (callNames forest.flatten).outcome := by
  rw [outcome_callNames_flatten, outcome_callNames_flatten, Forest.liveCalls_hoist, Forest.liveCalls_bare]

theorem CallGraph.ofProgram_alike {first second : List Token}
    (alike : (callNames first).outcome = (callNames second).outcome) (table : FunctionTable) :
    (ofProgram first table).mapError Malformed.problem =
      (ofProgram second table).mapError Malformed.problem := by
  unfold ofProgram addCalls
  rcases mapError_outcomes alike with ⟨names, left, right⟩ | ⟨malformed, other, left, right, problem⟩
  · rw [left, right]
  · rw [left, right]
    exact congrArg Except.error problem

/-- Two runs that differ at most in their logs and in the place of an instruction. -/
abbrev Machine.SameCourse (first second : Run Machine) : Prop :=
  Run.Agrees (fun _ => False) Machine.SameProgress first second

namespace Execution

open Machine (SameProgress SameCourse)

/-- Two ways to go on that agree on machines that differ at most in their logs. -/
private def Abreast (next follow : Machine → Run Machine) : Prop :=
  ∀ machine other, SameProgress machine other → SameCourse (next machine) (follow other)

private theorem Abreast.congruence :
    Congruence (fun fault cause => fault.withoutIndex = cause.withoutIndex) Abreast where
  done := fun _ _ same => .done same
  stop := fun alike _ _ same => .stop same alike
  andThen := fun first next machine other same => (first machine other same).andThen next

private theorem Abreast.handled (budget : Option Int) (event : Event) :
    Abreast (Machine.handle budget event) (Machine.handle budget event) := by
  intro machine other same
  cases event with
  | act primitive => exact same.act budget primitive
  | iteration => exact same.count budget
  | call name args depth => exact .done same
  | loop count size depth => exact .done same
  | cut depth => exact .done same

/-- The log makes no difference to what a block does. -/
theorem block_agrees (env : Env) (budget : Option Int) (room depth : Nat) (tokens : List Token)
    {machine other : Machine} (same : SameProgress machine other) :
    SameCourse (block (Machine.handle budget) env room depth tokens machine)
      (block (Machine.handle budget) env room depth tokens other) := by
  refine block_related 0 0 Abreast.congruence (fun _ => rfl) rfl (fun event => ?_) (fun _ _ => ?_)
    room depth tokens machine other same
  · rw [Event.deeper_zero]
    exact .handled budget event
  · exact Abreast.congruence.stop rfl

end Execution

namespace Forest

open Machine (SameProgress SameCourse)

variable (env : Env) (budget : Option Int)

private theorem evaluateLeaf_agrees (depth : Nat) (token : Token) (index place : Nat)
    {machine other : Machine} (same : SameProgress machine other) :
    SameCourse (evaluateLeaf env budget depth index token machine)
      (evaluateLeaf env budget depth place token other) := by
  unfold evaluateLeaf
  split
  · exact same.act budget _
  · rcases Execution.resolve_cases env token with ⟨⟨function, args⟩, resolved⟩ | ⟨cause, unresolved⟩
    · rw [resolved index, resolved place]
      exact Execution.block_agrees env budget _ _ _ (same.report _ _)
    · obtain ⟨fault, left, alike⟩ := unresolved index
      obtain ⟨other, right, cause⟩ := unresolved place
      rw [left, right]
      exact .stop same (alike.trans cause.symm)
  · exact .done same

private theorem onLevel_agrees {depth : Nat} {evaluate follow : Machine → Run Machine}
    (inside : ∀ {machine other}, SameProgress machine other → SameCourse (evaluate machine) (follow other))
    {machine other : Machine} (same : SameProgress machine other) :
    SameCourse (onLevel env depth evaluate machine) (onLevel env depth follow other) := by
  unfold onLevel
  split_ifs
  · exact .stop same rfl
  · exact inside same

/-- Without its definitions, which it passes over, a row does the same wherever it stands. -/
theorem evaluateRow_bare (forest : Forest) (depth index place : Nat) {machine other : Machine}
    (same : SameProgress machine other) :
    SameCourse (evaluateRow env budget depth index forest machine)
      (evaluateRow env budget depth place forest.bare other) := by
  induction forest generalizing depth index place machine other with
  | nil => exact .done same
  | leaf token plain rest ih =>
    rw [bare, evaluateRow, evaluateRow]
    apply (evaluateLeaf_agrees env budget depth token index place same).andThen
    intro machine other same
    exact ih depth _ _ same
  | node scope opener opens body rest bodyIh restIh =>
    cases scope with
    | definition =>
      rw [bare, evaluateRow]
      exact restIh depth _ _ same
    | loop =>
      rw [bare, evaluateRow, evaluateRow]
      rcases Execution.readCountAt_cases opener with ⟨count, read⟩ | ⟨problem, unread⟩
      · rw [read index, read place]
        refine Run.Agrees.andThen (Run.Agrees.iterate ?_ _ (same.report _ _)) ?_
        · intro machine other same
          apply (same.count budget).andThen
          intro machine other same
          exact onLevel_agrees env (fun same => bodyIh (depth + 1) 0 0 same) same
        · intro machine other same
          exact restIh depth _ _ same
      · rw [unread index, unread place]
        exact .stop same rfl

/-- Definitions in front are passed over. They only move on the place of the row, so what the row agrees
with has to allow for every place. -/
theorem evaluateRow_hoist {ran : Run Machine} {after : Forest} {depth : Nat} {machine : Machine}
    (agrees : ∀ place, SameCourse ran (evaluateRow env budget depth place after machine)) (forest : Forest)
    (place : Nat) : SameCourse ran (evaluateRow env budget depth place (forest.hoist after) machine) := by
  induction forest generalizing after place with
  | nil => exact agrees place
  | leaf token plain rest ih => exact ih agrees place
  | node scope opener opens body rest bodyIh restIh =>
    cases scope with
    | definition =>
      rw [hoist, evaluateRow]
      exact restIh agrees _
    | loop =>
      -- The definitions of the body come first, then those of the rest of the row.
      rw [hoist]
      exact bodyIh (restIh agrees) place

/-- With its definitions first, a flat forest takes the same course. -/
theorem run_hoist (forest : Forest) {machine other : Machine} (same : SameProgress machine other) :
    SameCourse (machine.run env budget forest.flatten)
      (other.run env budget (forest.hoist forest.bare).flatten) := by
  unfold Machine.run Execution.execute
  rw [← env.roomAt_zero, Execution.block_roomAt, Execution.block_roomAt,
    funext (Execution.walk_flatten env budget forest 0 0), funext (Execution.walk_flatten env budget _ 0 0)]
  refine onLevel_agrees env (fun same => ?_) same
  exact evaluateRow_hoist env budget (fun place => evaluateRow_bare env budget forest 0 0 place same) forest 0

end Forest

namespace Session

variable (session : Session)

theorem checkRecursion_alike {first second : List Token}
    (alike : (callNames first).outcome = (callNames second).outcome) :
    (session.checkRecursion first).mapError Fault.withoutIndex =
      (session.checkRecursion second).mapError Fault.withoutIndex := by
  unfold checkRecursion
  split_ifs
  · rcases mapError_outcomes (CallGraph.ofProgram_alike alike session.functions) with
      ⟨graph, left, right⟩ | ⟨malformed, other, left, right, problem⟩
    · rw [left, right]
    · rw [left, right]
      exact congrArg Except.error (Fault.withoutIndex_malformed problem)
  · rfl

/-- All that a session takes from a machine, the log apart, is its world, its steps and its fault. -/
theorem execute_alike {first second : List Token}
    (agrees : Machine.SameCourse
      ((session.machine first).run session.env session.settings.maxSteps first)
      ((session.machine second).run session.env session.settings.maxSteps second)) :
    (session.execute first).session = (session.execute second).session ∧
      (session.execute first).result.mapError Fault.withoutIndex =
        (session.execute second).result.mapError Fault.withoutIndex := by
  unfold execute
  dsimp only
  rw [← machine, ← machine]
  rcases agrees.outcomes with ⟨_, _, _, never⟩ | ⟨reached, other, left, right, world, steps⟩ |
    ⟨reached, other, fault, cause, left, right, ⟨world, _⟩, alike⟩
  · exact never.elim
  · rw [left, right]
    simp only [Run.done, world, steps, and_self]
  · rw [left, right]
    simp only [Run.stop, world, true_and]
    exact congrArg Except.error alike

/-- Moving all definitions of a nested program to its front changes nothing that a run leaves behind, and
nothing of its result but the place of an instruction. -/
theorem run_definitionsFirst {program : List Text} (normal : Token.normalize program = program)
    (nested : Nesting.check program = .ok ()) :
    let moved := Token.definitionsFirst program
    (session.run moved).session = (session.run program).session ∧
      (session.run moved).result.mapError Fault.withoutIndex =
        (session.run program).result.mapError Fault.withoutIndex := by
  intro moved
  obtain ⟨forest, rfl⟩ := (Nesting.check_eq_ok_iff program).mp nested
  have flat : moved = (forest.hoist forest.bare).flatten := forest.definitionsFirst_flatten
  have tidy : Token.normalize moved = moved := Token.normalize_definitionsFirst normal
  have passed : session.PassesNesting (Token.normalize forest.flatten) := by
    rw [normal]
    exact fun _ => nested
  have also : session.PassesNesting (Token.normalize moved) := by
    rw [tidy, flat]
    exact fun _ => (Nesting.check_eq_ok_iff _).mpr ⟨_, rfl⟩
  have tables := FunctionTable.ofProgram_hoist forest
  rw [← flat, ← normal, ← tidy] at tables
  rcases mapError_outcomes tables with ⟨table, built, taken⟩ | ⟨malformed, other, unread, same, problem⟩
  · have checks := checkRecursion_alike { session with functions := table } (outcome_callNames_hoist forest)
    rw [← flat, ← normal, ← tidy] at checks
    rcases mapError_outcomes checks with ⟨_, accepted, approved⟩ | ⟨fault, cause, refused, rejected, alike⟩
    · let ready := { session with functions := table }
      have same : Machine.SameProgress (ready.machine forest.flatten) (ready.machine moved) := ⟨rfl, rfl⟩
      have agrees := forest.run_hoist ready.env ready.settings.maxSteps same
      rw [← flat] at agrees
      obtain ⟨sessions, results⟩ := ready.execute_alike agrees
      rw [run_of_accepted also built accepted, run_of_accepted passed taken approved, tidy, normal]
      exact ⟨sessions.symm, results.symm⟩
    · rw [run_of_refused also built refused, run_of_refused passed taken rejected]
      exact ⟨rfl, congrArg Except.error alike⟩
  · rw [run_of_table_error also unread, run_of_table_error passed same]
    exact ⟨rfl, congrArg Except.error (Fault.withoutIndex_malformed problem)⟩

private def onLamp : Session :=
  ⟨{}, ⟨⟨["..".toList]⟩, 0, 0, .right⟩, ⟨⟨["..".toList]⟩, 0, 0, .right⟩, .empty, 450⟩

/-- A function that is defined in a loop without iterations, with a definition inside, and once more after
its call and a loop whose count cannot be read. -/
private def scattered : List Text :=
  ["REPEAT 0".toList, "FUNCTION F".toList, "FUNCTION G".toList, "LEFT".toList, "ENDFUNCTION".toList,
    "ENDFUNCTION".toList, "ENDREPEAT".toList, "CALL F".toList, "REPEAT TWO".toList, "ENDREPEAT".toList,
    "FUNCTION F".toList, "LIGHT".toList, "ENDFUNCTION".toList]

private def gathered : List Text :=
  ["FUNCTION F".toList, "FUNCTION G".toList, "LEFT".toList, "ENDFUNCTION".toList, "ENDFUNCTION".toList,
    "FUNCTION F".toList, "LIGHT".toList, "ENDFUNCTION".toList, "REPEAT 0".toList, "ENDREPEAT".toList,
    "CALL F".toList, "REPEAT TWO".toList, "ENDREPEAT".toList]

/-- Both runs light the lamp and stop at the same loop, which stands at different places. -/
theorem run_definitionsFirst_of_scattered :
    let ran := onLamp.run scattered
    let moved := onLamp.run gathered
    Token.definitionsFirst scattered = gathered ∧
      ran.session = ⟨{}, ⟨⟨["x.".toList]⟩, 0, 0, .right⟩, onLamp.initial,
        ⟨[⟨"F".toList, [], ["LIGHT".toList]⟩]⟩, onLamp.stack⟩ ∧
      moved.session = ran.session ∧
      ran.result = .error (.malformed ⟨.countNumeral "REPEAT TWO".toList, some 8⟩) ∧
      moved.result = .error (.malformed ⟨.countNumeral "REPEAT TWO".toList, some 11⟩) ∧
      moved.result.mapError Fault.withoutIndex = ran.result.mapError Fault.withoutIndex := by
  intro ran moved
  have gathers : Token.definitionsFirst scattered = gathered := by decide +kernel
  have normal : Token.normalize scattered = scattered := by decide +kernel
  have nested : Nesting.check scattered = .ok () := rfl
  obtain ⟨sessions, results⟩ := onLamp.run_definitionsFirst normal nested
  rw [gathers] at sessions results
  exact ⟨gathers, by decide +kernel, sessions, rfl, rfl, results⟩

end Session

end Lamplighter
