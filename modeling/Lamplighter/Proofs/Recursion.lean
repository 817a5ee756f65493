import Lamplighter.Proofs.Invariant
import Lamplighter.Proofs.Search
import Lamplighter.Session

/-! # The recursion check

The graph of a program has the calls of the main program and of the functions as its edges, and nothing
else. So the recursive functions are those that the main program reaches and that lie on a cycle of
calls, as long as no function shares the node of the main program. What the check refuses in general,
with such a function or with a call of that name, is stated in the same terms.
-/

namespace Lamplighter

private theorem insertBy_perm {α : Type} (le : α → α → Bool) (item : α) (items : List α) :
    (insertBy le item items).Perm (item :: items) := by
  induction items with
  | nil => exact .refl _
  | cons other rest ih =>
    unfold insertBy
    split_ifs
    · exact .refl _
    · exact (ih.cons other).trans (.swap item other rest)

/-- Sorting loses and adds nothing. -/
theorem sortBy_perm {α : Type} (le : α → α → Bool) (items : List α) : (sortBy le items).Perm items := by
  induction items with
  | nil => exact .refl _
  | cons item rest ih => exact (insertBy_perm le item _).trans (ih.cons item)

namespace CallGraph

variable {graph : CallGraph}

theorem mem_addNode_iff (node other : Text) :
    other ∈ (graph.addNode node).nodes ↔ other ∈ graph.nodes ∨ other = node := by
  unfold addNode
  split_ifs with member
  · constructor
    · exact .inl
    · rintro (known | rfl)
      · exact known
      · exact member
  · simp

theorem edges_addNode (node : Text) : (graph.addNode node).edges = graph.edges := by
  unfold addNode
  split_ifs <;> rfl

theorem WellFormed.addNode (wellFormed : graph.WellFormed) (node : Text) :
    (graph.addNode node).WellFormed := by
  refine ⟨?_, (mem_addNode_iff node _).mpr (.inl wellFormed.main), ?_⟩
  · unfold CallGraph.addNode
    split_ifs with member
    · exact wellFormed.nodup
    · exact List.nodup_append.mpr ⟨wellFormed.nodup, List.nodup_singleton node, by
        intro known listed other single
        rw [List.mem_singleton.mp single]
        rintro rfl
        exact member listed⟩
  · intro caller callee calls
    rw [Calls, edges_addNode] at calls
    have ends := wellFormed.ends calls
    exact ⟨(mem_addNode_iff node _).mpr (.inl ends.1), (mem_addNode_iff node _).mpr (.inl ends.2)⟩

theorem calls_addEdge_iff (caller callee source target : Text) :
    (graph.addEdge caller callee).Calls source target ↔
      graph.Calls source target ∨ source = caller ∧ target = callee := by
  unfold addEdge Calls
  simp only
  split_ifs with member
  · rw [edges_addNode, edges_addNode] at member ⊢
    constructor
    · exact .inl
    · rintro (known | ⟨rfl, rfl⟩)
      · exact known
      · exact member
  · simp [edges_addNode]

theorem WellFormed.addEdge (wellFormed : graph.WellFormed) (caller callee : Text) :
    (graph.addEdge caller callee).WellFormed := by
  have extended := (wellFormed.addNode caller).addNode callee
  have nodes : (graph.addEdge caller callee).nodes = ((graph.addNode caller).addNode callee).nodes := by
    unfold CallGraph.addEdge
    simp only
    split_ifs <;> rfl
  refine ⟨nodes ▸ extended.nodup, nodes ▸ extended.main, ?_⟩
  intro source target calls
  rw [nodes]
  rcases (calls_addEdge_iff caller callee source target).mp calls with known | ⟨rfl, rfl⟩
  · apply extended.ends
    rwa [Calls, edges_addNode, edges_addNode]
  · simp [mem_addNode_iff]

/-- The graph after the calls of one caller. -/
private theorem foldl_addEdge (wellFormed : graph.WellFormed) (caller : Text) (callees : List Text) :
    (callees.foldl (fun graph callee => graph.addEdge caller callee) graph).WellFormed ∧
      ∀ source target,
        (callees.foldl (fun graph callee => graph.addEdge caller callee) graph).Calls source target ↔
          graph.Calls source target ∨ source = caller ∧ target ∈ callees := by
  induction callees generalizing graph with
  | nil => exact ⟨wellFormed, by simp⟩
  | cons callee rest ih =>
    obtain ⟨extended, calls⟩ := ih (wellFormed.addEdge caller callee)
    refine ⟨extended, fun source target => ?_⟩
    rw [List.foldl_cons, calls, calls_addEdge_iff, List.mem_cons]
    tauto

theorem addCalls_eq_ok {caller : Text} {tokens : List Token} {extended : CallGraph}
    (wellFormed : graph.WellFormed) (added : graph.addCalls caller tokens = .ok extended) :
    extended.WellFormed ∧ ∀ source target, extended.Calls source target ↔
      graph.Calls source target ∨ source = caller ∧ target ∈ (callNames tokens).names := by
  unfold addCalls CallScan.toExcept at added
  cases fault : (callNames tokens).fault with
  | some malformed => simp [fault, Except.map] at added
  | none =>
    simp only [fault, Except.map, Except.ok.injEq] at added
    subst added
    exact foldl_addEdge wellFormed caller _

private theorem foldlM_addCalls {functions : List FunctionDef} {extended : CallGraph}
    (wellFormed : graph.WellFormed)
    (added : functions.foldlM (fun graph function => graph.addCalls function.name function.body) graph =
      .ok extended) :
    extended.WellFormed ∧ ∀ source target, extended.Calls source target ↔
      graph.Calls source target ∨
        ∃ function ∈ functions, function.name = source ∧ target ∈ (callNames function.body).names := by
  induction functions generalizing graph with
  | nil =>
    cases added
    exact ⟨wellFormed, by simp⟩
  | cons function rest ih =>
    rw [List.foldlM_cons] at added
    cases first : graph.addCalls function.name function.body with
    | error malformed =>
      rw [first] at added
      cases added
    | ok middle =>
      rw [first] at added
      obtain ⟨formed, calls⟩ := addCalls_eq_ok wellFormed first
      obtain ⟨done, edges⟩ := ih formed added
      refine ⟨done, fun source target => ?_⟩
      rw [edges, calls, or_assoc, List.exists_mem_cons_iff]
      simp only [eq_comm]

private theorem foldl_addNode (wellFormed : graph.WellFormed) (names : List Text) :
    (names.foldl addNode graph).WellFormed ∧ (names.foldl addNode graph).edges = graph.edges := by
  induction names generalizing graph with
  | nil => exact ⟨wellFormed, rfl⟩
  | cons name rest ih =>
    obtain ⟨formed, edges⟩ := ih (wellFormed.addNode name)
    exact ⟨formed, edges.trans (edges_addNode name)⟩

/-- Without any calls there is the main program, each function once, and no edge. -/
private theorem ofNames_wellFormed (names : List Text) :
    (ofNames names).WellFormed ∧ (ofNames names).edges = [] := by
  have start : (⟨[mainNode], []⟩ : CallGraph).WellFormed := by
    refine ⟨List.nodup_singleton _, List.mem_singleton_self _, ?_⟩
    intro caller callee calls
    cases calls
  exact foldl_addNode start names

end CallGraph

namespace FunctionTable

/-- A function of the table calls a name in its body. -/
def Calls (table : FunctionTable) (caller callee : Text) : Prop :=
  ∃ function ∈ table.functions, function.name = caller ∧ callee ∈ (callNames function.body).names

/-- The main program reaches a name by one of its own calls, and from there by calls of functions. -/
def Reached (table : FunctionTable) (program : List Token) (name : Text) : Prop :=
  ∃ root ∈ (callNames program).names, Relation.ReflTransGen table.Calls root name

/-- The main program reaches a function that calls itself, directly or through others. -/
def Recursive (table : FunctionTable) (program : List Token) (name : Text) : Prop :=
  table.Reached program name ∧ Relation.TransGen table.Calls name name

end FunctionTable

namespace CallGraph

variable {graph : CallGraph} {program : List Token} {table : FunctionTable}

/-- The edges are the calls of the main program and those of the functions. -/
theorem ofProgram_eq_ok (drawn : ofProgram program table = .ok graph) :
    graph.WellFormed ∧ ∀ caller callee, graph.Calls caller callee ↔
      caller = mainNode ∧ callee ∈ (callNames program).names ∨ table.Calls caller callee := by
  obtain ⟨start, bare⟩ := ofNames_wellFormed table.names
  unfold ofProgram at drawn
  cases main : (ofNames table.names).addCalls mainNode program with
  | error malformed =>
    rw [main] at drawn
    cases drawn
  | ok middle =>
    rw [main] at drawn
    obtain ⟨formed, calls⟩ := addCalls_eq_ok start main
    obtain ⟨done, edges⟩ := foldlM_addCalls formed drawn
    refine ⟨done, fun caller callee => ?_⟩
    rw [edges, calls, Calls, bare]
    simp only [List.not_mem_nil, false_or]
    rfl

private theorem exists_addCalls_iff (graph : CallGraph) (caller : Text) (tokens : List Token) :
    (∃ extended, graph.addCalls caller tokens = .ok extended) ↔ (callNames tokens).fault = none := by
  unfold addCalls CallScan.toExcept
  cases (callNames tokens).fault with
  | none => exact ⟨fun _ => rfl, fun _ => ⟨_, rfl⟩⟩
  | some malformed =>
    constructor
    · rintro ⟨extended, added⟩
      cases added
    · intro clear
      cases clear

private theorem exists_foldlM_iff (functions : List FunctionDef) (graph : CallGraph) :
    (∃ extended, functions.foldlM (fun graph function => graph.addCalls function.name function.body) graph =
      .ok extended) ↔ ∀ function ∈ functions, (callNames function.body).fault = none := by
  induction functions generalizing graph with
  | nil => exact ⟨fun _ function member => absurd member List.not_mem_nil, fun _ => ⟨graph, rfl⟩⟩
  | cons function rest ih =>
    rw [List.forall_mem_cons, ← exists_addCalls_iff graph function.name, List.foldlM_cons]
    cases graph.addCalls function.name function.body with
    | error malformed =>
      constructor
      · rintro ⟨extended, folded⟩
        cases folded
      · rintro ⟨⟨extended, added⟩, _⟩
        cases added
    | ok middle =>
      constructor
      · intro folded
        exact ⟨⟨middle, rfl⟩, (ih middle).mp folded⟩
      · intro clear
        exact (ih middle).mpr clear.2

/-- The graph can be drawn exactly if all calls can be read. -/
theorem exists_ofProgram_iff :
    (∃ graph, ofProgram program table = .ok graph) ↔ (callNames program).fault = none ∧
      ∀ function ∈ table.functions, (callNames function.body).fault = none := by
  rw [← exists_addCalls_iff (ofNames table.names) mainNode, ofProgram]
  cases (ofNames table.names).addCalls mainNode program with
  | error malformed =>
    constructor
    · rintro ⟨graph, drawn⟩
      cases drawn
    · rintro ⟨⟨extended, added⟩, _⟩
      cases added
  | ok middle =>
    constructor
    · intro drawn
      exact ⟨⟨middle, rfl⟩, (exists_foldlM_iff table.functions middle).mp drawn⟩
    · intro clear
      exact (exists_foldlM_iff table.functions middle).mpr clear.2

/-- The main program's node leads to another one by its own calls and those of the function that
shares the node. -/
private theorem reaches_iff (drawn : ofProgram program table = .ok graph) {name : Text} (other : name ≠ mainNode) :
    Relation.ReflTransGen graph.Calls mainNode name ↔
      table.Reached program name ∨ Relation.TransGen table.Calls mainNode name := by
  obtain ⟨_, calls⟩ := ofProgram_eq_ok drawn
  have edges : table.Calls ≤ graph.Calls := fun caller callee called =>
    (calls caller callee).mpr (.inr called)
  constructor
  · intro path
    have ends : name = mainNode ∨
        (table.Reached program name ∨ Relation.TransGen table.Calls mainNode name) := by
      clear other
      induction path with
      | refl => exact .inl rfl
      | @tail middle name _ step ih =>
        right
        rcases (calls middle name).mp step with ⟨rfl, called⟩ | called
        · exact .inl ⟨name, called, .refl⟩
        · rcases ih with rfl | ⟨root, listed, path⟩ | path
          · exact .inr (.single called)
          · exact .inl ⟨root, listed, path.tail called⟩
          · exact .inr (path.tail called)
    exact ends.resolve_left other
  · rintro (⟨root, listed, path⟩ | path)
    · have first : graph.Calls mainNode root := (calls mainNode root).mpr (.inl ⟨rfl, listed⟩)
      exact .head first (Relation.ReflTransGen.mono edges _ _ path)
    · exact (Relation.TransGen.mono edges _ _ path).to_reflTransGen

/-- A function that is reached lies on a cycle of the graph if it lies on one of functions, or if it
leads to the main program's node. -/
private theorem cycle_iff (drawn : ofProgram program table = .ok graph) {name : Text} (other : name ≠ mainNode)
    (reached : Relation.ReflTransGen graph.Calls mainNode name) :
    Relation.TransGen graph.Calls name name ↔
      Relation.TransGen table.Calls name name ∨ Relation.TransGen table.Calls name mainNode := by
  obtain ⟨_, calls⟩ := ofProgram_eq_ok drawn
  have edges : table.Calls ≤ graph.Calls := fun caller callee called =>
    (calls caller callee).mpr (.inr called)
  constructor
  · intro cycle
    have ends : ∀ target, Relation.TransGen graph.Calls name target →
        Relation.TransGen table.Calls name target ∨ Relation.TransGen table.Calls name mainNode := by
      intro target path
      induction path with
      | single step =>
        rcases (calls _ _).mp step with ⟨main, _⟩ | called
        · exact absurd main other
        · exact .inl (.single called)
      | tail _ step ih =>
        rcases ih with path | path
        · rcases (calls _ _).mp step with ⟨rfl, _⟩ | called
          · exact .inr path
          · exact .inl (path.tail called)
        · exact .inr path
    exact ends name cycle
  · rintro (cycle | path)
    · exact Relation.TransGen.mono edges _ _ cycle
    · exact (Relation.TransGen.mono edges _ _ path).trans_left reached

end CallGraph

namespace FunctionTable

variable {table : FunctionTable} {program : List Token}

/-- What the check names. A function with the name of the main program's node shares that node: its
calls count as calls of the main program, and a call of that name closes a cycle. -/
def Refused (table : FunctionTable) (program : List Token) (name : Text) : Prop :=
  name ≠ CallGraph.mainNode ∧
    (table.Reached program name ∨ Relation.TransGen table.Calls CallGraph.mainNode name) ∧
      (Relation.TransGen table.Calls name name ∨ Relation.TransGen table.Calls name CallGraph.mainNode)

theorem mem_recursiveNames_iff {graph : CallGraph} (drawn : CallGraph.ofProgram program table = .ok graph)
    (name : Text) : name ∈ graph.recursiveNames ↔ table.Refused program name := by
  have wellFormed := (CallGraph.ofProgram_eq_ok drawn).1
  rw [CallGraph.recursiveNames, Text.sort, (sortBy_perm _ _).mem_iff,
    CallGraph.mem_recursiveNodes_iff wellFormed]
  constructor
  · rintro ⟨other, reached, cycle⟩
    exact ⟨other, (CallGraph.reaches_iff drawn other).mp reached,
      (CallGraph.cycle_iff drawn other reached).mp cycle⟩
  · rintro ⟨other, reached, cycle⟩
    have path := (CallGraph.reaches_iff drawn other).mpr reached
    exact ⟨other, path, (CallGraph.cycle_iff drawn other path).mpr cycle⟩

/-- The main program's node does not get in the way of the functions: no function of that name is
recursive, a function that is only reached through it neither lies on a cycle nor leads back to it, and
a function that is reached and leads to it lies on a cycle anyway. -/
structure RootApart (table : FunctionTable) (program : List Token) : Prop where
  root : ¬ table.Recursive program CallGraph.mainNode
  outgoing : ∀ name, name ≠ CallGraph.mainNode →
    Relation.TransGen table.Calls CallGraph.mainNode name → ¬ table.Reached program name →
      ¬ Relation.TransGen table.Calls name name ∧ ¬ Relation.TransGen table.Calls name CallGraph.mainNode
  incoming : ∀ name, name ≠ CallGraph.mainNode → table.Reached program name →
    Relation.TransGen table.Calls name CallGraph.mainNode → Relation.TransGen table.Calls name name

/-- The check names the recursive functions exactly if the main program's node stands apart. -/
theorem rootApart_iff :
    table.RootApart program ↔ ∀ name, table.Refused program name ↔ table.Recursive program name := by
  constructor
  · intro apart name
    constructor
    · rintro ⟨other, found, cycle⟩
      have reached : table.Reached program name := by
        by_contra missed
        have quiet := apart.outgoing name other (found.resolve_left missed) missed
        exact cycle.elim quiet.1 quiet.2
      exact ⟨reached, cycle.elim id (apart.incoming name other reached)⟩
    · intro recursive
      have other : name ≠ CallGraph.mainNode := by
        rintro rfl
        exact apart.root recursive
      exact ⟨other, .inl recursive.1, .inl recursive.2⟩
  · intro same
    refine ⟨?_, ?_, ?_⟩
    · intro recursive
      exact ((same _).mpr recursive).1 rfl
    · intro name other path missed
      constructor
      · intro cycle
        exact missed ((same name).mp ⟨other, .inr path, .inl cycle⟩).1
      · intro back
        exact missed ((same name).mp ⟨other, .inr path, .inr back⟩).1
    · intro name other reached path
      exact ((same name).mp ⟨other, .inl reached, .inr path⟩).2

/-- It stands apart if no function has its name and none calls it. -/
theorem rootApart_of_unused (undefined : CallGraph.mainNode ∉ table.names)
    (uncalled : ∀ function ∈ table.functions, CallGraph.mainNode ∉ (callNames function.body).names) :
    table.RootApart program := by
  have noCall (callee : Text) : ¬ table.Calls CallGraph.mainNode callee := by
    rintro ⟨function, member, name, _⟩
    exact undefined (List.mem_map.mpr ⟨function, member, name⟩)
  have noPath (name : Text) : ¬ Relation.TransGen table.Calls CallGraph.mainNode name := by
    intro path
    obtain ⟨callee, called, _⟩ := Relation.TransGen.head'_iff.mp path
    exact noCall callee called
  refine ⟨fun recursive => noPath _ recursive.2, fun name _ path _ => absurd path (noPath name), ?_⟩
  intro name _ _ path
  obtain ⟨caller, _, function, member, _, called⟩ := Relation.TransGen.tail'_iff.mp path
  exact absurd called (uncalled function member)

end FunctionTable

/-- A run is refused as recursive exactly if there are functions to name, and each of them is named
once. -/
def Report.Rejects (report : Report) (wanted : Text → Prop) : Prop :=
  ((∃ names, report.result = .error (.recursive names)) ↔ ∃ name, wanted name) ∧
    ∀ names, report.result = .error (.recursive names) →
      names.Nodup ∧ ∀ name, name ∈ names ↔ wanted name

/-- What a run rejects is determined by the run. -/
theorem Report.Rejects.iff_of_rejects {report : Report} {wanted other : Text → Prop}
    (rejects : report.Rejects wanted) : report.Rejects other ↔ ∀ name, wanted name ↔ other name := by
  constructor
  · intro alike name
    constructor
    · intro named
      obtain ⟨names, error⟩ := rejects.1.mpr ⟨name, named⟩
      exact ((alike.2 names error).2 name).mp (((rejects.2 names error).2 name).mpr named)
    · intro named
      obtain ⟨names, error⟩ := alike.1.mpr ⟨name, named⟩
      exact ((rejects.2 names error).2 name).mp (((alike.2 names error).2 name).mpr named)
  · intro same
    have equal : wanted = other := funext fun name => propext (same name)
    exact equal ▸ rejects

namespace Session

theorem checkNesting_of_check (session : Session) {tokens : List Token}
    (nested : Nesting.check tokens = .ok ()) : session.checkNesting tokens = .ok () := by
  unfold checkNesting
  split_ifs
  · rw [nested]
    rfl
  · rfl

/-- No execution is stopped as recursive. -/
theorem execute_result_ne_recursive (session : Session) (tokens : List Token) (names : List Text) :
    (session.execute tokens).result ≠ .error (.recursive names) := by
  unfold execute
  simp only
  split
  · rename_i fault raised
    intro refused
    cases refused
    rcases Machine.run_fault raised with program | ⟨limit, depth⟩ | ⟨limit, budget⟩
    · cases program
    · cases depth
    · cases budget
  · simp

section Run

variable (session : Session) {program : List Text} {table : FunctionTable}

/-- A program in order is refused as recursive for the recursive names of its graph, if there are any. -/
private theorem run_recursive_iff {graph : CallGraph} (rejects : session.settings.rejectRecursion = true)
    (nested : Nesting.check (Token.normalize program) = .ok ())
    (built : FunctionTable.ofProgram (Token.normalize program) = .ok table)
    (drawn : CallGraph.ofProgram (Token.normalize program) table = .ok graph) (names : List Text) :
    (session.run program).result = .error (.recursive names) ↔
      graph.recursiveNames = names ∧ names ≠ [] := by
  have checked := session.checkNesting_of_check nested
  unfold run
  simp only [checked, built, checkRecursion, rejects, if_true, drawn]
  cases found : graph.recursiveNames with
  | nil =>
    constructor
    · intro refused
      exact absurd refused (execute_result_ne_recursive _ _ names)
    · rintro ⟨rfl, named⟩
      exact absurd rfl named
  | cons name rest =>
    constructor
    · intro refused
      cases refused
      exact ⟨rfl, List.cons_ne_nil _ _⟩
    · rintro ⟨rfl, _⟩
      rfl

/-- The recursion check names what its graph makes of the program. -/
theorem run_rejects_refused (rejects : session.settings.rejectRecursion = true)
    (nested : Nesting.check (Token.normalize program) = .ok ())
    (built : FunctionTable.ofProgram (Token.normalize program) = .ok table)
    (main : (callNames (Token.normalize program)).fault = none)
    (functions : ∀ function ∈ table.functions, (callNames function.body).fault = none) :
    (session.run program).Rejects (table.Refused (Token.normalize program)) := by
  obtain ⟨graph, drawn⟩ := CallGraph.exists_ofProgram_iff.mpr ⟨main, functions⟩
  have refused := FunctionTable.mem_recursiveNames_iff drawn
  have raised := run_recursive_iff session rejects nested built drawn
  constructor
  · constructor
    · rintro ⟨names, error⟩
      obtain ⟨rfl, named⟩ := (raised names).mp error
      obtain ⟨name, member⟩ := List.exists_mem_of_ne_nil _ named
      exact ⟨name, (refused name).mp member⟩
    · rintro ⟨name, wanted⟩
      have named := List.ne_nil_of_mem ((refused name).mpr wanted)
      exact ⟨graph.recursiveNames, (raised _).mpr ⟨rfl, named⟩⟩
  · intro names error
    obtain ⟨rfl, _⟩ := (raised names).mp error
    refine ⟨?_, refused⟩
    have nodes := (CallGraph.ofProgram_eq_ok drawn).1.nodup
    exact (sortBy_perm _ _).nodup_iff.mpr (nodes.filter _)

/-- In all cases the check names what is refused; these are the recursive functions that the program
reaches exactly if the main program's node stands apart. -/
theorem run_rejects_recursive_iff (rejects : session.settings.rejectRecursion = true)
    (nested : Nesting.check (Token.normalize program) = .ok ())
    (built : FunctionTable.ofProgram (Token.normalize program) = .ok table)
    (main : (callNames (Token.normalize program)).fault = none)
    (functions : ∀ function ∈ table.functions, (callNames function.body).fault = none) :
    (session.run program).Rejects (table.Refused (Token.normalize program)) ∧
      ((session.run program).Rejects (table.Recursive (Token.normalize program)) ↔
        table.RootApart (Token.normalize program)) := by
  have refused := run_rejects_refused session rejects nested built main functions
  exact ⟨refused, refused.iff_of_rejects.trans FunctionTable.rootApart_iff.symm⟩

end Run

/-- A session on one cell, with at most five levels. -/
private def cellSession : Session :=
  ⟨{ maxDepth := 5 }, ⟨⟨[['.']]⟩, 0, 0, .up⟩, ⟨⟨[['.']]⟩, 0, 0, .up⟩, .empty, 450⟩

/-- Two functions that call each other are refused, and both are named. -/
theorem run_rejects_mutual_calls :
    let program := ["FUNCTION A".toList, "CALL B".toList, "ENDFUNCTION".toList,
      "FUNCTION B".toList, "CALL A".toList, "ENDFUNCTION".toList, "CALL A".toList]
    let table : FunctionTable :=
      ⟨[⟨"A".toList, [], ["CALL B".toList]⟩, ⟨"B".toList, [], ["CALL A".toList]⟩]⟩
    (cellSession.run program).result = .error (.recursive ["A".toList, "B".toList]) ∧
      (cellSession.run program).Rejects (table.Recursive (Token.normalize program)) := by
  intro program table
  have refused : (cellSession.run program).result = .error (.recursive ["A".toList, "B".toList]) := by
    decide +kernel
  have nested : Nesting.check (Token.normalize program) = .ok () := by decide +kernel
  have built : FunctionTable.ofProgram (Token.normalize program) = .ok table := by decide +kernel
  have main : (callNames (Token.normalize program)).fault = none := by decide +kernel
  have functions : ∀ function ∈ table.functions, (callNames function.body).fault = none := by
    decide +kernel
  have apart : table.RootApart (Token.normalize program) :=
    FunctionTable.rootApart_of_unused (by decide +kernel) (by decide +kernel)
  exact ⟨refused, (run_rejects_recursive_iff cellSession rfl nested built main functions).2.mpr apart⟩

/-- A function with the name of the main program's node calls itself and is not refused. -/
theorem run_misses_recursive_root :
    let program := ["FUNCTION <main>".toList, "CALL <main>".toList, "ENDFUNCTION".toList,
      "CALL <main>".toList]
    let table : FunctionTable := ⟨[⟨"<main>".toList, [], ["CALL <main>".toList]⟩]⟩
    FunctionTable.ofProgram (Token.normalize program) = .ok table ∧
      table.Recursive (Token.normalize program) "<main>".toList ∧
        (cellSession.run program).result = .error (.depth 5) ∧
          ¬ (cellSession.run program).Rejects (table.Recursive (Token.normalize program)) := by
  intro program table
  have built : FunctionTable.ofProgram (Token.normalize program) = .ok table := by decide +kernel
  have deep : (cellSession.run program).result = .error (.depth 5) := by decide +kernel
  have called : "<main>".toList ∈ (callNames (Token.normalize program)).names := by decide +kernel
  have edge : table.Calls "<main>".toList "<main>".toList :=
    ⟨_, List.mem_singleton_self _, rfl, by decide +kernel⟩
  have recursive : table.Recursive (Token.normalize program) "<main>".toList :=
    ⟨⟨"<main>".toList, called, .refl⟩, .single edge⟩
  refine ⟨built, recursive, deep, fun rejects => ?_⟩
  obtain ⟨names, refused⟩ := rejects.1.mpr ⟨_, recursive⟩
  rw [deep] at refused
  cases refused

end Session

end Lamplighter
