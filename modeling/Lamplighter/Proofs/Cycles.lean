import Lamplighter.Proofs.Recursion
import Mathlib.Data.Set.Subsingleton

/-! # Cycles and components of call graphs

The recursive functions of a call graph can be found in two ways. One looks at each node that the main
program reaches and asks whether it reaches itself. The other cuts the graph down to the reachable nodes,
divides these into strongly connected components and takes the components with more than one node, and the
nodes that call themselves. Both give the same functions, in every graph.
-/

namespace Lamplighter

namespace CallGraph

open Relation (ReflTransGen TransGen)

/-- The main program is or leads to a node. -/
def Reachable (graph : CallGraph) (node : Text) : Prop := ReflTransGen graph.Calls mainNode node

/-- One reachable node calls another. -/
def LiveCalls (graph : CallGraph) (caller callee : Text) : Prop :=
  graph.Calls caller callee ∧ graph.Reachable caller ∧ graph.Reachable callee

/-- Two nodes lead to each other among the reachable nodes. -/
def Connected (graph : CallGraph) (node other : Text) : Prop :=
  ReflTransGen graph.LiveCalls node other ∧ ReflTransGen graph.LiveCalls other node

/-- A strongly connected component of the graph that is cut down to the reachable nodes: each of its members
is connected to exactly the members. -/
structure IsComponent (graph : CallGraph) (component : Set Text) : Prop where
  nonempty : component.Nonempty
  reachable : ∀ node ∈ component, graph.Reachable node
  mem_iff : ∀ node ∈ component, ∀ other, other ∈ component ↔ graph.Connected node other

variable {graph : CallGraph} {node other third : Text}

namespace Connected

theorem refl (graph : CallGraph) (node : Text) : graph.Connected node node := ⟨.refl, .refl⟩

theorem symm (connected : graph.Connected node other) : graph.Connected other node :=
  ⟨connected.2, connected.1⟩

theorem trans (first : graph.Connected node other) (second : graph.Connected other third) :
    graph.Connected node third :=
  ⟨first.1.trans second.1, second.2.trans first.2⟩

theorem calls (connected : graph.Connected node other) : ReflTransGen graph.Calls node other :=
  connected.1.lift id fun _ _ live => live.1

theorem reachable (connected : graph.Connected node other) (reachable : graph.Reachable node) :
    graph.Reachable other := reachable.trans connected.calls

end Connected

/-- What a reachable node leads to, it leads to among the reachable nodes. -/
theorem Reachable.live_path (reachable : graph.Reachable node) (path : ReflTransGen graph.Calls node other) :
    ReflTransGen graph.LiveCalls node other := by
  induction path with
  | refl => exact .refl
  | tail before calls ih =>
    have reached := reachable.trans before
    exact ih.tail ⟨calls, reached, reached.tail calls⟩

/-- A reachable node and all nodes that it is connected to. -/
theorem Reachable.isComponent (reachable : graph.Reachable node) :
    graph.IsComponent {other | graph.Connected node other} where
  nonempty := ⟨node, .refl graph node⟩
  reachable _ connected := connected.reachable reachable
  mem_iff _ connected _ := ⟨connected.symm.trans, connected.trans⟩

/-- A node in a component with more than one node is reachable and leads back to itself. -/
theorem IsComponent.cycle {component : Set Text} (strong : graph.IsComponent component)
    (several : component.Nontrivial) (member : node ∈ component) :
    graph.Reachable node ∧ TransGen graph.Calls node node := by
  obtain ⟨other, found, differs⟩ := several.exists_ne node
  have connected := (strong.mem_iff node member other).mp found
  refine ⟨strong.reachable node member, ?_⟩
  rcases Relation.reflTransGen_iff_eq_or_transGen.mp connected.calls with same | path
  · exact absurd same differs
  · exact path.trans_left connected.symm.calls

/-- A reachable node leads back to itself if it stands in a component with more than one node or calls
itself, and in no other case. -/
theorem cycle_iff_component :
    graph.Reachable node ∧ TransGen graph.Calls node node ↔
      (∃ component, graph.IsComponent component ∧ component.Nontrivial ∧ node ∈ component) ∨
        graph.LiveCalls node node := by
  constructor
  · rintro ⟨reachable, cycle⟩
    obtain ⟨next, calls, back⟩ := Relation.TransGen.head'_iff.mp cycle
    by_cases same : next = node
    · subst same
      exact .inr ⟨calls, reachable, reachable⟩
    · have onward : graph.Connected node next :=
        ⟨reachable.live_path (.single calls), Reachable.live_path (reachable.tail calls) back⟩
      refine .inl ⟨_, reachable.isComponent, ⟨node, .refl graph node, next, onward, ?_⟩, .refl graph node⟩
      exact Ne.symm same
  · rintro (⟨component, strong, several, member⟩ | ⟨calls, reachable, _⟩)
    · exact strong.cycle several member
    · exact ⟨reachable, .single calls⟩

/-- The recursive functions of a graph, each listed once: the nodes other than the main program's that it
reaches and that lead back to themselves. These are the nodes in components with more than one node and the
nodes that call themselves, after the graph is cut down to the reachable nodes. -/
theorem recursiveNames_exact (graph : CallGraph) (wellFormed : graph.WellFormed) :
    graph.recursiveNames.Nodup ∧
      (∀ name, name ∈ graph.recursiveNames ↔
        name ∈ graph.nodes ∧ name ≠ mainNode ∧ ReflTransGen graph.Calls mainNode name ∧
          TransGen graph.Calls name name) ∧
      ∀ name, name ∈ graph.recursiveNames ↔
        name ≠ mainNode ∧
          ((∃ component, graph.IsComponent component ∧ component.Nontrivial ∧ name ∈ component) ∨
            graph.LiveCalls name name) := by
  have sorted := sortBy_perm Text.le graph.recursiveNodes
  have listed (name : Text) := sorted.mem_iff.trans (mem_recursiveNodes_iff wellFormed name)
  refine ⟨sorted.nodup_iff.mpr (wellFormed.nodup.filter _), fun name => ?_, fun name => ?_⟩
  · refine (listed name).trans ⟨fun found => ⟨?_, found⟩, And.right⟩
    obtain ⟨_, calls, _⟩ := Relation.TransGen.head'_iff.mp found.2.2
    exact (wellFormed.ends calls).1
  · exact (listed name).trans (and_congr_right fun _ => cycle_iff_component)

/-- Two functions that call each other and the main program, one that calls itself, one that calls nothing,
and two that call each other and are never called. -/
private def tangled : CallGraph where
  nodes := [mainNode, "A".toList, "B".toList, "C".toList, "D".toList, "E".toList, "F".toList]
  edges := [(mainNode, "A".toList), ("A".toList, "B".toList), ("B".toList, "A".toList),
    ("B".toList, mainNode), ("B".toList, "C".toList), ("C".toList, "C".toList), ("C".toList, "D".toList),
    ("E".toList, "F".toList), ("F".toList, "E".toList), ("F".toList, "A".toList)]

/-- The functions on reachable cycles are listed; a cycle that is not listed is not reachable. -/
theorem recursiveNames_exact_of_tangled :
    tangled.WellFormed ∧ tangled.recursiveNames = ["A".toList, "B".toList, "C".toList] ∧
      TransGen tangled.Calls "B".toList "B".toList ∧ ¬ tangled.LiveCalls "D".toList "D".toList ∧
        TransGen tangled.Calls "E".toList "E".toList ∧ ¬ tangled.Reachable "E".toList := by
  have ends : ∀ edge ∈ tangled.edges, edge.1 ∈ tangled.nodes ∧ edge.2 ∈ tangled.nodes := by decide +kernel
  have wellFormed : tangled.WellFormed :=
    ⟨by decide +kernel, by decide +kernel, fun calls => ends _ calls⟩
  have names : tangled.recursiveNames = ["A".toList, "B".toList, "C".toList] := by decide +kernel
  have member : "E".toList ∈ tangled.nodes := by decide +kernel
  have there : tangled.Calls "E".toList "F".toList := by
    unfold Calls
    decide +kernel
  have back : tangled.Calls "F".toList "E".toList := by
    unfold Calls
    decide +kernel
  have apart : TransGen tangled.Calls "E".toList "E".toList := .tail (.single there) back
  obtain ⟨_, byPaths, byComponents⟩ := recursiveNames_exact tangled wellFormed
  rw [names] at byPaths byComponents
  refine ⟨wellFormed, names, ((byPaths "B".toList).mp (by decide)).2.2.2, fun calls => ?_, apart,
    fun reachable => ?_⟩
  · exact absurd ((byComponents "D".toList).mpr ⟨by decide, .inr calls⟩) (by decide)
  · exact absurd ((byPaths "E".toList).mpr ⟨member, by decide, reachable, apart⟩) (by decide)

end CallGraph

end Lamplighter
