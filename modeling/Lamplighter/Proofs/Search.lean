import Lamplighter.CallGraph
import Mathlib.Algebra.BigOperators.Group.Finset.Piecewise
import Mathlib.Logic.Relation

/-! # The search through a call graph

The search marks exactly the nodes that its sources lead to. Its rounds suffice because a node is
expanded at most once: the pending nodes together with the edges of the nodes that are not marked yet
become fewer with every round. From this follows what the recursive nodes of a graph are: those other
than the main program that it reaches and that reach themselves by at least one call.
-/

namespace Lamplighter

namespace Walk

variable {successors : Nat → List Nat} {marks : Array Bool} {pending : List Nat}

def Leads (successors : Nat → List Nat) (node next : Nat) : Prop := next ∈ successors node

/-- The edges of the nodes that are not marked. -/
def unexplored (successors : Nat → List Nat) (marks : Array Bool) : Nat :=
  ∑ node ∈ Finset.range marks.size, if marked marks node then 0 else (successors node).length

theorem marked_replicate (size node : Nat) : marked (Array.replicate size false) node = false := by
  simp only [marked, Array.getD_eq_getD_getElem?, Array.getElem?_replicate]
  split_ifs <;> rfl

/-- Between two rounds: every number stands for a node, and an edge of a marked node leads to a node
that is marked or pending. -/
structure Searching (successors : Nat → List Nat) (marks : Array Bool) (pending : List Nat) : Prop where
  pending_lt : ∀ node ∈ pending, node < marks.size
  successors_lt : ∀ node < marks.size, ∀ next ∈ successors node, next < marks.size
  expanded : ∀ node, marked marks node → ∀ next ∈ successors node, marked marks next ∨ next ∈ pending

private theorem marked_mark {node : Nat} (bound : node < marks.size) (other : Nat) :
    marked (marks.setIfInBounds node true) other ↔ other = node ∨ marked marks other := by
  simp only [marked, Array.getD_eq_getD_getElem?, Array.getElem?_setIfInBounds]
  by_cases same : node = other
  · subst same
    simp [bound]
  · simp [same, Ne.symm same]

/-- Marking a node takes its edges off those that are left to explore. -/
private theorem unexplored_mark (successors : Nat → List Nat) {node : Nat} (bound : node < marks.size)
    (fresh : ¬ marked marks node) :
    unexplored successors marks =
      (successors node).length + unexplored successors (marks.setIfInBounds node true) := by
  have member : node ∈ Finset.range marks.size := Finset.mem_range.mpr bound
  have now : marked (marks.setIfInBounds node true) node := (marked_mark bound node).mpr (.inl rfl)
  simp only [unexplored, Array.size_setIfInBounds]
  rw [← Finset.add_sum_erase _ _ member, ← Finset.add_sum_erase _ _ member, if_neg fresh, if_pos now,
    Nat.zero_add]
  congr 1
  apply Finset.sum_congr rfl
  intro other elsewhere
  have different : other ≠ node := (Finset.mem_erase.mp elsewhere).1
  have same := marked_mark bound other
  simp only [different, false_or] at same
  simp only [same]

/-- A marked node that is pending again is dropped. -/
private theorem Searching.drop {node : Nat} (searching : Searching successors marks (node :: pending))
    (seen : marked marks node) : Searching successors marks pending where
  pending_lt := fun other member => searching.pending_lt other (List.mem_cons_of_mem _ member)
  successors_lt := searching.successors_lt
  expanded := by
    intro other known next edge
    rcases searching.expanded other known next edge with found | waiting
    · exact .inl found
    · rcases List.mem_cons.mp waiting with rfl | later
      · exact .inl seen
      · exact .inr later

/-- A fresh node is marked, and the nodes that it leads to become pending. -/
private theorem Searching.mark {node : Nat} (searching : Searching successors marks (node :: pending)) :
    Searching successors (marks.setIfInBounds node true) (successors node ++ pending) := by
  have bound := searching.pending_lt node List.mem_cons_self
  refine ⟨?_, ?_, ?_⟩
  · intro other member
    rw [Array.size_setIfInBounds]
    rcases List.mem_append.mp member with edge | later
    · exact searching.successors_lt node bound other edge
    · exact searching.pending_lt other (List.mem_cons_of_mem _ later)
  · intro other range next edge
    rw [Array.size_setIfInBounds] at range ⊢
    exact searching.successors_lt other range next edge
  · intro other known next edge
    rcases (marked_mark bound other).mp known with rfl | before
    · exact .inr (List.mem_append_left _ edge)
    · rcases searching.expanded other before next edge with found | waiting
      · exact .inl ((marked_mark bound next).mpr (.inr found))
      · rcases List.mem_cons.mp waiting with rfl | later
        · exact .inl ((marked_mark bound next).mpr (.inl rfl))
        · exact .inr (List.mem_append_right _ later)

/-- What a marked node leads to is marked, or a pending node leads to it. -/
private theorem Searching.leads (searching : Searching successors marks pending) {node target : Nat}
    (seen : marked marks node) (path : Relation.ReflTransGen (Leads successors) node target) :
    marked marks target ∨ ∃ source ∈ pending, Relation.ReflTransGen (Leads successors) source target := by
  induction path with
  | refl => exact .inl seen
  | @tail middle target _ edge ih =>
    rcases ih with known | ⟨source, waiting, path⟩
    · rcases searching.expanded middle known target edge with found | waiting
      · exact .inl found
      · exact .inr ⟨target, waiting, .refl⟩
    · exact .inr ⟨source, waiting, path.tail edge⟩

/-- The search marks what was marked before and what the pending nodes lead to, and nothing else. -/
theorem marked_explore_iff (searching : Searching successors marks pending) {rounds : Nat}
    (enough : pending.length + unexplored successors marks ≤ rounds) (target : Nat) :
    marked (explore successors rounds marks pending) target ↔
      marked marks target ∨
        ∃ source ∈ pending, Relation.ReflTransGen (Leads successors) source target := by
  induction rounds generalizing marks pending with
  | zero =>
    have idle : pending = [] := List.length_eq_zero_iff.mp (by omega)
    simp [explore, idle]
  | succ rounds ih =>
    cases pending with
    | nil => simp [explore]
    | cons node pending =>
      rw [List.length_cons] at enough
      by_cases seen : marked marks node
      · rw [explore, if_pos seen, ih (searching.drop seen) (by omega)]
        constructor
        · rintro (known | ⟨source, waiting, path⟩)
          · exact .inl known
          · exact .inr ⟨source, List.mem_cons_of_mem _ waiting, path⟩
        · rintro (known | ⟨source, waiting, path⟩)
          · exact .inl known
          · rcases List.mem_cons.mp waiting with rfl | later
            · exact (searching.drop seen).leads seen path
            · exact .inr ⟨source, later, path⟩
      · have bound := searching.pending_lt node List.mem_cons_self
        have fewer := unexplored_mark successors bound seen
        rw [explore, if_neg seen, ih searching.mark (by rw [List.length_append]; omega), marked_mark bound]
        constructor
        · rintro ((rfl | known) | ⟨source, waiting, path⟩)
          · exact .inr ⟨target, List.mem_cons_self, .refl⟩
          · exact .inl known
          · rcases List.mem_append.mp waiting with edge | later
            · exact .inr ⟨node, List.mem_cons_self, .head edge path⟩
            · exact .inr ⟨source, List.mem_cons_of_mem _ later, path⟩
        · rintro (known | ⟨source, waiting, path⟩)
          · exact .inl (.inr known)
          · rcases List.mem_cons.mp waiting with rfl | later
            · rcases Relation.ReflTransGen.cases_head path with rfl | ⟨next, edge, path⟩
              · exact .inl (.inl rfl)
              · exact .inr ⟨next, List.mem_append_left _ edge, path⟩
            · exact .inr ⟨source, List.mem_append_right _ later, path⟩

end Walk

namespace CallGraph

def Calls (graph : CallGraph) (caller callee : Text) : Prop := (caller, callee) ∈ graph.edges

/-- Each node stands once, the main program is a node, and edges lead from nodes to nodes. -/
structure WellFormed (graph : CallGraph) : Prop where
  nodup : graph.nodes.Nodup
  main : mainNode ∈ graph.nodes
  ends : ∀ {caller callee}, graph.Calls caller callee → caller ∈ graph.nodes ∧ callee ∈ graph.nodes

variable {graph : CallGraph}

theorem mem_successors_iff (caller callee : Text) :
    callee ∈ graph.successors caller ↔ graph.Calls caller callee := by
  simp [successors, Calls]

private theorem number_lt {node : Text} (member : node ∈ graph.nodes) :
    graph.number node < graph.nodes.length := List.idxOf_lt_length_iff.mpr member

private theorem number_injective {node other : Text} (member : node ∈ graph.nodes)
    (same : graph.number node = graph.number other) : node = other :=
  List.idxOf_inj member |>.mp same

/-- The table lists, under the number of a node, the numbers of the nodes that it calls. -/
private theorem successorTable_number {node : Text} (member : node ∈ graph.nodes) :
    graph.successorTable.getD (graph.number node) [] = (graph.successors node).map graph.number := by
  have bound := number_lt member
  have here : graph.nodes[graph.number node]? = some node := List.getElem?_idxOf member
  simp [successorTable, Array.getD_eq_getD_getElem?, here]

private theorem exists_number {place : Nat} (nodup : graph.nodes.Nodup) (bound : place < graph.nodes.length) :
    ∃ node ∈ graph.nodes, graph.number node = place :=
  ⟨graph.nodes[place], List.getElem_mem bound, nodup.idxOf_getElem place bound⟩

/-- The table's edges between numbers are the graph's edges between nodes. -/
private theorem leads_number_iff {node : Text} (member : node ∈ graph.nodes) (place : Nat) :
    Walk.Leads (fun number => graph.successorTable.getD number []) (graph.number node) place ↔
      ∃ callee, graph.Calls node callee ∧ graph.number callee = place := by
  simp only [Walk.Leads, successorTable_number member, List.mem_map, mem_successors_iff]

/-- Paths between numbers are paths between nodes. -/
private theorem path_number_iff (wellFormed : graph.WellFormed) {source : Text}
    (start : source ∈ graph.nodes) (target : Text) :
    Relation.ReflTransGen (Walk.Leads fun number => graph.successorTable.getD number [])
        (graph.number source) (graph.number target) ↔
      Relation.ReflTransGen graph.Calls source target := by
  constructor
  · intro path
    have ends : ∀ place, Relation.ReflTransGen
        (Walk.Leads fun number => graph.successorTable.getD number []) (graph.number source) place →
          ∃ node ∈ graph.nodes, graph.number node = place ∧ Relation.ReflTransGen graph.Calls source node := by
      intro place path
      induction path with
      | refl => exact ⟨source, start, rfl, .refl⟩
      | tail _ edge ih =>
        obtain ⟨node, member, rfl, path⟩ := ih
        obtain ⟨callee, calls, rfl⟩ := (leads_number_iff member _).mp edge
        exact ⟨callee, (wellFormed.ends calls).2, rfl, path.tail calls⟩
    obtain ⟨node, member, same, path⟩ := ends _ path
    rwa [number_injective member same] at path
  · intro path
    refine path.lift graph.number fun caller callee calls => ?_
    exact (leads_number_iff (wellFormed.ends calls).1 _).mpr ⟨callee, calls, rfl⟩

/-- Counting items by a number of theirs counts each of them at most once. -/
private theorem sum_countP_le {α : Type} (items : List α) (number : α → Nat) (bound : Nat) :
    ∑ place ∈ Finset.range bound, items.countP (number · == place) ≤ items.length := by
  induction items with
  | nil => simp
  | cons item rest ih =>
    have once : (∑ place ∈ Finset.range bound, if number item = place then 1 else 0) ≤ 1 := by
      rw [Finset.sum_ite_eq]
      split_ifs <;> simp
    simp only [List.countP_cons, beq_iff_eq, Finset.sum_add_distrib, List.length_cons]
    exact Nat.add_le_add ih once

/-- At the start of a search no more edges are left to explore than the graph has. -/
private theorem unexplored_le (wellFormed : graph.WellFormed) :
    Walk.unexplored (fun number => graph.successorTable.getD number [])
      (Array.replicate graph.nodes.length false) ≤ graph.edges.length := by
  refine le_trans (le_of_eq ?_)
    (sum_countP_le graph.edges (fun edge => graph.number edge.1) graph.nodes.length)
  unfold Walk.unexplored
  rw [Array.size_replicate]
  refine Finset.sum_congr rfl fun place range => ?_
  obtain ⟨node, member, rfl⟩ := exists_number wellFormed.nodup (Finset.mem_range.mp range)
  simp only [Walk.marked_replicate, Bool.false_eq_true, if_false, successorTable_number member, successors,
    List.length_map, ← List.countP_eq_length_filter]
  refine List.countP_congr fun edge listed => ?_
  simp only [beq_iff_eq]
  exact ⟨fun same => congrArg graph.number same,
    fun same => (number_injective member same.symm).symm⟩

/-- Some of the given nodes lead to a node exactly if the search from them marks it. -/
private theorem marked_reach_iff (wellFormed : graph.WellFormed) {sources : List Text}
    (known : ∀ source ∈ sources, source ∈ graph.nodes) (target : Text) :
    Walk.marked (graph.reach graph.successorTable (sources.map graph.number)) (graph.number target) ↔
      ∃ source ∈ sources, Relation.ReflTransGen graph.Calls source target := by
  have searching : Walk.Searching (fun number => graph.successorTable.getD number [])
      (Array.replicate graph.nodes.length false) (sources.map graph.number) := by
    refine ⟨?_, ?_, ?_⟩
    · intro place member
      obtain ⟨source, listed, rfl⟩ := List.mem_map.mp member
      rw [Array.size_replicate]
      exact number_lt (known source listed)
    · intro place range next edge
      rw [Array.size_replicate] at range ⊢
      obtain ⟨node, member, rfl⟩ := exists_number wellFormed.nodup range
      obtain ⟨callee, calls, rfl⟩ := (leads_number_iff member next).mp edge
      exact number_lt (wellFormed.ends calls).2
    · intro place marked
      rw [Walk.marked_replicate] at marked
      cases marked
  have enough := Nat.add_le_add_left (unexplored_le wellFormed) (sources.map graph.number).length
  rw [List.length_map] at enough
  rw [reach, List.length_map, Walk.marked_explore_iff searching (by simpa using enough)]
  constructor
  · rintro (marked | ⟨place, member, path⟩)
    · rw [Walk.marked_replicate] at marked
      cases marked
    · obtain ⟨source, listed, rfl⟩ := List.mem_map.mp member
      exact ⟨source, listed, (path_number_iff wellFormed (known source listed) target).mp path⟩
  · rintro ⟨source, listed, path⟩
    exact .inr ⟨_, List.mem_map_of_mem listed, (path_number_iff wellFormed (known source listed) target).mpr path⟩

/-- The recursive nodes are those other than the main program that it reaches and that lie on a cycle
of calls. -/
theorem mem_recursiveNodes_iff (wellFormed : graph.WellFormed) (name : Text) :
    name ∈ graph.recursiveNodes ↔
      name ≠ mainNode ∧ Relation.ReflTransGen graph.Calls mainNode name ∧
        Relation.TransGen graph.Calls name name := by
  have called : ∀ callee ∈ graph.successors name, callee ∈ graph.nodes := fun callee listed =>
    (wellFormed.ends ((mem_successors_iff name callee).mp listed)).2
  have main : ∀ source ∈ [mainNode], source ∈ graph.nodes := by simp [wellFormed.main]
  have reached := marked_reach_iff wellFormed main name
  have cycle := marked_reach_iff wellFormed called name
  simp only [List.map_cons, List.map_nil, List.mem_singleton, exists_eq_left] at reached
  simp only [mem_successors_iff, ← Relation.TransGen.head'_iff] at cycle
  simp only [recursiveNodes, List.mem_filter, Bool.and_eq_true, bne_iff_ne, reached]
  constructor
  · rintro ⟨member, ⟨other, path⟩, marked⟩
    rw [successorTable_number member] at marked
    exact ⟨other, path, cycle.mp marked⟩
  · rintro ⟨other, path, loop⟩
    obtain ⟨callee, calls, _⟩ := Relation.TransGen.head'_iff.mp loop
    have member := (wellFormed.ends calls).1
    rw [successorTable_number member]
    exact ⟨member, ⟨other, path⟩, cycle.mpr loop⟩

end CallGraph

end Lamplighter
