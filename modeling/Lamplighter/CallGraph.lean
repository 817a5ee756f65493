import Lamplighter.CallGraph.Scan
import Lamplighter.FunctionTable

/-! # Call graphs

The nodes of a call graph are the main program, the functions and whatever else is called; an edge
leads from a caller to a callee. A function is recursive if the main program reaches it and it
reaches itself by at least one call. The main program is no function, so its node is never named,
even where a function of that name shares it.
-/

namespace Lamplighter

/-- Callers and callees. -/
structure CallGraph where
  nodes : List Text
  edges : List (Text × Text)
deriving DecidableEq, Repr

namespace CallGraph

def mainNode : Text := "<main>".toList

/-- The graph with a node that it may already have. -/
def addNode (graph : CallGraph) (node : Text) : CallGraph :=
  if node ∈ graph.nodes then graph else { graph with nodes := graph.nodes ++ [node] }

/-- The graph with an edge that it may already have, and the nodes at its ends. -/
def addEdge (graph : CallGraph) (caller callee : Text) : CallGraph :=
  let graph := (graph.addNode caller).addNode callee
  if (caller, callee) ∈ graph.edges then graph
  else { graph with edges := graph.edges ++ [(caller, callee)] }

/-- The graph with the calls that one caller's tokens make. -/
def addCalls (graph : CallGraph) (caller : Text) (tokens : List Token) : Except Malformed CallGraph :=
  (callNames tokens).toExcept.map fun callees =>
    callees.foldl (fun graph callee => graph.addEdge caller callee) graph

def ofNames (names : List Text) : CallGraph := names.foldl addNode ⟨[mainNode], []⟩

/-- The calls of a program and of the functions in a table. -/
def ofProgram (program : List Token) (table : FunctionTable) : Except Malformed CallGraph := do
  let graph ← (ofNames table.names).addCalls mainNode program
  table.functions.foldlM (fun graph function => graph.addCalls function.name function.body) graph

def sortedNodes (graph : CallGraph) : List Text := Text.sort graph.nodes

/-- The edges in ascending order, by caller first. -/
def sortedEdges (graph : CallGraph) : List (Text × Text) :=
  sortBy (fun a b => if a.1 = b.1 then Text.le a.2 b.2 else Text.le a.1 b.1) graph.edges

def successors (graph : CallGraph) (node : Text) : List Text :=
  (graph.edges.filter fun edge => edge.1 == node).map Prod.snd

/-- The place of a node in the list of nodes. -/
def number (graph : CallGraph) (node : Text) : Nat := graph.nodes.idxOf node

/-- For every node the numbers of the nodes that it calls, in the order of the nodes. -/
def successorTable (graph : CallGraph) : Array (List Nat) :=
  (graph.nodes.map fun node => (graph.successors node).map graph.number).toArray

end CallGraph

namespace Walk

def marked (marks : Array Bool) (node : Nat) : Bool := marks.getD node false

/-- Marks the pending nodes and all nodes that they lead to. Each round takes one pending node; with
as many rounds as there are pending nodes and edges, none is left at the end. -/
def explore (successors : Nat → List Nat) :
    (rounds : Nat) → (marks : Array Bool) → (pending : List Nat) → Array Bool
  | 0, marks, _ => marks
  | _, marks, [] => marks
  | rounds + 1, marks, node :: pending =>
    if marked marks node then explore successors rounds marks pending
    else explore successors rounds (marks.setIfInBounds node true) (successors node ++ pending)

end Walk

namespace CallGraph

/-- The nodes that the given ones lead to, themselves included, as marks on the numbers of nodes. -/
def reach (graph : CallGraph) (table : Array (List Nat)) (sources : List Nat) : Array Bool :=
  Walk.explore (fun node => table.getD node []) (sources.length + graph.edges.length)
    (Array.replicate graph.nodes.length false) sources

/-- The functions that the main program reaches and that reach themselves, in the order of the
nodes. -/
def recursiveNodes (graph : CallGraph) : List Text :=
  let table := graph.successorTable
  let reachable := graph.reach table [graph.number mainNode]
  graph.nodes.filter fun node =>
    let number := graph.number node
    node != mainNode && Walk.marked reachable number
      && Walk.marked (graph.reach table (table.getD number [])) number

def recursiveNames (graph : CallGraph) : List Text := Text.sort graph.recursiveNodes

end CallGraph

end Lamplighter
