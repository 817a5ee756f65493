import Lamplighter.Proofs.Substitution
import Mathlib.Algebra.GroupWithZero.Nat

/-! # Calls and bodies of a nested program

In a forest the calls that may be made stand outside its definitions and outside the loops that cannot
run. Where the scan for calls has no fault it finds every one of them. The bodies that a table takes from
a forest are forests again, written apart from each other and from what stands outside all definitions,
so their sizes add up to no more than that of the forest.
-/

namespace Lamplighter

namespace Forest

/-- The calls outside definitions and outside loops that cannot run. -/
def liveCalls : Forest → List Token
  | nil => []
  | leaf token _ rest => if token.kind = .call then token :: rest.liveCalls else rest.liveCalls
  | node .definition _ _ _ rest => rest.liveCalls
  | node .loop opener _ body rest =>
    if opener.mayLoop then body.liveCalls ++ rest.liveCalls else rest.liveCalls

/-- The number of tokens outside definitions. -/
def weight : Forest → Nat
  | nil => 0
  | leaf _ _ rest => rest.weight + 1
  | node .definition _ _ _ rest => rest.weight
  | node .loop _ _ body rest => body.weight + rest.weight + 2

theorem weight_le_size (forest : Forest) : forest.weight ≤ forest.size := by
  induction forest with
  | nil => exact Nat.le_refl _
  | leaf token plain rest ih =>
    rw [size_leaf, weight]
    omega
  | node scope opener opens body rest bodyIh restIh =>
    rw [size_node]
    cases scope with
    | definition =>
      rw [weight]
      omega
    | loop =>
      rw [weight]
      omega

/-- A forest with arguments put in: the same scopes and leaves, each token an instance of the one that is
written. -/
inductive Instance : Forest → Forest → Prop where
  | nil : Instance .nil .nil
  | leaf {written token : Token} {plain : written.IsLeaf} {leaf : token.IsLeaf} {rest row : Forest}
      (head : written.Instance token) (tail : Instance rest row) :
      Instance (.leaf written plain rest) (.leaf token leaf row)
  | node {scope : Scope} {written token : Token} {opens : written.kind = .opens scope}
      {opener : token.kind = .opens scope} {body rest inner row : Forest} (head : written.Instance token)
      (inside : Instance body inner) (tail : Instance rest row) :
      Instance (.node scope written opens body rest) (.node scope token opener inner row)

theorem Instance.refl (forest : Forest) : Instance forest forest := by
  induction forest with
  | nil => exact .nil
  | leaf token plain rest ih => exact .leaf (.refl token) ih
  | node scope opener opens body rest bodyIh restIh => exact .node (.refl opener) bodyIh restIh

/-- Instances of the tokens of a flat forest are the tokens of an instance. -/
theorem exists_instance (forest : Forest) (change : Token → Token)
    (follows : ∀ token ∈ forest.flatten, token.Instance (change token)) :
    ∃ changed, Instance forest changed ∧ changed.flatten = forest.flatten.map change := by
  induction forest with
  | nil => exact ⟨.nil, .nil, rfl⟩
  | leaf token plain rest ih =>
    have head := follows token List.mem_cons_self
    obtain ⟨row, tail, flat⟩ := ih fun other member => follows other (List.mem_cons_of_mem _ member)
    have leaf : (change token).IsLeaf := by
      intro scope
      rw [head.kind]
      exact plain scope
    refine ⟨.leaf (change token) leaf row, .leaf head tail, ?_⟩
    rw [flatten, flatten, flat, List.map_cons]
  | node scope opener opens body rest bodyIh restIh =>
    simp only [flatten, List.mem_cons, List.mem_append] at follows
    have head := follows opener (.inl rfl)
    obtain ⟨inner, inside, flatBody⟩ := bodyIh fun token member => follows token (.inr (.inl member))
    obtain ⟨row, tail, flatRest⟩ := restIh fun token member => follows token (.inr (.inr (.inr member)))
    have closer : change scope.closer = scope.closer := by
      rw [← Token.kind_eq_closes_iff, (follows scope.closer (.inr (.inr (.inl rfl)))).kind, Token.kind_closer]
    refine ⟨.node scope (change opener) (head.kind.trans opens) inner row, .node head inside tail, ?_⟩
    rw [flatten, flatten, flatBody, flatRest, List.map_cons, List.map_append, List.map_cons, closer]

end Forest

section Scan

theorem callNamesFrom_skip (skip index : Nat) (tokens : List Token) :
    callNamesFrom skip index tokens = callNamesFrom 0 (index + skip) (tokens.drop skip) := by
  induction skip generalizing index tokens with
  | zero => simp
  | succ skip ih =>
    cases tokens with
    | nil => simp [callNamesFrom]
    | cons token rest => rw [callNamesFrom, ih, List.drop_succ_cons, Nat.add_right_comm, Nat.add_assoc]

section Steps

variable (index : Nat) {token : Token} (tokens : List Token)

theorem callNamesFrom_pass (definition : token.kind ≠ .opens .definition) (loop : token.kind ≠ .opens .loop)
    (call : token.kind ≠ .call) :
    callNamesFrom 0 index (token :: tokens) = callNamesFrom 0 (index + 1) tokens := by
  rw [callNamesFrom]
  split
  · exact absurd ‹_› definition
  · exact absurd ‹_› loop
  · exact absurd ‹_› call
  · rfl

theorem callNamesFrom_call_of_ok {signature : Signature} (calls : token.kind = .call)
    (read : Signature.readAt Token.callWord token index = .ok signature) :
    callNamesFrom 0 index (token :: tokens) = (callNamesFrom 0 (index + 1) tokens).cons signature.name := by
  rw [callNamesFrom]
  simp only [calls, read]

theorem callNamesFrom_call_of_error {malformed : Malformed} (calls : token.kind = .call)
    (unread : Signature.readAt Token.callWord token index = .error malformed) :
    callNamesFrom 0 index (token :: tokens) = ⟨[], some malformed⟩ := by
  rw [callNamesFrom]
  simp only [calls, unread]

theorem callNamesFrom_definition (opens : token.kind = .opens .definition) (body : Forest) :
    callNamesFrom 0 index (token :: (body.flatten ++ Scope.definition.closer :: tokens)) =
      callNamesFrom 0 (index + body.size + 2) tokens := by
  rw [callNamesFrom]
  simp only [opens]
  rw [callNamesFrom_skip, Scope.drop_size_flatten, Scope.size_flatten]
  congr 1
  omega

/-- A loop that may run is scanned like the tokens around it, and any other one is left out. -/
theorem callNamesFrom_loop (opens : token.kind = .opens .loop) (body : Forest) :
    callNamesFrom 0 index (token :: (body.flatten ++ Scope.loop.closer :: tokens)) =
      if token.mayLoop then
        callNamesFrom 0 (index + 1) (body.flatten ++ Scope.loop.closer :: tokens)
      else callNamesFrom 0 (index + body.size + 2) tokens := by
  rw [callNamesFrom]
  simp only [opens]
  rw [callNamesFrom_skip (_ + 1), Scope.drop_size_flatten, Scope.size_flatten]
  congr 2
  omega

end Steps

/-- The given calls can be read and are scanned, and so is whatever the scan of the later tokens finds. -/
private structure Scanned (scan : CallScan) (calls : List Token) (later : CallScan) : Prop where
  calls : ∀ token ∈ calls, ∃ signature, Signature.read Token.callWord token = .ok signature ∧
    signature.name ∈ scan.names
  clear : later.fault = none
  names : later.names ⊆ scan.names

private theorem Scanned.append {scan middle later : CallScan} {first second : List Token}
    (scanned : Scanned scan first middle) (after : Scanned middle second later) :
    Scanned scan (first ++ second) later := by
  refine ⟨fun token member => ?_, after.clear, fun name listed => scanned.names (after.names listed)⟩
  rcases List.mem_append.mp member with early | late
  · exact scanned.calls token early
  · obtain ⟨signature, read, listed⟩ := after.calls token late
    exact ⟨signature, read, scanned.names listed⟩

private theorem scanned_flatten {forest : Forest} {index : Nat} {tokens : List Token}
    (clear : (callNamesFrom 0 index (forest.flatten ++ tokens)).fault = none) :
    Scanned (callNamesFrom 0 index (forest.flatten ++ tokens)) forest.liveCalls
      (callNamesFrom 0 (index + forest.size) tokens) := by
  induction forest generalizing index tokens with
  | nil => exact ⟨fun token member => absurd member List.not_mem_nil, clear, fun name listed => listed⟩
  | leaf token plain rest ih =>
    rw [Forest.flatten, List.cons_append] at clear ⊢
    rw [Forest.size_leaf, Nat.add_comm rest.size, ← Nat.add_assoc, Forest.liveCalls]
    split_ifs with calls
    · cases read : Signature.readAt Token.callWord token index with
      | error malformed =>
        rw [callNamesFrom_call_of_error _ _ calls read] at clear
        cases clear
      | ok signature =>
        rw [callNamesFrom_call_of_ok _ _ calls read] at clear ⊢
        have single : Scanned ((callNamesFrom 0 (index + 1) (rest.flatten ++ tokens)).cons signature.name)
            [token] (callNamesFrom 0 (index + 1) (rest.flatten ++ tokens)) := by
          refine ⟨fun other member => ?_, clear, fun name listed => List.mem_cons_of_mem _ listed⟩
          rw [List.mem_singleton.mp member]
          exact ⟨signature, Problem.locate_eq_ok_iff.mp read, List.mem_cons_self⟩
        exact single.append (ih clear)
    · rw [callNamesFrom_pass _ _ (plain _).1 (plain _).1 calls] at clear ⊢
      exact ih clear
  | node scope opener opens body rest bodyIh restIh =>
    simp only [Forest.flatten, List.cons_append, List.append_assoc] at clear ⊢
    rw [Forest.add_size_node]
    cases scope with
    | definition =>
      rw [callNamesFrom_definition _ _ opens] at clear ⊢
      exact restIh clear
    | loop =>
      rw [callNamesFrom_loop _ _ opens] at clear ⊢
      rw [Forest.liveCalls]
      split_ifs at clear ⊢
      · have inside := bodyIh clear
        rw [callNamesFrom_pass _ _ (by simp) (by simp) (by simp)] at inside
        have next : index + 1 + body.size + 1 = index + body.size + 2 := by omega
        rw [next] at inside
        exact inside.append (restIh inside.clear)
      · exact restIh clear

/-- A scan without a fault reads every live call of a flat forest. -/
theorem exists_read_of_liveCalls {forest : Forest} (clear : (callNames forest.flatten).fault = none)
    {token : Token} (live : token ∈ forest.liveCalls) :
    ∃ signature, Signature.read Token.callWord token = .ok signature ∧
      signature.name ∈ (callNames forest.flatten).names := by
  rw [callNames, ← List.append_nil forest.flatten] at clear ⊢
  exact (scanned_flatten clear).calls token live

end Scan

namespace FunctionTable

/-- The number of tokens in all bodies together. -/
def total (table : FunctionTable) : Nat := (table.functions.map fun function => function.body.length).sum

theorem mem_insert {table : FunctionTable} {function other : FunctionDef}
    (member : other ∈ (table.insert function).functions) : other = function ∨ other ∈ table.functions := by
  rcases table with ⟨functions⟩
  simp only [insert] at member ⊢
  induction functions with
  | nil => exact .inl (List.mem_singleton.mp member)
  | cons first rest ih =>
    rw [insertInto] at member
    split_ifs at member
    · exact (List.mem_cons.mp member).imp_right (List.mem_cons_of_mem first)
    · rcases List.mem_cons.mp member with rfl | later
      · exact .inr List.mem_cons_self
      · exact (ih later).imp_right (List.mem_cons_of_mem first)

theorem total_insert_le (table : FunctionTable) (function : FunctionDef) :
    (table.insert function).total ≤ table.total + function.body.length := by
  rcases table with ⟨functions⟩
  simp only [insert, total]
  induction functions with
  | nil => simp [insertInto]
  | cons first rest ih =>
    rw [insertInto]
    split_ifs
    · simp only [List.map_cons, List.sum_cons]
      omega
    · simp only [List.map_cons, List.sum_cons]
      omega

theorem collect_skip (skip index : Nat) (tokens : List Token) (table : FunctionTable) :
    collect skip index tokens table = collect 0 (index + skip) (tokens.drop skip) table := by
  induction skip generalizing index tokens with
  | zero => simp
  | succ skip ih =>
    cases tokens with
    | nil => simp [collect]
    | cons token rest => rw [collect, ih, List.drop_succ_cons, Nat.add_right_comm, Nat.add_assoc]

/-- A flat forest in front adds functions with flat forests as bodies, which take up no more tokens than
its definitions do. -/
private theorem collect_flatten {forest : Forest} {index : Nat} {tokens : List Token}
    {table built : FunctionTable} (collected : collect 0 index (forest.flatten ++ tokens) table = .ok built) :
    ∃ middle : FunctionTable, collect 0 (index + forest.size) tokens middle = .ok built ∧
      (∀ function ∈ middle.functions, function ∈ table.functions ∨
        ∃ body : Forest, body.flatten = function.body) ∧
      forest.weight + middle.total ≤ table.total + forest.size := by
  induction forest generalizing index tokens table with
  | nil => exact ⟨table, collected, fun function member => .inl member, by simp [Forest.weight]⟩
  | leaf token plain rest ih =>
    rw [Forest.flatten, List.cons_append, collect, if_neg (plain _).1] at collected
    obtain ⟨middle, later, bodies, bound⟩ := ih collected
    rw [Forest.size_leaf, Forest.weight]
    refine ⟨middle, ?_, bodies, by omega⟩
    rw [← later]
    congr 1
    omega
  | node scope opener opens body rest bodyIh restIh =>
    simp only [Forest.flatten, List.cons_append, List.append_assoc] at collected
    rw [Forest.add_size_node, Forest.size_node]
    cases scope with
    | definition =>
      rw [collect, if_pos opens] at collected
      split at collected
      · cases collected
      · rename_i signature read
        rw [collect_skip, Scope.drop_size_flatten, Scope.size_flatten, Scope.body_flatten] at collected
        have next : index + 1 + (body.size + 1) = index + body.size + 2 := by omega
        rw [next] at collected
        obtain ⟨middle, later, bodies, bound⟩ := restIh collected
        have grown := table.total_insert_le ⟨signature.name, signature.operands, body.flatten⟩
        refine ⟨middle, later, fun function member => ?_, ?_⟩
        · rcases bodies function member with known | flat
          · rcases mem_insert known with rfl | known
            · exact .inr ⟨body, rfl⟩
            · exact .inl known
          · exact .inr flat
        · rw [Forest.weight]
          change _ ≤ _ + body.size at grown
          omega
    | loop =>
      rw [collect, if_neg (by simp [opens])] at collected
      obtain ⟨inner, inside, innerBodies, innerBound⟩ := bodyIh collected
      rw [collect, if_neg (by simp)] at inside
      have next : index + 1 + body.size + 1 = index + body.size + 2 := by omega
      rw [next] at inside
      obtain ⟨middle, later, bodies, bound⟩ := restIh inside
      refine ⟨middle, later, fun function member => ?_, ?_⟩
      · rcases bodies function member with known | flat
        · exact innerBodies function known
        · exact .inr flat
      · rw [Forest.weight]
        omega

/-- The bodies of a nested program's functions are nested, and stand apart from each other and from the
tokens outside definitions. -/
theorem ofProgram_flatten {forest : Forest} {table : FunctionTable}
    (built : ofProgram forest.flatten = .ok table) :
    (∀ function ∈ table.functions, ∃ body : Forest, body.flatten = function.body) ∧
      forest.weight + table.total ≤ forest.size := by
  rw [ofProgram, ← List.append_nil forest.flatten] at built
  obtain ⟨middle, rest, bodies, bound⟩ := collect_flatten built
  cases rest
  refine ⟨fun function member => ?_, ?_⟩
  · rcases bodies function member with known | flat
    · cases known
    · exact flat
  · simpa [total, empty] using bound

end FunctionTable

end Lamplighter
