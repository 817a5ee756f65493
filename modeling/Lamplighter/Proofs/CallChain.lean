import Lamplighter.Proofs.LiveCalls
import Lamplighter.Proofs.Recursion
import Lamplighter.Proofs.Walk
import Mathlib.Algebra.Order.BigOperators.Group.List
import Mathlib.Algebra.Order.Ring.Nat

/-! # Call chains of an execution

The log of a run tells which loops and calls are open at each moment: a note at depth `n` is made inside
the first `n` frames that the notes before it have opened. Where the recursion check names no function,
every chain of open calls is a path of the call graph, although the graph is drawn from the bodies as they
are written and the calls are made by bodies with arguments put in. So no function is called inside a call
of itself, the frames are no more than the program has tokens, and a limit of that many levels is never
exceeded.
-/

namespace Lamplighter

/-- A loop or a call that is open. -/
inductive Frame where
  | loop
  | call (name : Text)
deriving DecidableEq, Repr

namespace Note

/-- The frames that are open after the newest note of a log, outermost first. A note closes the frames at
its depth and below, and opens one there. -/
def openFrames : List Note → List Frame
  | .call name _ depth :: earlier => (openFrames earlier).take depth ++ [.call name]
  | .loop _ _ depth :: earlier => (openFrames earlier).take depth ++ [.loop]
  | _ :: earlier => openFrames earlier
  | [] => []

/-- A loop or a call is met inside as many of the open frames as its depth says, at a depth below the
bound, and none of these frames is a call of the same function. -/
def Fits (bound : Nat) (earlier : List Note) : Note → Prop
  | .call name _ depth =>
    depth ≤ (openFrames earlier).length ∧ depth < bound ∧ .call name ∉ (openFrames earlier).take depth
  | .loop _ _ depth => depth ≤ (openFrames earlier).length ∧ depth < bound
  | _ => True

/-- Every note of a log, newest first, fits the notes before it. -/
def Sound (bound : Nat) (log : List Note) : Prop :=
  ∀ later note earlier, log = later ++ note :: earlier → note.Fits bound earlier

theorem Sound.nil (bound : Nat) : Sound bound [] := by
  intro later note earlier split
  have sizes := congrArg List.length split
  simp only [List.length_nil, List.length_append, List.length_cons] at sizes
  omega

theorem Sound.cons {bound : Nat} {note : Note} {log : List Note} (sound : Sound bound log)
    (fits : note.Fits bound log) : Sound bound (note :: log) := by
  intro later other earlier split
  cases later with
  | nil =>
    obtain ⟨rfl, rfl⟩ := List.cons.inj split
    exact fits
  | cons newest later => exact sound later other earlier (List.cons.inj split).2

end Note

/-- How an execution comes to a level: the frames that are open there, the functions that these call, and
the caller whose tokens are executed. -/
inductive Chain (graph : CallGraph) (table : FunctionTable) :
    List Frame → List FunctionDef → Text → Prop where
  | main : Chain graph table [] [] CallGraph.mainNode
  | loop {frames : List Frame} {callees : List FunctionDef} {caller : Text}
      (chain : Chain graph table frames callees caller) :
      Chain graph table (frames ++ [.loop]) callees caller
  | call {frames : List Frame} {callees : List FunctionDef} {caller : Text} {function : FunctionDef}
      (chain : Chain graph table frames callees caller) (listed : function ∈ table.functions)
      (called : graph.Calls caller function.name) :
      Chain graph table (frames ++ [.call function.name]) (callees ++ [function]) function.name

namespace Chain

variable {graph : CallGraph} {table : FunctionTable} {frames : List Frame} {callees : List FunctionDef}
variable {caller : Text}

theorem listed (chain : Chain graph table frames callees caller) : callees ⊆ table.functions := by
  induction chain with
  | main => exact List.nil_subset _
  | loop chain ih => exact ih
  | call chain listed called ih => exact List.append_subset.mpr ⟨ih, by simpa using listed⟩

theorem exists_callee (chain : Chain graph table frames callees caller) {name : Text}
    (member : .call name ∈ frames) : ∃ function ∈ callees, function.name = name := by
  induction chain with
  | main => cases member
  | loop chain ih =>
    apply ih
    simpa using member
  | @call frames callees caller function chain listed called ih =>
    rcases List.mem_append.mp member with outer | last
    · obtain ⟨callee, member, same⟩ := ih outer
      exact ⟨callee, List.mem_append_left _ member, same⟩
    · rw [List.mem_singleton, Frame.call.injEq] at last
      exact ⟨function, List.mem_append_right _ (List.mem_singleton_self _), last.symm⟩

/-- The main program reaches every function of a chain, and each of them reaches the caller. -/
theorem reaches (chain : Chain graph table frames callees caller) :
    Relation.ReflTransGen graph.Calls CallGraph.mainNode caller ∧
      ∀ function ∈ callees, Relation.ReflTransGen graph.Calls CallGraph.mainNode function.name ∧
        Relation.ReflTransGen graph.Calls function.name caller := by
  induction chain with
  | main => exact ⟨.refl, fun function member => absurd member List.not_mem_nil⟩
  | loop chain ih => exact ih
  | call chain listed called ih =>
    have path := ih.1.tail called
    refine ⟨path, fun function member => ?_⟩
    rcases List.mem_append.mp member with outer | last
    · exact ⟨(ih.2 function outer).1, (ih.2 function outer).2.tail called⟩
    · rw [List.mem_singleton.mp last]
      exact ⟨path, .refl⟩

section Acyclic

variable (acyclic : ∀ name ∈ table.names, Relation.ReflTransGen graph.Calls CallGraph.mainNode name →
  ¬ Relation.TransGen graph.Calls name name)

include acyclic

/-- A chain does not come back to a function. -/
theorem fresh (chain : Chain graph table frames callees caller) {function : FunctionDef}
    (called : graph.Calls caller function.name) : ∀ callee ∈ callees, callee.name ≠ function.name := by
  intro callee member same
  obtain ⟨root, path⟩ := chain.reaches.2 callee member
  have cycle : Relation.TransGen graph.Calls callee.name callee.name := by
    rw [← same] at called
    exact Relation.TransGen.tail' path called
  exact acyclic callee.name (List.mem_map_of_mem (chain.listed member)) root cycle

theorem nodup (chain : Chain graph table frames callees caller) : callees.Nodup := by
  induction chain with
  | main => exact List.nodup_nil
  | loop chain ih => exact ih
  | call chain listed called ih =>
    refine List.nodup_append.mpr ⟨ih, List.nodup_singleton _, fun callee member other last => ?_⟩
    rw [List.mem_singleton.mp last]
    rintro rfl
    exact chain.fresh acyclic called callee member rfl

/-- The bodies of a chain's functions stand apart in the table. -/
theorem sum_le_total (chain : Chain graph table frames callees caller) :
    (callees.map fun function => function.body.length).sum ≤ table.total := by
  obtain ⟨part, same, within⟩ := (chain.nodup acyclic).subperm chain.listed
  calc (callees.map fun function => function.body.length).sum
      = (part.map fun function => function.body.length).sum := (same.symm.map _).sum_nat
    _ ≤ table.total := (within.map _).sum_le_sum fun _ _ => Nat.zero_le _

end Acyclic

end Chain

/-- Every live call can be read, and the graph has it as a call of the given caller. -/
def Forest.CallsOf (graph : CallGraph) (caller : Text) (forest : Forest) : Prop :=
  ∀ token ∈ forest.liveCalls, ∃ signature, Signature.read Token.callWord token = .ok signature ∧
    graph.Calls caller signature.name

/-- What is known of a program that has passed the checks: no cycle of calls is reached, the functions'
bodies are nested and their calls are edges of the graph, parameters stand among operands only, and the
bodies together with the `outside` tokens, those in no definition, are at most `bound` many. -/
structure Checked (env : Env) (graph : CallGraph) (outside bound : Nat) : Prop where
  acyclic : ∀ name ∈ env.functions.names, Relation.ReflTransGen graph.Calls CallGraph.mainNode name →
    ¬ Relation.TransGen graph.Calls name name
  bodies : ∀ function ∈ env.functions.functions, ∃ written : Forest,
    written.flatten = function.body ∧ written.CallsOf graph function.name
  operands : ∀ function ∈ env.functions.functions, function.OperandsOnly
  apart : outside + env.functions.total ≤ bound

/-- A forest that a chain of open frames has come to: its live calls are calls of the caller, and the
frames are no more than the tokens that stand around it. -/
structure Level (env : Env) (graph : CallGraph) (outside : Nat) (frames : List Frame)
    (callees : List FunctionDef) (caller : Text) (written : Forest) : Prop where
  chain : Chain graph env.functions frames callees caller
  calls : written.CallsOf graph caller
  weight : frames.length + written.weight ≤
    outside + (callees.map fun function => function.body.length).sum

namespace Level

variable {env : Env} {graph : CallGraph} {outside bound : Nat} {frames : List Frame}
variable {callees : List FunctionDef} {caller : Text}

theorem leaf_rest {token : Token} {plain : token.IsLeaf} {rest : Forest}
    (level : Level env graph outside frames callees caller (.leaf token plain rest)) :
    Level env graph outside frames callees caller rest := by
  refine ⟨level.chain, fun call live => level.calls call ?_, ?_⟩
  · rw [Forest.liveCalls]
    split_ifs
    · exact List.mem_cons_of_mem _ live
    · exact live
  · have weight := level.weight
    rw [Forest.weight] at weight
    omega

theorem node_rest {scope : Scope} {opener : Token} {opens : opener.kind = .opens scope} {body rest : Forest}
    (level : Level env graph outside frames callees caller (.node scope opener opens body rest)) :
    Level env graph outside frames callees caller rest := by
  have weight := level.weight
  cases scope with
  | definition => exact ⟨level.chain, level.calls, weight⟩
  | loop =>
    refine ⟨level.chain, fun call live => level.calls call ?_, ?_⟩
    · rw [Forest.liveCalls]
      split_ifs
      · exact List.mem_append_right _ live
      · exact live
    · rw [Forest.weight] at weight
      omega

theorem loop_body {opener : Token} {opens : opener.kind = .opens .loop} {body rest : Forest}
    (level : Level env graph outside frames callees caller (.node .loop opener opens body rest))
    (runs : opener.mayLoop = true) :
    Level env graph outside (frames ++ [.loop]) callees caller body := by
  refine ⟨.loop level.chain, fun call live => level.calls call ?_, ?_⟩
  · rw [Forest.liveCalls, if_pos runs]
    exact List.mem_append_left _ live
  · have weight := level.weight
    rw [Forest.weight] at weight
    rw [List.length_append, List.length_singleton]
    omega

/-- The calls that an instance of a forest makes are calls of the caller. -/
theorem calls_of_resolve {written token : Token} {plain : written.IsLeaf} {rest : Forest}
    (level : Level env graph outside frames callees caller (.leaf written plain rest))
    (follows : written.Instance token) (calls : token.kind = .call) {index : Nat} {function : FunctionDef}
    {args : List Text} (resolved : Execution.resolve env token index = .ok (function, args)) :
    function ∈ env.functions.functions ∧ graph.Calls caller function.name := by
  obtain ⟨signature, read, listed, named⟩ := Execution.resolve_eq_ok resolved
  have call : written.kind = .call := follows.kind.symm.trans calls
  have live : written ∈ (Forest.leaf written plain rest).liveCalls := by
    rw [Forest.liveCalls, if_pos call]
    exact List.mem_cons_self
  obtain ⟨original, first, called⟩ := level.calls written live
  rw [← follows.callee call original signature first read, ← named] at called
  exact ⟨listed, called⟩

section Checks

variable (checked : Checked env graph outside bound)

include checked

theorem length_add_weight_le {written : Forest}
    (level : Level env graph outside frames callees caller written) :
    frames.length + written.weight ≤ bound := by
  have weight := level.weight
  have sum := level.chain.sum_le_total checked.acyclic
  have apart := checked.apart
  omega

/-- The body of a called function is a forest that the chain has come to, one call further. -/
theorem call_body {written : Token} {plain : written.IsLeaf} {rest : Forest}
    (level : Level env graph outside frames callees caller (.leaf written plain rest))
    {function : FunctionDef} (listed : function ∈ env.functions.functions)
    (called : graph.Calls caller function.name) (args : List Text) :
    ∃ body executed : Forest,
      Level env graph outside (frames ++ [.call function.name]) (callees ++ [function]) function.name body ∧
        body.Instance executed ∧ executed.flatten = instantiate function.params args function.body := by
  obtain ⟨body, flat, calls⟩ := checked.bodies function listed
  have follows : ∀ token ∈ body.flatten,
      token.Instance (Bindings.apply (function.params.zip args) token) := by
    intro token member
    exact (checked.operands function listed).apply_instance args (flat ▸ member)
  obtain ⟨executed, instances, changed⟩ := body.exists_instance _ follows
  refine ⟨body, executed, ⟨.call level.chain listed called, calls, ?_⟩, instances, ?_⟩
  · have weight := level.weight
    have size := body.weight_le_size
    rw [Forest.size, flat] at size
    rw [Forest.weight] at weight
    simp only [List.length_append, List.length_singleton, List.map_append, List.map_cons, List.map_nil,
      List.sum_append, List.sum_singleton]
    omega
  · rw [changed, flat, instantiate]

end Checks

end Level

namespace Machine

variable {bound : Nat} {frames : List Frame} {machine : Machine}

/-- The log is sound, and the given frames are open. -/
structure Within (bound : Nat) (frames : List Frame) (machine : Machine) : Prop where
  sound : Note.Sound bound machine.log
  opened : (Note.openFrames machine.log).take frames.length = frames

namespace Within

theorem length_le (within : Within bound frames machine) :
    frames.length ≤ (Note.openFrames machine.log).length := by
  have sizes := congrArg List.length within.opened
  rw [List.length_take] at sizes
  omega

theorem outer {frame : Frame} (within : Within bound (frames ++ [frame]) machine) :
    Within bound frames machine := by
  refine ⟨within.sound, ?_⟩
  have opened := congrArg (List.take frames.length) within.opened
  rw [List.take_take, List.length_append, Nat.min_eq_left (Nat.le_add_right _ _), List.take_left] at opened
  exact opened

theorem of_log_eq {other : Machine} (within : Within bound frames machine) (same : other.log = machine.log) :
    Within bound frames other := by
  rcases within with ⟨sound, opened⟩
  exact ⟨same ▸ sound, same ▸ opened⟩

theorem report_loop (within : Within bound frames machine) (count : Int) (size : Nat)
    (short : frames.length < bound) :
    Within bound (frames ++ [.loop]) (machine.report (.loop count size frames.length)) := by
  refine ⟨within.sound.cons ⟨within.length_le, short⟩, ?_⟩
  rw [report, Note.openFrames, within.opened, List.take_length]

theorem report_call (within : Within bound frames machine) {name : Text} (args : List Text)
    (short : frames.length < bound) (fresh : .call name ∉ frames) :
    Within bound (frames ++ [.call name]) (machine.report (.call name args frames.length)) := by
  refine ⟨within.sound.cons ⟨within.length_le, short, ?_⟩, ?_⟩
  · rwa [within.opened]
  · rw [report, Note.openFrames, within.opened, List.take_length]

end Within

theorem count_log (budget : Option Int) (machine : Machine) :
    (machine.count budget).state.log = machine.log := by
  unfold count
  cases budget with
  | none => rfl
  | some limit =>
    simp only
    split_ifs <;> rfl

end Machine

namespace Fault

/-- The limit on levels is only exceeded where it or the stack lies below a bound. -/
def Excused (env : Env) (bound : Nat) (fault : Fault) : Prop :=
  (bound : Int) ≤ env.maxDepth → bound ≤ env.stack → ∀ limit, fault ≠ .depth limit

theorem OfProgram.excused {env : Env} {bound : Nat} {fault : Fault} (ofProgram : fault.OfProgram) :
    fault.Excused env bound := by
  intro _ _ limit
  cases ofProgram <;> simp

end Fault

namespace Execution

variable {env : Env} {graph : CallGraph} {outside bound : Nat} {budget : Option Int}

theorem count_within {frames : List Frame} {machine : Machine} (within : machine.Within bound frames) :
    Run.Meets (Machine.Within bound frames) (Fault.Excused env bound) (machine.count budget) := by
  refine ⟨within.of_log_eq (Machine.count_log budget machine), fun fault raised _ _ limit => ?_⟩
  obtain ⟨most, rfl⟩ := Machine.count_fault raised
  simp

/-- Every forest that is entered from a level stays within the frames of that level and its own one. -/
private def StaysWithin (env : Env) (graph : CallGraph) (outside bound : Nat) (frames : List Frame)
    (enter : List Token → Machine → Run Machine) : Prop :=
  ∀ (frame : Frame) (callees : List FunctionDef) (caller : Text) (written executed : Forest)
    (machine : Machine), Level env graph outside (frames ++ [frame]) callees caller written →
      written.Instance executed → machine.Within bound (frames ++ [frame]) →
        Run.Meets (Machine.Within bound (frames ++ [frame])) (Fault.Excused env bound)
          (enter executed.flatten machine)

section Level

variable {frames : List Frame} {callees : List FunctionDef} {caller : Text}
variable {enter : List Token → Machine → Run Machine} {machine : Machine}

private theorem call_within (checked : Checked env graph outside bound)
    (entered : StaysWithin env graph outside bound frames enter) {written token : Token}
    {plain : written.IsLeaf} {rest : Forest}
    (level : Level env graph outside frames callees caller (.leaf written plain rest))
    (follows : written.Instance token) (calls : token.kind = .call) {index : Nat} {function : FunctionDef}
    {args : List Text} (resolved : resolve env token index = .ok (function, args))
    (within : machine.Within bound frames) :
    Run.Meets (Machine.Within bound frames) (Fault.Excused env bound)
      (call (Machine.handle budget) enter frames.length function args machine) := by
  obtain ⟨listed, called⟩ := level.calls_of_resolve follows calls resolved
  obtain ⟨body, inner, below, inside, flat⟩ := level.call_body checked listed called args
  have short : frames.length < bound := by
    have length := below.length_add_weight_le checked
    rw [List.length_append, List.length_singleton] at length
    omega
  have fresh : .call function.name ∉ frames := by
    intro member
    obtain ⟨callee, active, same⟩ := level.chain.exists_callee member
    exact level.chain.fresh checked.acyclic called callee active same
  rw [call, Machine.handle, Run.andThen_done, ← flat]
  apply (entered _ _ _ _ _ _ below inside (within.report_call args short fresh)).mono
  intro machine within
  exact within.outer

/-- A loop that cannot run as it is written is met and does nothing else. -/
private theorem loop_within (checked : Checked env graph outside bound)
    (entered : StaysWithin env graph outside bound frames enter) {written token : Token}
    {opens : written.kind = .opens .loop} {body rest inner : Forest}
    (level : Level env graph outside frames callees caller (.node .loop written opens body rest))
    (follows : written.Instance token) (inside : body.Instance inner) {count : Int}
    (read : token.readCount = .ok count) (within : machine.Within bound frames) :
    Run.Meets (Machine.Within bound frames) (Fault.Excused env bound)
      (loop (Machine.handle budget) enter frames.length count inner.flatten machine) := by
  have short : frames.length < bound := by
    have length := level.length_add_weight_le checked
    rw [Forest.weight] at length
    omega
  have opened := within.report_loop count inner.flatten.length short
  rw [loop, Machine.handle, Run.andThen_done]
  refine Run.Meets.mono ?_ fun machine (within : machine.Within bound (frames ++ [.loop])) => within.outer
  cases runs : written.mayLoop with
  | false =>
    rw [Int.toNat_of_nonpos (follows.count_nonpos opens runs read)]
    exact .done opened
  | true =>
    apply Run.Meets.iterate _ _ opened
    intro machine within
    apply (count_within within).andThen
    intro machine within
    exact entered _ _ _ _ _ _ (level.loop_body runs) inside within

/-- One level of an execution stays within its frames if the levels below it do. -/
private theorem walk_within (checked : Checked env graph outside bound)
    (entered : StaysWithin env graph outside bound frames enter) {written executed : Forest}
    (instances : written.Instance executed)
    (level : Level env graph outside frames callees caller written) (index : Nat)
    (within : machine.Within bound frames) :
    Run.Meets (Machine.Within bound frames) (Fault.Excused env bound)
      (walk (Machine.handle budget) env enter frames.length 0 index executed.flatten machine) := by
  induction instances generalizing index machine with
  | nil => exact .done within
  | @leaf written token plain leaf rest row head tail ih =>
    have next (index : Nat) (machine : Machine) (within : machine.Within bound frames) :=
      ih level.leaf_rest index within
    rw [Forest.flatten]
    rcases leaf.kind_cases with ⟨primitive, acts⟩ | calls | other
    · rw [walk_act _ _ _ _ _ _ _ acts]
      refine Run.Meets.andThen ?_ (next _)
      apply (count_within within).andThen
      intro machine within
      exact .done (within.of_log_eq rfl)
    · cases resolved : resolve env token index with
      | error fault =>
        rw [walk_call_of_error _ _ _ _ _ _ _ calls resolved]
        exact .stop within (resolve_fault resolved).excused
      | ok callee =>
        rw [walk_call_of_ok _ _ _ _ _ _ _ calls resolved]
        exact (call_within checked entered level head calls resolved within).andThen (next _)
    · rw [walk_pass _ _ _ _ _ _ _ (.inl other)]
      exact next _ _ within
  | @node scope written token opens opener body rest inner row head inside tail bodyIh restIh =>
    have next (index : Nat) (machine : Machine) (within : machine.Within bound frames) :=
      restIh level.node_rest index within
    rw [Forest.flatten]
    cases scope with
    | definition =>
      rw [walk_definition_node _ _ _ _ _ _ _ _ opener]
      exact next _ _ within
    | loop =>
      cases read : token.readCountAt index with
      | error malformed =>
        rw [walk_loop_of_error _ _ _ _ _ _ _ opener read]
        exact .stop within (Fault.OfProgram.malformed malformed).excused
      | ok count =>
        rw [walk_loop_node_of_ok _ _ _ _ _ _ _ _ opener read]
        have counted := Problem.locate_eq_ok_iff.mp read
        exact (loop_within checked entered level head inside counted within).andThen (next _)

end Level

/-- Every level of an execution stays within the frames that lead to it. -/
private theorem block_within (budget : Option Int) (checked : Checked env graph outside bound) (room : Nat)
    {frames : List Frame} {callees : List FunctionDef} {caller : Text} {written executed : Forest}
    {machine : Machine} (left : room = env.roomAt frames.length)
    (level : Level env graph outside frames callees caller written) (instances : written.Instance executed)
    (within : machine.Within bound frames) :
    Run.Meets (Machine.Within bound frames) (Fault.Excused env bound)
      (block (Machine.handle budget) env room frames.length executed.flatten machine) := by
  induction room generalizing frames callees caller written executed machine with
  | zero =>
    refine .stop within fun deep shallow => ?_
    have short := level.length_add_weight_le checked
    unfold Env.roomAt at left
    omega
  | succ room ih =>
    rw [block]
    apply walk_within checked _ instances level 0 within
    intro frame callees caller written executed machine level instances within
    have fewer : room = env.roomAt (frames ++ [frame]).length := by
      rw [List.length_append, List.length_singleton]
      unfold Env.roomAt at left ⊢
      omega
    have below := ih fewer level instances within
    rwa [List.length_append, List.length_singleton] at below

end Execution

section Program

variable {forest : Forest} {table : FunctionTable} {graph : CallGraph}
  (drawn : CallGraph.ofProgram forest.flatten table = .ok graph)

include drawn

/-- The live calls of the main program are calls of its node. -/
private theorem calls_of_main : forest.CallsOf graph CallGraph.mainNode := by
  intro token live
  obtain ⟨readable, _⟩ := CallGraph.exists_ofProgram_iff.mp ⟨graph, drawn⟩
  obtain ⟨signature, read, listed⟩ := exists_read_of_liveCalls readable live
  exact ⟨signature, read, ((CallGraph.ofProgram_eq_ok drawn).2 _ _).mpr (.inl ⟨rfl, listed⟩)⟩

/-- A program in which the recursion check finds nothing has passed the checks. -/
private theorem checked_of_drawn (built : FunctionTable.ofProgram forest.flatten = .ok table)
    (main : CallGraph.mainNode ∉ table.names)
    (operands : ∀ function ∈ table.functions, function.OperandsOnly) (clear : graph.recursiveNames = [])
    (maxDepth : Int) (stack : Nat) :
    Checked ⟨table, maxDepth, stack⟩ graph forest.weight forest.flatten.length := by
  obtain ⟨bodies, apart⟩ := FunctionTable.ofProgram_flatten built
  obtain ⟨wellFormed, calls⟩ := CallGraph.ofProgram_eq_ok drawn
  refine ⟨fun name listed reached cycle => ?_, fun function listed => ?_, operands, apart⟩
  · have other : name ≠ CallGraph.mainNode := by
      rintro rfl
      exact main listed
    have named : name ∈ graph.recursiveNames := by
      rw [CallGraph.recursiveNames, Text.sort, (sortBy_perm _ _).mem_iff,
        CallGraph.mem_recursiveNodes_iff wellFormed]
      exact ⟨other, reached, cycle⟩
    rw [clear] at named
    cases named
  · obtain ⟨written, flat⟩ := bodies function listed
    refine ⟨written, flat, fun token live => ?_⟩
    have readable := (CallGraph.exists_ofProgram_iff.mp ⟨graph, drawn⟩).2 function listed
    rw [← flat] at readable
    obtain ⟨signature, read, called⟩ := exists_read_of_liveCalls readable live
    rw [flat] at called
    exact ⟨signature, read, (calls _ _).mpr (.inr ⟨function, listed, rfl, called⟩)⟩

end Program

namespace Machine

/-- Where the recursion check names nothing and parameters stand among operands only, no function is ever
called inside a call of itself, every loop and call is met at a depth below the number of tokens, and a
limit of that many levels is not exceeded on a stack with room for them. -/
theorem run_sound_of_recursiveNames_nil {program : List Token} {table : FunctionTable} {graph : CallGraph}
    (nested : Nesting.check program = .ok ()) (built : FunctionTable.ofProgram program = .ok table)
    (main : CallGraph.mainNode ∉ table.names)
    (operands : ∀ function ∈ table.functions, function.OperandsOnly)
    (drawn : CallGraph.ofProgram program table = .ok graph) (clear : graph.recursiveNames = [])
    (world : World) (maxDepth : Int) (stack : Nat) (budget : Option Int) :
    Note.Sound program.length ((start world).run ⟨table, maxDepth, stack⟩ budget program).state.log ∧
      (program.length ≤ maxDepth → program.length ≤ stack →
        ∀ limit, ((start world).run ⟨table, maxDepth, stack⟩ budget program).fault ≠ some (.depth limit)) := by
  obtain ⟨forest, rfl⟩ := (Nesting.check_eq_ok_iff program).mp nested
  have checked := checked_of_drawn drawn built main operands clear maxDepth stack
  have level : Level ⟨table, maxDepth, stack⟩ graph forest.weight [] [] CallGraph.mainNode forest :=
    ⟨.main, calls_of_main drawn, by simp⟩
  have within : (start world).Within forest.flatten.length [] := ⟨.nil _, rfl⟩
  have meets := Execution.block_within budget checked _ (Env.roomAt_zero _).symm level (.refl forest) within
  refine ⟨meets.1.sound, fun deep shallow limit raised => ?_⟩
  exact meets.2 _ raised deep shallow limit rfl

/-- A function that is called inside another one, with a parameter for its count, in a loop. -/
theorem run_sound_of_passed_count :
    let program := ["FUNCTION line(n)".toList, "REPEAT n".toList, "FORWARD".toList, "ENDREPEAT".toList,
      "ENDFUNCTION".toList, "FUNCTION turn(n)".toList, "CALL line(n)".toList, "LEFT".toList,
      "ENDFUNCTION".toList, "REPEAT 2".toList, "CALL turn(3)".toList, "ENDREPEAT".toList]
    let table : FunctionTable :=
      ⟨[⟨"line".toList, ["n".toList], ["REPEAT n".toList, "FORWARD".toList, "ENDREPEAT".toList]⟩,
        ⟨"turn".toList, ["n".toList], ["CALL line(n)".toList, "LEFT".toList]⟩]⟩
    let run := (start ⟨⟨[['.']]⟩, 0, 0, .up⟩).run ⟨table, 12, 12⟩ none program
    .loop 3 1 3 ∈ run.state.log ∧ run.fault = none ∧ Note.Sound 12 run.state.log ∧
      ∀ limit, run.fault ≠ some (.depth limit) := by
  intro program table run
  let graph : CallGraph := ⟨["<main>".toList, "line".toList, "turn".toList],
    [("<main>".toList, "turn".toList), ("turn".toList, "line".toList)]⟩
  have nested : Nesting.check program = .ok () := by decide +kernel
  have built : FunctionTable.ofProgram program = .ok table := by decide +kernel
  have main : CallGraph.mainNode ∉ table.names := by decide +kernel
  have operands : ∀ function ∈ table.functions, function.OperandsOnly := by decide +kernel
  have drawn : CallGraph.ofProgram program table = .ok graph := by decide +kernel
  have clear : graph.recursiveNames = [] := by decide +kernel
  have sound := run_sound_of_recursiveNames_nil nested built main operands drawn clear
    ⟨⟨[['.']]⟩, 0, 0, .up⟩ 12 12 none
  have reached : .loop 3 1 3 ∈ run.state.log := by decide +kernel
  have ended : run.fault = none := by decide +kernel
  exact ⟨reached, ended, sound.1, sound.2 (by decide) (by decide)⟩

end Machine

end Lamplighter
