import Lamplighter.Proofs.Budget
import Lamplighter.Proofs.LiveCalls
import Lamplighter.Proofs.Phases
import Lamplighter.Proofs.Writing
import Mathlib.Algebra.Order.BigOperators.Group.List
import Mathlib.Algebra.Order.BigOperators.Ring.Finset
import Mathlib.Algebra.Ring.GeomSum

/-! # How many calls a budget leaves

A call is no step, so a budget does not count it. What bounds the calls is how they branch: a block makes no
more calls of its own than it has tokens, and there are only so many levels. Calls that branch on every level
are worth a geometric sum, and each iteration of a loop, which the budget does count, can start one anew. The
number of levels has to come in, since arguments can hand the name of a function down: a program of a few
tokens then branches on every level that there is room for, without a function that is seen to call itself.
-/

namespace Lamplighter

namespace Event

def isCall : Event → Bool
  | .call _ _ _ => true
  | _ => false

def isIteration : Event → Bool
  | .iteration => true
  | _ => false

end Event

def callsIn (events : List Event) : Nat := events.countP Event.isCall

def iterationsIn (events : List Event) : Nat := events.countP Event.isIteration

section Counts

variable (events later : List Event) (name : Text) (args : List Text) (depth : Nat)

theorem callsIn_append : callsIn (events ++ later) = callsIn events + callsIn later := List.countP_append

theorem iterationsIn_append : iterationsIn (events ++ later) = iterationsIn events + iterationsIn later :=
  List.countP_append

theorem callsIn_call : callsIn (.call name args depth :: events) = callsIn events + 1 :=
  List.countP_cons_of_pos rfl

theorem iterationsIn_call : iterationsIn (.call name args depth :: events) = iterationsIn events :=
  List.countP_cons_of_neg Bool.false_ne_true

theorem callsIn_iteration : callsIn (.iteration :: events) = callsIn events :=
  List.countP_cons_of_neg Bool.false_ne_true

theorem iterationsIn_iteration : iterationsIn (.iteration :: events) = iterationsIn events + 1 :=
  List.countP_cons_of_pos rfl

end Counts

namespace Script

/-- The calls of a script are paid for: each iteration pays for as many as the rate says, and there is an
allowance for the others. A script that is broken off may owe one call. -/
structure Paced (allowance rate : Nat) (script : Script) : Prop where
  whole : script.fault = none →
    callsIn script.events ≤ allowance + rate * iterationsIn script.events
  early : ∀ events, events <+: script.events →
    callsIn events ≤ allowance + rate * iterationsIn events + 1

/-- The calls of a block, the one that it is the body of included, are within a bound, which each iteration
in it renews. If the block is broken off, that one is not included. -/
structure Within (bound : Nat) (script : Script) : Prop where
  whole : script.fault = none → callsIn script.events + 1 ≤ bound * (1 + iterationsIn script.events)
  early : ∀ events, events <+: script.events → callsIn events ≤ bound * (1 + iterationsIn events)

variable {script next : Script} {bound allowance more rate : Nat}

/-- The first events of a sequence are some of its first script, or come after all of that script. -/
theorem isPrefix_andThen_cases {events : List Event} (first : events <+: (script.andThen next).events) :
    events <+: script.events ∨
      script.fault = none ∧ ∃ later, later <+: next.events ∧ events = script.events ++ later := by
  rcases script with ⟨written, _ | fault⟩
  · obtain ⟨rest, split⟩ := first
    rcases List.append_eq_append_iff.mp split with ⟨middle, whole, _⟩ | ⟨later, whole, left⟩
    · exact .inl ⟨middle, whole.symm⟩
    · exact .inr ⟨rfl, later, ⟨rest, left.symm⟩, whole⟩
  · exact .inl first

namespace Paced

theorem andThen (paced : script.Paced allowance rate) (continued : next.Paced more rate) :
    (script.andThen next).Paced (allowance + more) rate := by
  constructor
  · intro ended
    rcases script with ⟨events, _ | fault⟩
    · have first : callsIn events ≤ allowance + rate * iterationsIn events := paced.whole rfl
      have second := continued.whole ended
      simp only [Script.andThen, callsIn_append, iterationsIn_append, Nat.mul_add]
      omega
    · cases ended
  · intro events first
    rcases isPrefix_andThen_cases first with inside | ⟨ended, later, inside, rfl⟩
    · have broken := paced.early events inside
      omega
    · have whole := paced.whole ended
      have broken := continued.early later inside
      simp only [callsIn_append, iterationsIn_append, Nat.mul_add]
      omega

/-- A script without calls is paid for anyhow. -/
theorem of_no_call (none : callsIn script.events = 0) : script.Paced allowance rate := by
  refine ⟨fun _ => ?_, fun events first => ?_⟩
  · rw [none]
    exact Nat.zero_le _
  · have fewer : callsIn events ≤ callsIn script.events := first.sublist.countP_le
    omega

theorem mono (paced : script.Paced allowance rate) (le : allowance ≤ more) : script.Paced more rate := by
  refine ⟨fun ended => ?_, fun events first => ?_⟩
  · have whole := paced.whole ended
    omega
  · have broken := paced.early events first
    omega

/-- Calls that are each worth a weight go through the sequence of scripts. -/
theorem tally (weight rate : Nat) :
    Execution.Tally fun number script => script.Paced (number * weight) rate where
  done := of_no_call rfl
  stop := fun _ => of_no_call rfl
  andThen := fun paced continued => by
    rw [Nat.add_mul]
    exact paced.andThen continued
  mono := fun le paced => paced.mono (Nat.mul_le_mul_right weight le)

/-- A block is within a bound that covers its allowance, its rate and the call that it is the body of. -/
theorem within (paced : script.Paced allowance rate) (covers : allowance + 1 ≤ bound)
    (faster : rate ≤ bound) : script.Within bound := by
  have renewed (iterations : Nat) : allowance + rate * iterations + 1 ≤ bound * (1 + iterations) := by
    have times := Nat.mul_le_mul_right iterations faster
    rw [Nat.mul_add, Nat.mul_one]
    omega
  refine ⟨fun ended => ?_, fun events first => ?_⟩
  · exact Nat.le_trans (Nat.succ_le_succ (paced.whole ended)) (renewed _)
  · exact Nat.le_trans (paced.early events first) (renewed _)

end Paced

namespace Within

theorem stop (fault : Fault) : Within 0 ⟨[], some fault⟩ := by
  refine ⟨fun ended => ?_, fun events first => ?_⟩
  · cases ended
  · rw [List.prefix_nil.mp first]
    exact Nat.zero_le _

/-- A call of a block takes up the bound of the block. -/
theorem call (within : script.Within bound) (name : Text) (args : List Text) (depth : Nat) :
    (andThen ⟨[.call name args depth], none⟩ script).Paced bound bound := by
  refine ⟨fun ended => ?_, fun events first => ?_⟩
  · have whole := within.whole ended
    rw [Nat.mul_add, Nat.mul_one] at whole
    simp only [Script.andThen, List.singleton_append, callsIn_call, iterationsIn_call]
    exact whole
  · rcases List.prefix_cons_iff.mp first with rfl | ⟨later, rfl, inside⟩
    · exact Nat.zero_le _
    · have broken := within.early later inside
      rw [Nat.mul_add, Nat.mul_one] at broken
      rw [callsIn_call, iterationsIn_call]
      exact Nat.succ_le_succ broken

/-- An iteration pays for the block that it executes. -/
theorem turn (within : script.Within bound) :
    (andThen ⟨[.iteration], none⟩ script).Paced 0 bound := by
  refine ⟨fun ended => ?_, fun events first => ?_⟩
  · have whole := within.whole ended
    simp only [Script.andThen, List.singleton_append, callsIn_iteration, iterationsIn_iteration]
    rw [Nat.zero_add, Nat.add_comm (iterationsIn script.events)]
    exact Nat.le_of_succ_le whole
  · rcases List.prefix_cons_iff.mp first with rfl | ⟨later, rfl, inside⟩
    · exact Nat.zero_le _
    · have broken := within.early later inside
      rw [callsIn_iteration, iterationsIn_iteration, Nat.zero_add, Nat.add_comm (iterationsIn later)]
      exact Nat.le_succ_of_le broken

end Within

end Script

namespace Execution

/-- The calls that one call leads to on a number of levels, itself included, if every block makes as many of
them as the load says. -/
def fanOut (load levels : Nat) : Nat := ∑ level ∈ Finset.range levels, load ^ level

theorem fanOut_succ (load levels : Nat) : fanOut load (levels + 1) = load * fanOut load levels + 1 :=
  geom_sum_succ

/-- Heavier blocks on more levels fan out to more calls. -/
@[gcongr] theorem fanOut_le_fanOut {load heavier levels more : Nat} (lighter : load ≤ heavier)
    (fewer : levels ≤ more) : fanOut load levels ≤ fanOut heavier more :=
  calc fanOut load levels
    _ ≤ ∑ level ∈ Finset.range levels, heavier ^ level :=
      Finset.sum_le_sum fun level _ => Nat.pow_le_pow_left lighter level
    _ ≤ fanOut heavier more := Finset.sum_le_sum_of_subset (Finset.range_mono fewer)

/-- What the calls of a program and of each iteration in a budget fan out to, with one call that is owed, in
powers of a size. -/
theorem paid_le_sum_pow {own load size levels : Nat} (light : own ≤ load) (smaller : load < size)
    (below : 1 ≤ levels) (limit : Nat) :
    own * fanOut load levels + fanOut load levels * limit + 1 ≤
      (limit + 1) * ∑ level ∈ Finset.range levels, size ^ (level + 1) := by
  have summed : ∑ level ∈ Finset.range levels, size ^ (level + 1) = size * fanOut size levels := by
    rw [fanOut, Finset.mul_sum]
    exact Finset.sum_congr rfl fun level _ => pow_succ' size level
  have positive : 1 ≤ fanOut load levels := by
    obtain ⟨fewer, rfl⟩ := Nat.exists_eq_add_of_le' below
    rw [fanOut_succ]
    exact Nat.le_add_left _ _
  have once : (load + 1) * fanOut load levels ≤ size * fanOut size levels :=
    Nat.mul_le_mul smaller (fanOut_le_fanOut smaller.le le_rfl)
  have each : fanOut load levels ≤ size * fanOut size levels :=
    (Nat.le_mul_of_pos_left _ (Nat.succ_pos load)).trans once
  rw [summed]
  calc own * fanOut load levels + fanOut load levels * limit + 1
    _ ≤ load * fanOut load levels + fanOut load levels * limit + fanOut load levels := by gcongr
    _ = (load + 1) * fanOut load levels + limit * fanOut load levels := by ring
    _ ≤ size * fanOut size levels + limit * (size * fanOut size levels) := by gcongr
    _ = (limit + 1) * (size * fanOut size levels) := by ring

variable {env : Env} {load : Nat}

/-- The rules of a level whose blocks have no more calls than the load says, if the blocks below it are within
a bound. -/
theorem rules_paced {enter : List Token → List Event → Run (List Event)} {bound : Nat}
    (loads : ∀ function ∈ env.functions.functions, function.body.length ≤ load)
    (entered : ∀ tokens, callCount tokens ≤ load → Writes (Script.Within bound) (enter tokens))
    (depth : Nat) :
    Rules (fun number script => script.Paced (number * bound) bound) (fun tokens => callCount tokens ≤ load)
      env enter depth :=
  { Script.Paced.tally bound bound with
    rest := fun light _ => (callCount_le_of_sublist (List.sublist_cons_self ..)).trans light
    after := fun light _ =>
      (callCount_le_of_sublist ((List.drop_sublist _ _).trans (List.sublist_cons_self ..))).trans light
    body := fun light _ _ _ =>
      (callCount_le_of_sublist ((List.take_sublist _ _).trans (List.sublist_cons_self ..))).trans light
    act := fun _ => .of_no_call rfl
    loop := fun _ _ => .of_no_call rfl
    cut := fun _ _ => .of_no_call rfl
    turn := fun {tokens} light => by
      obtain ⟨script, played, within⟩ := entered tokens light
      rw [Nat.zero_mul]
      exact .event_then played within.turn
    call := fun {function} args found => by
      have light : callCount (instantiate function.params args function.body) ≤ load := by
        refine (callCount_le_length _).trans ?_
        rw [instantiate, List.length_map]
        exact loads function (List.mem_of_find?_eq_some found)
      obtain ⟨script, played, within⟩ := entered _ light
      rw [Nat.one_mul]
      exact .event_then played (within.call function.name args depth) }

theorem block_writes_within (loads : ∀ function ∈ env.functions.functions, function.body.length ≤ load)
    (room depth : Nat) {tokens : List Token} (light : callCount tokens ≤ load) :
    Writes (Script.Within (fanOut load room)) (block record env room depth tokens) := by
  induction room generalizing depth tokens with
  | zero => exact ⟨⟨[], some _⟩, rfl, .stop _⟩
  | succ room ih =>
    have rules := rules_paced loads (fun _ light => ih (depth + 1) light) depth
    obtain ⟨script, played, paced⟩ := rules.writes_walk light 0
    refine ⟨script, played, paced.within ?_ (fanOut_le_fanOut le_rfl room.le_succ)⟩
    rw [fanOut_succ]
    exact Nat.succ_le_succ (Nat.mul_le_mul_right _ light)

/-- The calls of a program are paced by what one call can fan out to below the main program. -/
theorem script_paced (loads : ∀ function ∈ env.functions.functions, function.body.length ≤ load)
    {levels : Nat} (room : env.room = levels + 1) {program : List Token} (light : callCount program ≤ load) :
    (script env program).Paced (callCount program * fanOut load levels) (fanOut load levels) := by
  have rules := rules_paced loads (fun _ light => block_writes_within loads levels 1 light) 0
  obtain ⟨script, played, paced⟩ := rules.writes_walk light 0
  have executed : execute record env program = script.play record := by
    rw [← played]
    funext written
    rw [execute, room]
    rfl
  rw [script_eq_of_play executed]
  exact paced

/-- Where there are no functions, nothing is called. -/
theorem callsIn_script_of_no_function (none : env.functions.functions = []) (program : List Token) :
    callsIn (script env program).events = 0 := by
  obtain ⟨script, played, uncalled⟩ := block_writes_forall env
    (fun _ (event : Event) (known : event.isCall = false) => known) (fun _ _ => rfl) (fun _ => rfl)
    (fun _ _ _ => rfl) (fun _ => rfl)
    (fun _ _ _ found => absurd (none ▸ List.mem_of_find?_eq_some found) List.not_mem_nil) env.room 0 program
  rw [script_eq_of_play played]
  refine List.countP_eq_zero.mpr fun event member => ?_
  rw [uncalled event member]
  exact Bool.false_ne_true

end Execution

namespace FunctionTable

theorem length_body_le_total {table : FunctionTable} {function : FunctionDef}
    (listed : function ∈ table.functions) : function.body.length ≤ table.total :=
  List.le_sum_of_mem (List.mem_map_of_mem listed)

theorem collect_of_no_definition {tokens : List Token}
    (plain : ∀ token ∈ tokens, token.kind ≠ .opens .definition) (index : Nat) (table : FunctionTable) :
    collect 0 index tokens table = .ok table := by
  induction tokens generalizing index with
  | nil => rfl
  | cons token rest ih =>
    rw [collect, if_neg (plain token List.mem_cons_self)]
    exact ih (fun other member => plain other (List.mem_cons_of_mem token member)) (index + 1)

/-- A program that defines functions has a token that is not a call. -/
theorem callCount_lt_of_mem {tokens : List Token} {table : FunctionTable}
    (built : ofProgram tokens = .ok table) {function : FunctionDef} (listed : function ∈ table.functions) :
    callCount tokens < tokens.length := by
  refine List.countP_lt_length_iff.mpr ?_
  by_contra calls
  have plain (token : Token) (member : token ∈ tokens) : token.kind ≠ .opens .definition := by
    intro opens
    refine calls ⟨token, member, ?_⟩
    simp [opens]
  rw [ofProgram, collect_of_no_definition plain] at built
  cases built
  cases listed

end FunctionTable

def Note.isCall : Note → Bool
  | .call _ _ _ => true
  | _ => false

namespace Machine

open Execution (replay moments)

theorem countP_log_absorb (machine : Machine) (event : Event) :
    (machine.absorb event).log.countP Note.isCall =
      machine.log.countP Note.isCall + if event.isCall then 1 else 0 := by
  cases event with
  | call name args depth => exact List.countP_cons
  | loop count size depth => exact List.countP_cons
  | act primitive => rfl
  | iteration => rfl
  | cut depth => rfl

/-- The log tells of every call that happens. -/
theorem countP_log_replay (budget : Option Int) (events : List Event) (machine : Machine) :
    (replay (handle budget) events machine).state.log.countP Note.isCall =
      machine.log.countP Note.isCall + callsIn ((moments (handle budget) events machine).map (·.event)) := by
  induction events generalizing machine with
  | nil => rfl
  | cons event events ih =>
    rcases handle_cases budget event machine with accepted | ⟨limit, _, refused⟩
    · rw [Execution.replay_cons_of_done accepted, Execution.moments_cons_of_done accepted, ih,
        countP_log_absorb, List.map_cons, callsIn, callsIn, List.countP_cons]
      dsimp only
      omega
    · rw [Execution.replay_cons_of_stop refused, Execution.moments_cons_of_stop refused]
      rfl

/-- A budget lets no more steps happen than it allows. -/
theorem counted_moments_le {limit : Nat} {machine : Machine} (fresh : machine.steps ≤ limit)
    (events : List Event) :
    machine.steps + ((moments (handle (some limit)) events machine).map (·.event)).countP Event.isCounted ≤
      limit := by
  rcases Nat.lt_or_ge limit (machine.steps + events.countP Event.isCounted) with exceeded | enough
  · obtain ⟨before, refused, after, rfl, counted, used, _⟩ := replay_of_lt_counted fresh exceeded
    rw [moments_of_refused counted used]
    exact Nat.le_of_eq used
  · have first := Execution.map_event_moments_isPrefix (handle (some limit)) events machine
    exact Nat.le_trans (Nat.add_le_add_left first.sublist.countP_le _) enough

variable {env : Env} {load levels : Nat}

theorem callsIn_history_of_no_function (machine : Machine) (none : env.functions.functions = [])
    (budget : Option Int) (program : List Token) :
    callsIn ((machine.history env budget program).map (·.event)) = 0 := by
  rw [history, Execution.history_eq_moments]
  have first := Execution.map_event_moments_isPrefix (handle budget) (Execution.script env program).events
    machine
  refine Nat.le_zero.mp (first.sublist.countP_le.trans ?_)
  exact Nat.le_of_eq (Execution.callsIn_script_of_no_function none program)

/-- What a budget leaves of the calls of a program. -/
theorem callsIn_history_le (machine : Machine) (start : machine.steps = 0) (limit : Nat)
    (loads : ∀ function ∈ env.functions.functions, function.body.length ≤ load)
    (room : env.room = levels + 1) {program : List Token} (light : callCount program ≤ load) :
    callsIn ((machine.history env (some limit) program).map (·.event)) ≤
      callCount program * Execution.fanOut load levels + Execution.fanOut load levels * limit + 1 := by
  rw [history, Execution.history_eq_moments]
  have first := Execution.map_event_moments_isPrefix (handle (some limit))
    (Execution.script env program).events machine
  have paced := (Execution.script_paced loads room light).early _ first
  have counted := counted_moments_le (Nat.le_trans (Nat.le_of_eq start) (Nat.zero_le limit))
    (Execution.script env program).events
  generalize (moments (handle (some limit)) (Execution.script env program).events machine).map (·.event) =
    happened at paced counted
  have iterations : iterationsIn happened ≤ happened.countP Event.isCounted := by
    refine List.countP_mono_left fun event _ iterates => ?_
    cases event with
    | iteration => rfl
    | _ => cases iterates
  have paid := iterations.trans (Nat.le_of_add_left_le counted)
  have times := Nat.mul_le_mul_left (Execution.fanOut load levels) paid
  omega

end Machine

/-- The limits of settings that pass their check. -/
theorem Settings.limits_of_check {settings : Settings} (valid : settings.check = .ok settings) :
    1 ≤ settings.maxDepth ∧ ∀ limit, settings.maxSteps = some limit → 1 ≤ limit := by
  unfold check at valid
  split_ifs at valid with shallow spent
  refine ⟨Int.not_lt.mp shallow, fun limit limited => Int.not_lt.mp fun short => spent ?_⟩
  simp [limited, short]

namespace Session

/-- The log of a run tells of the calls in its history. -/
theorem countP_log_execute (session : Session) (tokens : List Token) :
    let happened := (session.machine tokens).history session.env session.settings.maxSteps tokens
    (session.execute tokens).log.countP Note.isCall = callsIn (happened.map (·.event)) := by
  intro happened
  have logged : ((session.machine tokens).run session.env session.settings.maxSteps tokens).state.log.countP
      Note.isCall = callsIn (happened.map (·.event)) := by
    rw [Machine.run_eq_play, Script.state_play, Machine.countP_log_replay]
    simp only [happened, Machine.history, Execution.history_eq_moments]
    exact Nat.zero_add _
  rw [← logged, execute]
  dsimp only
  rw [← machine]
  split
  · exact List.countP_reverse
  · rw [List.countP_reverse, Machine.report]
    exact List.countP_cons_of_neg Bool.false_ne_true

/-- With a budget, the number of calls that a run logs is at most the budget and one more times a geometric
sum: the powers of the number of tokens in the program and in all bodies, one for each level that the depth
limit allows. If that is one level, it is the number of tokens itself. -/
theorem run_calls_bounded (session : Session) (valid : session.settings.check = .ok session.settings)
    {limit : Int} (limited : session.settings.maxSteps = some limit) (program : List Text)
    (table : FunctionTable) (built : FunctionTable.ofProgram (Token.normalize program) = .ok table) :
    let size := (Token.normalize program).length + table.total
    let levels := session.settings.maxDepth.toNat
    (session.run program).log.countP Note.isCall ≤
      (limit.toNat + 1) * ∑ level ∈ Finset.range levels, size ^ (level + 1) := by
  intro size levels
  obtain ⟨deep, positive⟩ := Settings.limits_of_check valid
  obtain ⟨budget, rfl⟩ := Int.eq_ofNat_of_zero_le (Int.le_of_lt (positive limit limited))
  rcases session.run_of_built built with ⟨silent, _⟩ | ⟨_, ran, _⟩
  · rw [silent]
    exact Nat.zero_le _
  · rw [ran, countP_log_execute]
    by_cases none : table.functions = []
    · rw [Machine.callsIn_history_of_no_function _ none]
      exact Nat.zero_le _
    · obtain ⟨function, listed⟩ := List.exists_mem_of_ne_nil _ none
      have own := FunctionTable.callCount_lt_of_mem built listed
      have loads (other : FunctionDef) (member : other ∈ table.functions) : other.body.length ≤ size - 1 := by
        have part := FunctionTable.length_body_le_total member
        omega
      -- The stack may leave room for fewer levels than the limit allows, which only makes for fewer calls.
      obtain ⟨roomy, room, fewer⟩ : ∃ roomy,
          Env.room ⟨table, session.settings.maxDepth, session.stack⟩ = roomy + 1 ∧ roomy ≤ levels := by
        refine ⟨(min session.settings.maxDepth session.stack).toNat, ?_, ?_⟩
        · simp only [Env.room]
          omega
        · omega
      rw [limited]
      calc callsIn _
        _ ≤ callCount (Token.normalize program) * Execution.fanOut (size - 1) roomy +
              Execution.fanOut (size - 1) roomy * budget + 1 :=
          Machine.callsIn_history_le _ rfl budget loads room (by omega)
        _ ≤ callCount (Token.normalize program) * Execution.fanOut (size - 1) levels +
              Execution.fanOut (size - 1) levels * budget + 1 := by gcongr
        _ ≤ _ := Execution.paid_le_sum_pow (by omega) (by omega) (by omega) budget

/-- A session with a budget of one step on a map of one lamp. -/
private def oneStep : Session :=
  ⟨{ maxDepth := 5, maxSteps := some 1 }, ⟨⟨[".".toList]⟩, 0, 0, .up⟩, ⟨⟨[".".toList]⟩, 0, 0, .up⟩, .empty, 450⟩

/-- A function that calls twice what it is given, and is given itself to call, four times over. -/
private def handedDown : List Text :=
  ["FUNCTION F(x)".toList, "CALL x".toList, "CALL x".toList, "ENDFUNCTION".toList, "FUNCTION E".toList,
    "ENDFUNCTION".toList, "CALL F(F(F(F(E))))".toList]

private def handedDownTable : FunctionTable :=
  ⟨[⟨"F".toList, ["x".toList], ["CALL x".toList, "CALL x".toList]⟩, ⟨"E".toList, [], []⟩]⟩

/-- A program that passes both checks, with nine tokens in it and in its bodies. Under a budget of one step,
of which it takes none, it logs 31 calls, where twice its tokens are 18. -/
theorem run_calls_exceed_tokens :
    FunctionTable.ofProgram (Token.normalize handedDown) = .ok handedDownTable ∧
      (oneStep.settings.validateNesting = true ∧ oneStep.settings.rejectRecursion = true) ∧
      oneStep.settings.maxSteps = some 1 ∧ (oneStep.run handedDown).result = .ok ⟨0, 0, 0, 2⟩ ∧
      (oneStep.run handedDown).log.countP Note.isCall = 31 ∧
      (1 + 1) * ((Token.normalize handedDown).length + handedDownTable.total) = 18 :=
  ⟨rfl, ⟨rfl, rfl⟩, rfl, rfl, by decide +kernel, rfl⟩

/-- The calls of that program on the five levels that it needs. -/
theorem run_calls_bounded_on_five_levels :
    (oneStep.run handedDown).log.countP Note.isCall = 31 ∧
      (oneStep.run handedDown).log.countP Note.isCall ≤
        (1 + 1) * ∑ level ∈ Finset.range 5, (7 + 2) ^ (level + 1) :=
  ⟨by decide +kernel, oneStep.run_calls_bounded rfl rfl handedDown handedDownTable rfl⟩

end Session

end Lamplighter
