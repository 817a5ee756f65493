import Lamplighter.Machine
import Lamplighter.Proofs.Extents
import Lamplighter.Proofs.LiveCalls
import Lamplighter.Proofs.Prefixes
import Lamplighter.Proofs.Walk

/-! # Calls that a program makes itself

An execution that takes notes writes down the place of each call in the program that it starts, in the
program itself and in its loops, but not in the functions that are called. Its state and its fault are those
of the execution without notes. Each of these calls is one that the scan for calls comes to, and so one whose
name it lists, unless a definition that was opened in an earlier loop swallows it. In a nested program
nothing is swallowed.
-/

namespace Lamplighter

namespace Execution

variable {σ : Type}

/-- Takes a step of an execution and leaves the notes as they are. -/
def keeping (step : σ → Run σ) (noted : σ × List Nat) : Run (σ × List Nat) :=
  ⟨((step noted.1).state, noted.2), (step noted.1).fault⟩

/-- Walks through the tokens as `walk` does, and notes where a call is started. The tokens stand behind
`base` others in the program, `enter` executes the body of a function, and `inner` that of a loop. -/
def walkNoting (handle : Event → σ → Run σ) (env : Env) (enter : List Token → σ → Run σ)
    (inner : Nat → List Token → σ × List Nat → Run (σ × List Nat)) (depth base : Nat) :
    (skip index : Nat) → List Token → σ × List Nat → Run (σ × List Nat)
  | _, _, [], noted => .done noted
  | skip + 1, index, _ :: rest, noted =>
    walkNoting handle env enter inner depth base skip (index + 1) rest noted
  | 0, index, token :: rest, noted =>
    match token.kind with
    | .act primitive =>
      (keeping (handle (.act primitive)) noted).andThen
        (walkNoting handle env enter inner depth base 0 (index + 1) rest)
    | .closes .loop => keeping (handle (.cut depth)) noted
    | .opens .loop =>
      match token.readCountAt index with
      | .error malformed => .stop noted (.malformed malformed)
      | .ok count =>
        let size := Scope.loop.size rest
        let body := Scope.loop.body rest
        (keeping (handle (.loop count body.length depth)) noted).andThen fun noted =>
          (Run.iterate
            (fun noted => (keeping (handle .iteration) noted).andThen (inner (base + index + 1) body))
            count.toNat noted).andThen
            (walkNoting handle env enter inner depth base (size + 1) (index + 1) rest)
    | .opens .definition =>
      walkNoting handle env enter inner depth base (Scope.definition.size rest + 1) (index + 1) rest noted
    | .call =>
      let noted := (noted.1, (base + index) :: noted.2)
      match resolve env token index with
      | .error fault => .stop noted fault
      | .ok (function, args) =>
        (keeping (handle (.call function.name args depth)) noted).andThen fun noted =>
          (keeping (enter (instantiate function.params args function.body)) noted).andThen
            (walkNoting handle env enter inner depth base 0 (index + 1) rest)
    | _ => walkNoting handle env enter inner depth base 0 (index + 1) rest noted

/-- Executes a block as `block` does, and notes where it and its loops start a call. -/
def blockNoting (handle : Event → σ → Run σ) (env : Env) :
    (room depth base : Nat) → List Token → σ × List Nat → Run (σ × List Nat)
  | 0, _, _, _, noted => .stop noted (.depth env.maxDepth)
  | room + 1, depth, base, tokens, noted =>
    walkNoting handle env (block handle env room (depth + 1)) (blockNoting handle env room (depth + 1))
      depth base 0 0 tokens noted

section Steps

variable (handle : Event → σ → Run σ) (env : Env) (enter : List Token → σ → Run σ)
variable (inner : Nat → List Token → σ × List Nat → Run (σ × List Nat)) (depth base index : Nat)
variable {token : Token} (tokens : List Token) (noted : σ × List Nat)

theorem walkNoting_skip (skip : Nat) :
    walkNoting handle env enter inner depth base skip index tokens noted =
      walkNoting handle env enter inner depth base 0 (index + skip) (tokens.drop skip) noted := by
  induction skip generalizing index tokens with
  | zero => simp
  | succ skip ih =>
    cases tokens with
    | nil => simp [walkNoting]
    | cons token rest => rw [walkNoting, ih, List.drop_succ_cons, Nat.add_right_comm, Nat.add_assoc]

theorem walkNoting_act {primitive : Primitive} (acts : token.kind = .act primitive) :
    walkNoting handle env enter inner depth base 0 index (token :: tokens) noted =
      (keeping (handle (.act primitive)) noted).andThen
        (walkNoting handle env enter inner depth base 0 (index + 1) tokens) := by
  rw [walkNoting]
  simp only [acts]

theorem walkNoting_cut (closes : token.kind = .closes .loop) :
    walkNoting handle env enter inner depth base 0 index (token :: tokens) noted =
      keeping (handle (.cut depth)) noted := by
  rw [walkNoting]
  simp only [closes]

theorem walkNoting_loop_of_error {malformed : Malformed} (opens : token.kind = .opens .loop)
    (unread : token.readCountAt index = .error malformed) :
    walkNoting handle env enter inner depth base 0 index (token :: tokens) noted =
      .stop noted (.malformed malformed) := by
  rw [walkNoting]
  simp only [opens, unread]

theorem walkNoting_loop_of_ok {count : Int} (opens : token.kind = .opens .loop)
    (read : token.readCountAt index = .ok count) :
    walkNoting handle env enter inner depth base 0 index (token :: tokens) noted =
      ((keeping (handle (.loop count (Scope.loop.body tokens).length depth)) noted).andThen
        (Run.iterate (fun noted => (keeping (handle .iteration) noted).andThen
          (inner (base + index + 1) (Scope.loop.body tokens))) count.toNat)).andThen
        (walkNoting handle env enter inner depth base 0 (index + Scope.loop.size tokens + 2)
          (tokens.drop (Scope.loop.size tokens + 1))) := by
  rw [walkNoting]
  simp only [opens, read, Run.andThen_assoc]
  congr 1
  funext middle
  congr 1
  funext noted
  rw [walkNoting_skip]
  congr 1
  omega

theorem walkNoting_definition (opens : token.kind = .opens .definition) :
    walkNoting handle env enter inner depth base 0 index (token :: tokens) noted =
      walkNoting handle env enter inner depth base 0 (index + Scope.definition.size tokens + 2)
        (tokens.drop (Scope.definition.size tokens + 1)) noted := by
  rw [walkNoting]
  simp only [opens]
  rw [walkNoting_skip]
  congr 1
  omega

theorem walkNoting_call_of_error {fault : Fault} (calls : token.kind = .call)
    (unresolved : resolve env token index = .error fault) :
    walkNoting handle env enter inner depth base 0 index (token :: tokens) noted =
      .stop (noted.1, (base + index) :: noted.2) fault := by
  rw [walkNoting]
  simp only [calls, unresolved]

theorem walkNoting_call_of_ok {function : FunctionDef} {args : List Text} (calls : token.kind = .call)
    (resolved : resolve env token index = .ok (function, args)) :
    walkNoting handle env enter inner depth base 0 index (token :: tokens) noted =
      ((keeping (handle (.call function.name args depth)) (noted.1, (base + index) :: noted.2)).andThen
        (keeping (enter (instantiate function.params args function.body)))).andThen
        (walkNoting handle env enter inner depth base 0 (index + 1) tokens) := by
  rw [walkNoting]
  simp only [calls, resolved, Run.andThen_assoc]

theorem walkNoting_pass (idle : token.kind = .other ∨ token.kind = .closes .definition) :
    walkNoting handle env enter inner depth base 0 index (token :: tokens) noted =
      walkNoting handle env enter inner depth base 0 (index + 1) tokens noted := by
  rw [walkNoting]
  rcases idle with other | closes
  · simp only [other]
  · simp only [closes]

end Steps

/-- The execution with notes has come as far as the one without, and all its notes are good. -/
private structure Shadows (good : Nat → Prop) (run : Run σ) (noted : Run (σ × List Nat)) : Prop where
  state : noted.state.1 = run.state
  fault : noted.fault = run.fault
  notes : ∀ place ∈ noted.state.2, good place

namespace Shadows

variable {good : Nat → Prop}

private theorem done (noted : σ × List Nat) (notes : ∀ place ∈ noted.2, good place) :
    Shadows good (.done noted.1) (.done noted) := ⟨rfl, rfl, notes⟩

private theorem stop (noted : σ × List Nat) (notes : ∀ place ∈ noted.2, good place) (fault : Fault) :
    Shadows good (.stop noted.1 fault) (.stop noted fault) := ⟨rfl, rfl, notes⟩

private theorem keeping (step : σ → Run σ) (noted : σ × List Nat) (notes : ∀ place ∈ noted.2, good place) :
    Shadows good (step noted.1) (keeping step noted) := ⟨rfl, rfl, notes⟩

private theorem andThen {run : Run σ} {shadow : Run (σ × List Nat)} {next : σ → Run σ}
    {follow : σ × List Nat → Run (σ × List Nat)} (shadows : Shadows good run shadow)
    (continued : ∀ noted : σ × List Nat, (∀ place ∈ noted.2, good place) →
      Shadows good (next noted.1) (follow noted)) :
    Shadows good (run.andThen next) (shadow.andThen follow) := by
  obtain ⟨state, fault⟩ := run
  obtain ⟨noted, raised⟩ := shadow
  obtain ⟨rfl, rfl, notes⟩ := shadows
  cases raised with
  | none => exact continued noted notes
  | some cause => exact .stop noted notes cause

private theorem iterate {body : σ → Run σ} {turn : σ × List Nat → Run (σ × List Nat)}
    (once : ∀ noted : σ × List Nat, (∀ place ∈ noted.2, good place) →
      Shadows good (body noted.1) (turn noted))
    (count : Nat) {noted : σ × List Nat} (notes : ∀ place ∈ noted.2, good place) :
    Shadows good (Run.iterate body count noted.1) (Run.iterate turn count noted) := by
  induction count generalizing noted with
  | zero => exact .done noted notes
  | succ count ih => exact (once noted notes).andThen fun _ => ih

end Shadows

def CallsAt (tokens : List Token) (place : Nat) : Prop :=
  ∃ call, tokens[place]? = some call ∧ call.kind = .call

/-- The calls of the tokens that an execution may come to stand at good places of a program, behind `base`
other tokens. -/
private def Lifts (good : Nat → Prop) (base : Nat) (tokens : List Token) : Prop :=
  ∀ place, MayReach tokens place → CallsAt tokens place → good (base + place)

section Lifts

variable {good : Nat → Prop} {base : Nat} {token : Token} {tokens : List Token}

private theorem Lifts.of_slice {part : List Token} {offset : Nat} (lifts : Lifts good base tokens)
    (slice : Slice part tokens offset)
    (reaches : ∀ place, MayReach part place → MayReach tokens (place + offset)) :
    Lifts good (base + offset) part := by
  intro place reached calls
  rw [CallsAt, slice.getElem?_eq reached.lt_length] at calls
  have lifted := lifts (place + offset) (reaches place reached) calls
  rwa [Nat.add_comm place, ← Nat.add_assoc] at lifted

private theorem Lifts.pass (lifts : Lifts good base (token :: tokens))
    (plain : ∀ scope, token.kind ≠ .opens scope) : Lifts good (base + 1) tokens :=
  lifts.of_slice (Slice.drop (token :: tokens) 1) fun _ => .pass plain

private theorem Lifts.inside (lifts : Lifts good base (token :: tokens)) (opens : token.kind = .opens .loop)
    (runs : token.mayLoop = true) : Lifts good (base + 1) (Scope.loop.body tokens) :=
  lifts.of_slice ⟨Scope.loop.size tokens, rfl⟩ fun _ => .inside opens runs

private theorem Lifts.after {scope : Scope} (lifts : Lifts good base (token :: tokens))
    (opens : token.kind = .opens scope) :
    Lifts good (base + (scope.size tokens + 2)) (tokens.drop (scope.size tokens + 1)) :=
  lifts.of_slice (Slice.drop (token :: tokens) (scope.size tokens + 2)) fun _ => .after opens

end Lifts

private theorem mayLoop_of_readCountAt {token : Token} {index : Nat} {count : Int}
    (read : token.readCountAt index = .ok count) (positive : 0 < count.toNat) : token.mayLoop = true := by
  rw [Token.mayLoop, Problem.locate_eq_ok_iff.mp read]
  exact decide_eq_true (by omega)

section Noting

variable {good : Nat → Prop} (handle : Event → σ → Run σ) (env : Env)

private theorem walk_shadows {enter : List Token → σ → Run σ}
    {inner : Nat → List Token → σ × List Nat → Run (σ × List Nat)} (depth base : Nat)
    (entered : ∀ start body, Lifts good start body → ∀ noted : σ × List Nat,
      (∀ place ∈ noted.2, good place) → Shadows good (enter body noted.1) (inner start body noted))
    (index : Nat) (tokens : List Token) (lifts : Lifts good (base + index) tokens) (noted : σ × List Nat)
    (notes : ∀ place ∈ noted.2, good place) :
    Shadows good (walk handle env enter depth 0 index tokens noted.1)
      (walkNoting handle env enter inner depth base 0 index tokens noted) := by
  induction tokens using leapwise generalizing index noted with
  | nil => exact .done noted notes
  | cons token rest ih =>
    have later (plain : ∀ scope, token.kind ≠ .opens scope) := ih 0 (index + 1) (lifts.pass plain)
    have beyond {scope : Scope} (opens : token.kind = .opens scope) :=
      ih (scope.size rest + 1) (index + scope.size rest + 2)
        (by simpa only [Nat.add_assoc] using lifts.after opens)
    cases step env index token with
    | act acts =>
      rw [walk_act _ _ _ _ _ _ _ acts, walkNoting_act _ _ _ _ _ _ _ _ _ acts]
      exact (Shadows.keeping _ _ notes).andThen (later (by simp [acts]))
    | cut closes =>
      rw [walk_cut _ _ _ _ _ _ _ closes, walkNoting_cut _ _ _ _ _ _ _ _ _ closes]
      exact .keeping _ noted notes
    | @loop count opens read =>
      rw [walk_loop_of_ok _ _ _ _ _ _ _ opens read, walkNoting_loop_of_ok _ _ _ _ _ _ _ _ _ opens read]
      refine Shadows.andThen ((Shadows.keeping _ _ notes).andThen fun noted notes => ?_) (beyond opens)
      -- The body is only entered if the loop runs, and then its calls are among those to come to.
      rcases Nat.eq_zero_or_pos count.toNat with none | some
      · rw [none]
        exact .done noted notes
      · have body := lifts.inside opens (mayLoop_of_readCountAt read some)
        refine Shadows.iterate (fun noted notes => ?_) count.toNat notes
        exact (Shadows.keeping _ _ notes).andThen (entered _ _ body)
    | unread opens unread =>
      rw [walk_loop_of_error _ _ _ _ _ _ _ opens unread,
        walkNoting_loop_of_error _ _ _ _ _ _ _ _ _ opens unread]
      exact .stop noted notes _
    | definition opens =>
      rw [walk_definition _ _ _ _ _ _ _ opens, walkNoting_definition _ _ _ _ _ _ _ _ _ opens]
      exact beyond opens noted notes
    | call calls resolved =>
      have started : good (base + index) := lifts 0 (.here token rest) ⟨token, rfl, calls⟩
      have more : ∀ place ∈ (base + index) :: noted.2, good place :=
        List.forall_mem_cons.mpr ⟨started, notes⟩
      rw [walk_call_of_ok _ _ _ _ _ _ _ calls resolved,
        walkNoting_call_of_ok _ _ _ _ _ _ _ _ _ calls resolved]
      refine Shadows.andThen ?_ (later (by simp [calls]))
      exact (Shadows.keeping _ (noted.1, _) more).andThen fun noted notes => .keeping _ noted notes
    | @unresolved fault calls unresolved =>
      have started : good (base + index) := lifts 0 (.here token rest) ⟨token, rfl, calls⟩
      rw [walk_call_of_error _ _ _ _ _ _ _ calls unresolved,
        walkNoting_call_of_error _ _ _ _ _ _ _ _ _ calls unresolved]
      exact .stop (noted.1, _) (List.forall_mem_cons.mpr ⟨started, notes⟩) fault
    | pass idle =>
      rw [walk_pass _ _ _ _ _ _ _ idle, walkNoting_pass _ _ _ _ _ _ _ _ _ idle]
      exact later (not_opens_of_idle idle) noted notes

private theorem block_shadows (room depth base : Nat) (tokens : List Token) (lifts : Lifts good base tokens)
    (noted : σ × List Nat) (notes : ∀ place ∈ noted.2, good place) :
    Shadows good (block handle env room depth tokens noted.1)
      (blockNoting handle env room depth base tokens noted) := by
  induction room generalizing depth base tokens noted with
  | zero => exact .stop noted notes _
  | succ room ih =>
    rw [block, blockNoting]
    exact walk_shadows handle env depth base (ih (depth + 1)) 0 tokens lifts noted notes

end Noting

end Execution

/-- Every scope of a flat forest holds a flat forest, which ends where the scope does. -/
theorem Forest.exists_inside (forest : Forest) {scope : Scope} {place : Nat}
    (opened : scope.OpenedAt forest.flatten place) :
    ∃ inside : Forest, Slice inside.flatten forest.flatten (place + 1) ∧
      scope.endAt forest.flatten place = inside.size + (place + 1) ∧
      forest.flatten[inside.size + (place + 1)]? = some scope.closer := by
  have within := opened.lt_length
  obtain ⟨opener, stands, opens⟩ := opened
  obtain ⟨inside, tail, closed⟩ := forest.exists_closed stands opens
  rw [List.append_assoc, List.singleton_append] at closed
  refine ⟨inside, ⟨inside.size, ?_⟩, ?_, ?_⟩
  · rw [← closed, Forest.size, List.take_left]
  · rw [Scope.endAt_of_lt _ _ _ within, ← closed, Scope.size_flatten]
  · rw [Nat.add_comm, ← List.getElem?_drop, ← closed, Forest.size,
      List.getElem?_append_right (Nat.le_refl _), Nat.sub_self, List.getElem?_cons_zero]

namespace CallScan

open Execution

/-- The call at a place can be read, and names a function. -/
def NamesAt (tokens : List Token) (place : Nat) (name : Text) : Prop :=
  ∃ call signature, tokens[place]? = some call ∧ call.kind = .call ∧
    Signature.read Token.callWord call = .ok signature ∧ signature.name = name

section Named

variable {tokens : List Token} {place : Nat} {name other : Text}

theorem NamesAt.callsAt (names : NamesAt tokens place name) : CallsAt tokens place := by
  obtain ⟨call, _, stands, calls, _⟩ := names
  exact ⟨call, stands, calls⟩

theorem NamesAt.unique (names : NamesAt tokens place name) (again : NamesAt tokens place other) :
    name = other := by
  obtain ⟨call, signature, stands, _, read, rfl⟩ := names
  obtain ⟨_, _, same, _, reread, rfl⟩ := again
  rw [stands] at same
  cases same
  rw [read] at reread
  cases reread
  rfl

end Named

theorem callsAt_iff {part whole : List Token} {offset place : Nat} (slice : Slice part whole offset)
    (within : place < part.length) : CallsAt part place ↔ CallsAt whole (place + offset) := by
  rw [CallsAt, CallsAt, slice.getElem?_eq within]

theorem namesAt_iff {part whole : List Token} {offset place : Nat} (slice : Slice part whole offset)
    (within : place < part.length) (name : Text) :
    NamesAt part place name ↔ NamesAt whole (place + offset) name := by
  unfold NamesAt
  rw [slice.getElem?_eq within]

section Steps

variable {token : Token} {tokens : List Token}

private theorem callNamesFrom_idle {scope : Scope} (index : Nat) (idle : scope.IdleAt (token :: tokens) 0) :
    callNamesFrom 0 index (token :: tokens) =
      callNamesFrom 0 (index + 1 + (scope.size tokens + 1)) (tokens.drop (scope.size tokens + 1)) := by
  obtain ⟨_, stands, opens, idles⟩ := idle
  cases stands
  rw [← callNamesFrom_skip, callNamesFrom]
  cases scope with
  | definition => simp only [opens]
  | loop =>
    have stays : token.mayLoop = false := by simpa using idles
    simp [opens, stays]

/-- Where the next token opens no idle scope, the scan reads it if it is a call, and goes on behind it. -/
private theorem callNamesFrom_busy {index : Nat} (busy : ∀ scope, ¬ Scope.IdleAt scope (token :: tokens) 0)
    (clear : (callNamesFrom 0 index (token :: tokens)).fault = none) :
    (callNamesFrom 0 (index + 1) tokens).fault = none ∧
      (token.kind = .call → ∃ name, NamesAt (token :: tokens) 0 name) ∧
      ∀ name, name ∈ (callNamesFrom 0 index (token :: tokens)).names ↔
        NamesAt (token :: tokens) 0 name ∨ name ∈ (callNamesFrom 0 (index + 1) tokens).names := by
  by_cases calls : token.kind = .call
  · cases read : Signature.readAt Token.callWord token index with
    | error malformed =>
      rw [callNamesFrom_call_of_error index tokens calls read] at clear
      cases clear
    | ok signature =>
      rw [callNamesFrom_call_of_ok index tokens calls read] at clear ⊢
      have here : NamesAt (token :: tokens) 0 signature.name :=
        ⟨token, signature, rfl, calls, Problem.locate_eq_ok_iff.mp read, rfl⟩
      refine ⟨clear, fun _ => ⟨_, here⟩, fun name => ?_⟩
      rw [CallScan.cons, List.mem_cons]
      exact or_congr_left ⟨fun same => same ▸ here, fun names => names.unique here⟩
  · have goes : callNamesFrom 0 index (token :: tokens) = callNamesFrom 0 (index + 1) tokens := by
      by_cases loops : token.kind = .opens .loop
      · have runs : token.mayLoop = true := by
          by_contra stays
          exact busy .loop ⟨token, rfl, loops, .inr (by simpa using stays)⟩
        rw [callNamesFrom]
        simp [loops, runs]
      · exact callNamesFrom_pass index tokens (fun opens => busy _ ⟨token, rfl, opens, .inl rfl⟩) loops calls
    have silent (name : Text) : ¬ NamesAt (token :: tokens) 0 name := by
      rintro ⟨_, _, stands, call, _⟩
      cases stands
      exact calls call
    rw [goes] at clear ⊢
    exact ⟨clear, fun call => absurd call calls, fun name => (or_iff_right (silent name)).symm⟩

end Steps

/-- A scan without a fault can read every call that it comes to. -/
theorem Visits.exists_name {tokens : List Token} {place index : Nat} (visits : Visits tokens place)
    (clear : (callNamesFrom 0 index tokens).fault = none) (calls : CallsAt tokens place) :
    ∃ name, NamesAt tokens place name ∧ name ∈ (callNamesFrom 0 index tokens).names := by
  induction visits generalizing index with
  | here token tokens =>
    obtain ⟨_, stands, calls⟩ := calls
    cases stands
    have busy (scope : Scope) : ¬ scope.IdleAt (token :: tokens) 0 := by
      rintro ⟨_, stands, opens, _⟩
      cases stands
      rw [calls] at opens
      cases opens
    obtain ⟨_, reads, listed⟩ := callNamesFrom_busy busy clear
    obtain ⟨name, names⟩ := reads calls
    exact ⟨name, names, (listed name).mpr (.inl names)⟩
  | pass busy later ih =>
    obtain ⟨rest, _, listed⟩ := callNamesFrom_busy busy clear
    obtain ⟨name, names, found⟩ := ih rest calls
    exact ⟨name, names, (listed name).mpr (.inr found)⟩
  | @jump token tokens place scope idle later ih =>
    have slice := Slice.drop (token :: tokens) (scope.size tokens + 2)
    rw [callNamesFrom_idle index idle] at clear ⊢
    obtain ⟨name, names, found⟩ := ih clear ((callsAt_iff slice later.lt_length).mpr calls)
    exact ⟨name, (namesAt_iff slice later.lt_length name).mp names, found⟩

/-- A scan without a fault lists the names of the calls that it comes to, and no others. -/
theorem exists_visits_of_mem {tokens : List Token} {index : Nat} {name : Text}
    (clear : (callNamesFrom 0 index tokens).fault = none)
    (listed : name ∈ (callNamesFrom 0 index tokens).names) :
    ∃ place, Visits tokens place ∧ NamesAt tokens place name := by
  induction tokens using leapwise generalizing index with
  | nil => cases listed
  | cons token rest ih =>
    by_cases idle : ∃ scope, Scope.IdleAt scope (token :: rest) 0
    · obtain ⟨scope, idle⟩ := idle
      rw [callNamesFrom_idle index idle] at clear listed
      obtain ⟨place, visits, names⟩ := ih (scope.size rest + 1) clear listed
      have slice := Slice.drop (token :: rest) (scope.size rest + 2)
      exact ⟨_, .jump idle visits, (namesAt_iff slice visits.lt_length name).mp names⟩
    · have busy (scope : Scope) : ¬ scope.IdleAt (token :: rest) 0 := fun idles => idle ⟨scope, idles⟩
      obtain ⟨clearRest, _, found⟩ := callNamesFrom_busy busy clear
      rcases (found name).mp listed with names | later
      · exact ⟨0, .here token rest, names⟩
      · obtain ⟨place, visits, names⟩ := ih 0 clearRest later
        exact ⟨place + 1, .pass busy visits, names⟩

/-- The names that a scan without a fault lists are those of the calls that it comes to. -/
theorem mem_names_iff {tokens : List Token} (clear : (callNames tokens).fault = none) (name : Text) :
    name ∈ (callNames tokens).names ↔ ∃ place, Visits tokens place ∧ NamesAt tokens place name := by
  refine ⟨exists_visits_of_mem clear, ?_⟩
  rintro ⟨place, visits, names⟩
  obtain ⟨other, found, listed⟩ := visits.exists_name clear names.callsAt
  rwa [names.unique found]

/-- In a nested program no definition crosses a loop. -/
theorem not_swallowed_of_nested {program : List Token} (nested : Nesting.check program = .ok ())
    (place : Nat) : ¬ Swallowed program place := by
  obtain ⟨forest, rfl⟩ := (Nesting.check_eq_ok_iff program).mp nested
  rintro ⟨loop, definition, opened, defined, _, first, within, behind, covers⟩
  obtain ⟨body, slice, ends, closer⟩ := forest.exists_inside opened
  obtain ⟨ahead, rfl⟩ := Nat.exists_eq_add_of_le' first
  rw [ends] at within behind
  have inBody : ahead < body.flatten.length := by
    refine Nat.lt_of_le_of_ne (Nat.le_of_add_le_add_right within) ?_
    rintro rfl
    obtain ⟨opener, stands, opens⟩ := defined
    rw [← Forest.size, closer] at stands
    cases stands
    simp at opens
  obtain ⟨inside, _, innerEnd, innerCloser⟩ := body.exists_inside ((slice.openedAt_iff inBody).mpr defined)
  rw [← innerEnd] at innerCloser
  have closes := (List.getElem?_eq_some_iff.mp innerCloser).1
  rw [slice.endAt_eq closes] at covers
  rw [Forest.size] at behind
  omega

end CallScan

namespace Machine

open CallScan Execution

/-- Runs a program on the machine, and notes where the program itself starts a call, the last place first. -/
def runNoting (machine : Machine) (env : Env) (budget : Option Int) (program : List Token) :
    Run (Machine × List Nat) :=
  blockNoting (handle budget) env env.room 0 0 program (machine, [])

/-- A run with notes is the run, and each note is the place of a call that it may come to. -/
private theorem runNoting_shadows (machine : Machine) (env : Env) (budget : Option Int)
    (program : List Token) :
    Shadows (fun place => MayReach program place ∧ CallsAt program place) (machine.run env budget program)
      (machine.runNoting env budget program) := by
  refine block_shadows (handle budget) env env.room 0 0 program ?_ (machine, []) (by simp)
  intro place reached calls
  rw [Nat.zero_add]
  exact ⟨reached, calls⟩

/-- Where the scan for calls has no fault, it lists the names of the calls that it comes to. It comes to a
call that the program itself starts in a run unless that is swallowed, which nothing is in a nested
program. -/
theorem run_calls_scanned (machine : Machine) (env : Env) (budget : Option Int) (program : List Token)
    (clear : (callNames program).fault = none) :
    let run := machine.run env budget program
    let noted := machine.runNoting env budget program
    (noted.state.1 = run.state ∧ noted.fault = run.fault) ∧
      (∀ name, name ∈ (callNames program).names ↔
        ∃ place, Visits program place ∧ NamesAt program place name) ∧
      (∀ place ∈ noted.state.2, CallsAt program place ∧
        (Visits program place ↔ ¬ Swallowed program place) ∧
        (¬ Swallowed program place → ∃ name ∈ (callNames program).names, NamesAt program place name)) ∧
      (Nesting.check program = .ok () → ∀ place, ¬ Swallowed program place) := by
  intro run noted
  obtain ⟨state, fault, notes⟩ := machine.runNoting_shadows env budget program
  refine ⟨⟨state, fault⟩, mem_names_iff clear, fun place noted => ?_, not_swallowed_of_nested⟩
  obtain ⟨reached, calls⟩ := notes place noted
  have visits (clean : ¬ Swallowed program place) : Visits program place :=
    reached.visits_or_swallowed.resolve_right clean
  refine ⟨calls, ⟨fun visited swallowed => swallowed.not_visits visited, visits⟩, fun clean => ?_⟩
  obtain ⟨name, names, listed⟩ := (visits clean).exists_name clear calls
  exact ⟨name, listed, names⟩

private def lampRoom : Machine := start ⟨⟨[".".toList]⟩, 0, 0, .right⟩

private def switching : Env := ⟨⟨[⟨"G".toList, [], ["LIGHT".toList]⟩]⟩, 5, 450⟩

/-- A definition that is opened in a loop and closed behind it, after a call. -/
private def crossing : List Token :=
  ["REPEAT 1".toList, "FUNCTION F".toList, "ENDREPEAT".toList, "CALL G".toList, "ENDFUNCTION".toList]

/-- The call behind the loop is made, and the scan for calls lists nothing. -/
theorem run_calls_missed_behind_loop :
    let run := lampRoom.run switching none crossing
    let noted := lampRoom.runNoting switching none crossing
    (run.fault = none ∧ Note.call "G".toList [] 0 ∈ run.state.log) ∧ noted.state.2 = [3] ∧
      NamesAt crossing 3 "G".toList ∧ callNames crossing = ⟨[], none⟩ :=
  ⟨⟨by decide +kernel, by decide +kernel⟩, by decide +kernel,
    ⟨_, ⟨"G".toList, []⟩, rfl, by decide +kernel, rfl, rfl⟩, by decide +kernel⟩

/-- A loop that calls a function, behind the definition of that function. -/
private def switchTwice : List Token :=
  ["FUNCTION G".toList, "LIGHT".toList, "ENDFUNCTION".toList, "REPEAT 2".toList, "CALL G".toList,
    "ENDREPEAT".toList]

/-- A call in a loop of a nested program, which is listed, and one that a definition swallows. -/
theorem run_calls_scanned_in_loop :
    ((callNames switchTwice).fault = none ∧ (callNames crossing).fault = none) ∧
      ((lampRoom.runNoting switching none switchTwice).state.2 = [4, 4] ∧
        ∃ name ∈ (callNames switchTwice).names, NamesAt switchTwice 4 name) ∧
      (lampRoom.runNoting switching none crossing).state.2 = [3] ∧ Swallowed crossing 3 ∧
        ¬ Visits crossing 3 := by
  have clear : (callNames switchTwice).fault = none := by decide +kernel
  have clearCrossing : (callNames crossing).fault = none := by decide +kernel
  have notes : (lampRoom.runNoting switching none switchTwice).state.2 = [4, 4] := by decide +kernel
  have notesCrossing : (lampRoom.runNoting switching none crossing).state.2 = [3] := by decide +kernel
  have swallowed : Swallowed crossing 3 := by
    refine ⟨0, 1, ⟨_, rfl, by decide⟩, ⟨_, rfl, by decide⟩, .pass ?_ (.here _ _), by decide, by decide,
      by decide, by decide⟩
    rintro scope ⟨_, stands, opens, idles⟩
    cases stands
    cases scope
    · exact absurd opens (by decide)
    · exact absurd idles (by decide)
  obtain ⟨_, _, listed, clean⟩ := run_calls_scanned lampRoom switching none switchTwice clear
  obtain ⟨_, _, started, _⟩ := run_calls_scanned lampRoom switching none crossing clearCrossing
  have nested : Nesting.check switchTwice = .ok () := by decide +kernel
  have covered := (listed 4 (by rw [notes]; exact List.mem_cons_self)).2.2 (clean nested 4)
  have passed := (started 3 (by rw [notesCrossing]; exact List.mem_cons_self)).2.1
  exact ⟨⟨clear, clearCrossing⟩, ⟨notes, covered⟩, notesCrossing, swallowed,
    fun visits => passed.mp visits swallowed⟩

end Machine

end Lamplighter
