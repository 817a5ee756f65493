import Lamplighter.Proofs.Worlds
import Lamplighter.World.Bench
import Mathlib.Data.List.Induction

/-! # Worlds that share snapshots

Several worlds stand side by side, and a snapshot of one can be put back into another. Whatever is done with
them, in any order, every robot stands on a cell of its own grid: a snapshot keeps a pose that fits its own
cells, and it goes back only where the grid has the same shape. A name on the shelf always keeps the world it
was last taken of as that world was then.
-/

namespace Lamplighter

namespace Snapshot

def world (snapshot : Snapshot) : World := ⟨snapshot.grid, snapshot.row, snapshot.col, snapshot.heading⟩

@[simp] theorem snapshot_world (snapshot : Snapshot) : snapshot.world.snapshot = snapshot := rfl

end Snapshot

namespace World

/-- A world that was set up on a grid with equal rows. -/
def SetUp (world : World) : Prop :=
  ∃ grid row col heading, grid.Rectangular ∧ place grid row col heading = .ok world

/-- The worlds that can be set up are those with the robot on a cell. -/
theorem setUp_iff_valid {world : World} : world.SetUp ↔ world.Valid := by
  constructor
  · rintro ⟨grid, row, col, heading, rectangular, placed⟩
    unfold place at placed
    split_ifs at placed with empty inside
    cases placed
    refine ⟨rectangular, ?_, ?_⟩
    · change row.toNat < grid.height
      omega
    · change col.toNat < grid.width
      omega
  · rintro ⟨rectangular, inRows, inCols⟩
    refine ⟨world.grid, world.row, world.col, world.heading, rectangular, ?_⟩
    rw [place, if_neg (by omega), if_pos (by omega)]
    rfl

end World

namespace Bench

/-- What is done with one of the worlds. -/
inductive Step where
  | act (index : Nat) (primitive : Primitive)
  | take (index : Nat) (name : Text)
  | restore (index : Nat) (name : Text)
deriving DecidableEq, Repr

def Step.index : Step → Nat
  | act index _ | take index _ | restore index _ => index

def fault? (bench : Bench) : Step → Option WorldFault
  | .restore index name =>
    match bench.restore index name with
    | .ok _ => none
    | .error fault => some fault
  | _ => none

/-- The bench after a step; one that fails leaves it as it is. -/
def after (bench : Bench) : Step → Bench
  | .act index primitive => bench.perform index primitive
  | .take index name => bench.take index name
  | .restore index name =>
    match bench.restore index name with
    | .ok restored => restored
    | .error _ => bench

/-- What is seen of a step: its fault if it fails, and its world as it is then. -/
structure Answer where
  fault : Option WorldFault
  world : Option World
deriving DecidableEq, Repr

def answers (bench : Bench) : List Step → List Answer
  | [] => []
  | step :: steps =>
    ⟨bench.fault? step, (bench.after step).worlds[step.index]?⟩ :: (bench.after step).answers steps

section Restoring

variable {bench : Bench} {index : Nat} {name : Text} {world : World} {snapshot : Snapshot}

section Present

variable (found : bench.worlds[index]? = some world) (kept : bench.slot? name = some snapshot)

include found kept

/-- A snapshot takes the place of a world of the same shape. -/
theorem restore_eq : bench.restore index name =
    if snapshot.grid.shape = world.grid.shape then .ok (bench.setWorld index snapshot.world)
    else .error (.shape snapshot.grid.shape world.grid.shape) := by
  simp only [restore, found, kept, World.restore]
  split_ifs <;> rfl

theorem fault?_restore : bench.fault? (.restore index name) =
    if snapshot.grid.shape = world.grid.shape then none
    else some (.shape snapshot.grid.shape world.grid.shape) := by
  rw [fault?, restore_eq found kept]
  split_ifs <;> rfl

theorem after_restore : bench.after (.restore index name) =
    if snapshot.grid.shape = world.grid.shape then bench.setWorld index snapshot.world else bench := by
  rw [after, restore_eq found kept]
  split_ifs <;> rfl

end Present

/-- A restore that finds no world or no snapshot does nothing. -/
theorem restore_of_absent (absent : bench.worlds[index]? = none ∨ bench.slot? name = none) :
    bench.restore index name = .ok bench := by
  unfold restore
  split
  · simp_all
  · rfl

end Restoring

section Steps

variable (bench : Bench)

/-- What a step can do: nothing, put another world in the place of one, or take a snapshot. The other world is
what a command makes of the one, or a snapshot of the same shape keeps it. -/
theorem after_cases (step : Step) :
    bench.after step = bench ∨
      (∃ world next, bench.worlds[step.index]? = some world ∧
        bench.after step = bench.setWorld step.index next ∧
        ((∃ primitive, next = world.perform primitive) ∨
          ∃ name snapshot, bench.slot? name = some snapshot ∧ snapshot.grid.shape = world.grid.shape ∧
            next = snapshot.world)) ∨
      ∃ index name world, step = .take index name ∧ bench.worlds[index]? = some world ∧
        bench.after step = bench.take index name := by
  cases step with
  | act index primitive =>
    cases found : bench.worlds[index]? with
    | none =>
      left
      rw [after, perform, found]
    | some world =>
      refine .inr (.inl ⟨world, world.perform primitive, found, ?_, .inl ⟨primitive, rfl⟩⟩)
      rw [after, perform, found]
      rfl
  | take index name =>
    cases found : bench.worlds[index]? with
    | none =>
      left
      rw [after, take, found]
    | some world => exact .inr (.inr ⟨index, name, world, rfl, found, rfl⟩)
  | restore index name =>
    cases found : bench.worlds[index]? with
    | none =>
      left
      rw [after, restore_of_absent (.inl found)]
    | some world =>
      cases kept : bench.slot? name with
      | none =>
        left
        rw [after, restore_of_absent (.inr kept)]
      | some snapshot =>
        rw [after_restore found kept]
        split_ifs with shape
        · exact .inr (.inl ⟨world, snapshot.world, found, rfl, .inr ⟨name, snapshot, kept, shape, rfl⟩⟩)
        · exact .inl rfl

theorem slot?_take {index : Nat} {world : World} (found : bench.worlds[index]? = some world) (name : Text) :
    (bench.take index name).slot? name = some world.snapshot := by
  simp [take, found, slot?]

theorem slot?_take_of_ne (index : Nat) {name other : Text} (apart : other ≠ name) :
    (bench.take index name).slot? other = bench.slot? other := by
  unfold take
  split
  · have kept : (fun entry : Text × Snapshot => decide ((entry.1 != name) = true ∧ (entry.1 == other) = true)) =
        fun entry => entry.1 == other := by
      funext entry
      by_cases same : entry.1 = other <;> simp [same, apart]
    simp only [slot?, List.find?_cons, beq_false_of_ne (Ne.symm apart), List.find?_filter, kept]
  · rfl

/-- What is on the shelf under a name changes only when a snapshot is taken under that name. -/
theorem slot?_after {step : Step} {name : Text} (untaken : ∀ index, step ≠ .take index name) :
    (bench.after step).slot? name = bench.slot? name := by
  rcases bench.after_cases step with same | ⟨_, next, _, put, _⟩ | ⟨index, other, _, rfl, _, took⟩
  · rw [same]
  · rw [put]
    rfl
  · rw [took]
    refine bench.slot?_take_of_ne index ?_
    rintro rfl
    exact untaken index rfl

end Steps

/-- What holds of worlds and snapshots, whatever is done with them: the worlds keep the shapes that they start
with, their robots stand on their cells, and so do the robots that the snapshots keep. -/
structure Consistent (worlds : List World) (bench : Bench) : Prop where
  shapes : bench.worlds.map (·.grid.shape) = worlds.map (·.grid.shape)
  worlds : ∀ world ∈ bench.worlds, world.Valid
  slots : ∀ name snapshot, bench.slot? name = some snapshot → snapshot.world.Valid

namespace Consistent

variable {worlds : List World} {bench : Bench}

theorem ofWorlds (valid : ∀ world ∈ worlds, world.Valid) : Consistent worlds (ofWorlds worlds) :=
  ⟨rfl, valid, fun _ _ kept => by cases kept⟩

theorem length_worlds (consistent : Consistent worlds bench) : bench.worlds.length = worlds.length := by
  have lengths := congrArg List.length consistent.shapes
  rwa [List.length_map, List.length_map] at lengths

/-- A world may be put in the place of another of the same shape. -/
theorem setWorld (consistent : Consistent worlds bench) {index : Nat} {world next : World}
    (found : bench.worlds[index]? = some world) (shape : next.grid.shape = world.grid.shape)
    (valid : next.Valid) : Consistent worlds (bench.setWorld index next) := by
  refine ⟨?_, fun other member => ?_, consistent.slots⟩
  · obtain ⟨inside, rfl⟩ := List.getElem?_eq_some_iff.mp found
    have mapped : index < (bench.worlds.map (·.grid.shape)).length := by rwa [List.length_map]
    have same := List.set_getElem_self mapped
    rw [List.getElem_map] at same
    rw [← consistent.shapes, Bench.setWorld, List.map_set, shape, same]
  · rcases List.mem_or_eq_of_mem_set member with earlier | rfl
    · exact consistent.worlds other earlier
    · exact valid

/-- A snapshot of one of the worlds may be taken. -/
theorem take (consistent : Consistent worlds bench) {index : Nat} {world : World}
    (found : bench.worlds[index]? = some world) (name : Text) : Consistent worlds (bench.take index name) := by
  have untouched : (bench.take index name).worlds = bench.worlds := by
    rw [Bench.take, found]
  refine ⟨untouched ▸ consistent.shapes, untouched ▸ consistent.worlds, fun other snapshot kept => ?_⟩
  by_cases same : other = name
  · rw [same, bench.slot?_take found, Option.some_inj] at kept
    rw [← kept]
    exact consistent.worlds world (List.mem_of_getElem? found)
  · rw [bench.slot?_take_of_ne index same] at kept
    exact consistent.slots other snapshot kept

theorem after (consistent : Consistent worlds bench) (step : Step) : Consistent worlds (bench.after step) := by
  rcases bench.after_cases step with
    same | ⟨world, next, found, put, acted | restored⟩ | ⟨index, name, world, _, found, took⟩
  · rwa [same]
  · obtain ⟨primitive, rfl⟩ := acted
    rw [put]
    have valid := consistent.worlds world (List.mem_of_getElem? found)
    exact consistent.setWorld found (World.shape_perform world primitive) (valid.perform primitive)
  · obtain ⟨name, snapshot, kept, shape, rfl⟩ := restored
    rw [put]
    exact consistent.setWorld found shape (consistent.slots name snapshot kept)
  · rw [took]
    exact consistent.take found name

theorem foldl_after (consistent : Consistent worlds bench) (steps : List Step) :
    Consistent worlds (steps.foldl Bench.after bench) := by
  induction steps generalizing bench with
  | nil => exact consistent
  | cons step steps ih => exact ih (consistent.after step)

end Consistent

/-- What a name on the shelf keeps after steps from a fresh bench: nothing if no snapshot was taken under it,
and else the world of the last one as it was at that moment. -/
def KeepsLast (fresh : Bench) (steps : List Step) (name : Text) (slot : Option Snapshot) : Prop :=
  (slot = none ∧ ∀ step ∈ steps, ∀ index, step ≠ .take index name) ∨
    ∃ before index later world, steps = before ++ .take index name :: later ∧
      (∀ step ∈ later, ∀ other, step ≠ .take other name) ∧
      (before.foldl after fresh).worlds[index]? = some world ∧ slot = some world.snapshot

/-- The induction is from the back: a further step either takes the last snapshot under the name, or leaves what
the name keeps. -/
theorem keepsLast_foldl_after {worlds : List World} (valid : ∀ world ∈ worlds, world.Valid) {steps : List Step}
    (among : ∀ step ∈ steps, step.index < worlds.length) (name : Text) :
    KeepsLast (ofWorlds worlds) steps name ((steps.foldl after (ofWorlds worlds)).slot? name) := by
  induction steps using List.reverseRecOn with
  | nil => exact .inl ⟨rfl, List.forall_mem_nil _⟩
  | append_singleton steps step ih =>
    have earlier := ih fun other member => among other (List.mem_append_left _ member)
    rw [List.foldl_append, List.foldl_cons, List.foldl_nil]
    by_cases taken : ∃ index, step = .take index name
    · obtain ⟨index, rfl⟩ := taken
      have consistent := (Consistent.ofWorlds valid).foldl_after steps
      have inside : index < (steps.foldl after (ofWorlds worlds)).worlds.length := by
        rw [consistent.length_worlds]
        exact among (.take index name) (List.mem_append_right _ List.mem_cons_self)
      have found := List.getElem?_eq_getElem inside
      exact .inr ⟨steps, index, [], _, rfl, List.forall_mem_nil _, found, slot?_take _ found name⟩
    · rw [not_exists] at taken
      rw [slot?_after _ taken]
      rcases earlier with ⟨empty, untaken⟩ | ⟨before, index, later, world, rfl, untaken, found, kept⟩
      · refine .inl ⟨empty, fun other member => ?_⟩
        rcases List.mem_append.mp member with old | new
        · exact untaken other old
        · rwa [List.mem_singleton.mp new]
      · refine .inr ⟨before, index, later ++ [step], world, by simp, fun other member => ?_, found, kept⟩
        rcases List.mem_append.mp member with old | new
        · exact untaken other old
        · rwa [List.mem_singleton.mp new]

section Interchange

variable {bench : Bench} {first second : Text}

theorem slot?_of_sameSlots (same : bench.sameSlots first second = true) :
    bench.slot? first = bench.slot? second := by
  unfold sameSlots at same
  split at same
  · rename_i one other kept also
    rw [kept, also, eq_of_beq same]
  · cases same

theorem answers_of_slot? (same : bench.slot? first = bench.slot? second) (index : Nat) (later : List Step) :
    bench.answers (.restore index first :: later) = bench.answers (.restore index second :: later) := by
  have restored : bench.restore index first = bench.restore index second := by rw [restore, restore, same]
  simp only [answers, fault?, after, restored, Step.index]

end Interchange

/-- Worlds and snapshots stay consistent in whatever order commands are carried out and snapshots are taken and
put back, on any of the worlds. The worlds keep their shapes and the robots stay on their cells, also those
that the snapshots keep. A name keeps the world that it was last taken of, as it was then. A restore fails
exactly if the shapes differ, and then nothing changes; otherwise it makes the world what the snapshot keeps
and leaves every other world and all names alone. Names with equal snapshots are as good as each other for
everything that is seen later. -/
theorem consistent_in_any_order {worlds : List World} (setUp : ∀ world ∈ worlds, world.SetUp)
    (steps : List Step) (among : ∀ step ∈ steps, step.index < worlds.length) :
    let reached := steps.foldl after (ofWorlds worlds)
    reached.worlds.map (·.grid.shape) = worlds.map (·.grid.shape) ∧
      (∀ world ∈ reached.worlds, world.row < world.grid.height ∧ world.col < world.grid.width) ∧
      (∀ name snapshot, reached.slot? name = some snapshot →
        snapshot.row < snapshot.grid.height ∧ snapshot.col < snapshot.grid.width) ∧
      (∀ name, KeepsLast (ofWorlds worlds) steps name (reached.slot? name)) ∧
      (∀ index name world snapshot, reached.worlds[index]? = some world → reached.slot? name = some snapshot →
        let step := Step.restore index name
        (reached.fault? step ≠ none ↔ snapshot.grid.shape ≠ world.grid.shape) ∧
          (reached.fault? step ≠ none → reached.after step = reached) ∧
          (reached.fault? step = none →
            (reached.after step).worlds[index]?.map World.snapshot = some snapshot ∧
              (∀ other, other ≠ index → (reached.after step).worlds[other]? = reached.worlds[other]?) ∧
              ∀ other, (reached.after step).slot? other = reached.slot? other)) ∧
      ∀ index first second world snapshot, reached.sameSlots first second = true →
        reached.worlds[index]? = some world → reached.slot? first = some snapshot →
        snapshot.grid.shape = world.grid.shape →
        reached.fault? (.restore index first) = none ∧
          ∀ later, reached.answers (.restore index first :: later) =
            reached.answers (.restore index second :: later) := by
  intro reached
  have valid : ∀ world ∈ worlds, world.Valid := fun world member =>
    World.setUp_iff_valid.mp (setUp world member)
  have consistent := (Consistent.ofWorlds valid).foldl_after steps
  refine ⟨consistent.shapes, fun world member => ?_, fun name snapshot kept => ?_,
    keepsLast_foldl_after valid among, fun index name world snapshot found kept => ?_,
    fun index first second world snapshot same found kept shape => ?_⟩
  · obtain ⟨_, row, col⟩ := consistent.worlds world member
    exact ⟨row, col⟩
  · obtain ⟨_, row, col⟩ := consistent.slots name snapshot kept
    exact ⟨row, col⟩
  · simp only [fault?_restore found kept, after_restore found kept]
    split_ifs with shape
    · refine ⟨by simp [shape], fun failed => absurd rfl failed, fun _ => ⟨?_, fun other apart => ?_, fun _ => rfl⟩⟩
      · obtain ⟨inside, _⟩ := List.getElem?_eq_some_iff.mp found
        rw [setWorld, List.getElem?_set_self inside, Option.map_some, Snapshot.snapshot_world]
      · exact List.getElem?_set_ne apart.symm
    · exact ⟨by simp [shape], fun _ => rfl, fun done => by cases done⟩
  · refine ⟨?_, answers_of_slot? (slot?_of_sameSlots same) index⟩
    rw [fault?_restore found kept, if_pos shape]

/-- A row and a column of two cells each, and a second row. -/
private def threeWorlds : List World :=
  [⟨⟨["O.".toList]⟩, 0, 1, .right⟩, ⟨⟨["x".toList, "#".toList]⟩, 1, 0, .up⟩, ⟨⟨["..".toList]⟩, 0, 0, .down⟩]

/-- The first row is kept twice, before and after its robot goes around, and put back into the column, which
fails, and into the second row, which goes on from there. -/
private def exchange : List Step :=
  [.take 0 "a".toList, .act 0 .light, .take 0 "a".toList, .act 0 .forward, .act 0 .forward, .take 0 "b".toList,
    .act 0 .light, .restore 1 "a".toList, .restore 2 "a".toList, .act 2 .forward, .restore 1 "c".toList]

private def leftWorlds : List World :=
  [⟨⟨["O.".toList]⟩, 0, 1, .right⟩, ⟨⟨["x".toList, "#".toList]⟩, 1, 0, .up⟩, ⟨⟨["Ox".toList]⟩, 0, 0, .right⟩]

private def litCorner : Snapshot := ⟨⟨["Ox".toList]⟩, 0, 1, .right⟩

/-- The second row takes over the lit lamp of the first. The two names keep equal snapshots, one of them taken
over an older one. -/
theorem consistent_in_any_order_of_exchange :
    let reached := exchange.foldl after (ofWorlds threeWorlds)
    (∀ world ∈ threeWorlds, world.SetUp) ∧ (∀ step ∈ exchange, step.index < threeWorlds.length) ∧
      reached.worlds = leftWorlds ∧ reached.slot? "a".toList = some litCorner ∧
      KeepsLast (ofWorlds threeWorlds) exchange "a".toList (reached.slot? "a".toList) ∧
      reached.fault? (.restore 1 "a".toList) ≠ none ∧ reached.after (.restore 1 "a".toList) = reached ∧
      (reached.after (.restore 2 "b".toList)).worlds[2]?.map World.snapshot = some litCorner ∧
      reached.sameSlots "a".toList "b".toList = true ∧
      reached.answers (.restore 2 "a".toList :: exchange) =
        reached.answers (.restore 2 "b".toList :: exchange) := by
  have setUp : ∀ world ∈ threeWorlds, world.SetUp := by
    simp only [World.setUp_iff_valid, threeWorlds, List.forall_mem_cons]
    exact ⟨⟨by decide, by decide, by decide⟩, ⟨by decide, by decide, by decide⟩,
      ⟨by decide, by decide, by decide⟩, List.forall_mem_nil _⟩
  have among : ∀ step ∈ exchange, step.index < threeWorlds.length := by decide
  have worlds : (exchange.foldl after (ofWorlds threeWorlds)).worlds = leftWorlds := by decide +kernel
  have keptA : (exchange.foldl after (ofWorlds threeWorlds)).slot? "a".toList = some litCorner := by
    decide +kernel
  have keptB : (exchange.foldl after (ofWorlds threeWorlds)).slot? "b".toList = some litCorner := by
    decide +kernel
  obtain ⟨_, _, _, keeps, restores, interchange⟩ := consistent_in_any_order setUp exchange among
  have column := congrArg (·[1]?) worlds
  have second := congrArg (·[2]?) worlds
  obtain ⟨fails, unchanged, _⟩ := restores 1 "a".toList _ _ column keptA
  obtain ⟨failsNot, _, replaced⟩ := restores 2 "b".toList _ _ second keptB
  have failed := fails.mpr (by decide)
  have done := not_not.mp fun fault => failsNot.mp fault (by decide)
  have same : (exchange.foldl after (ofWorlds threeWorlds)).sameSlots "a".toList "b".toList = true := by
    rw [sameSlots, keptA, keptB]
    exact beq_self_eq_true litCorner
  obtain ⟨_, alike⟩ := interchange 2 "a".toList "b".toList _ _ same second keptA (by decide)
  exact ⟨setUp, among, worlds, keptA, keeps _, failed, unchanged failed, (replaced done).1, same, alike exchange⟩

end Bench

end Lamplighter
