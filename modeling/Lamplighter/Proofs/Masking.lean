import Lamplighter.Proofs.Completion
import Lamplighter.Proofs.ReadBack
import Mathlib.Algebra.Order.Ring.Int

/-! # Settings on the command line mask the settings file

A setting that the command line gives is not looked up, so what the settings file has under its key does
not show: neither in what the command does nor in the faults it reports and their order. Two settings files
that agree on the keys of the open settings therefore lead to the same outcome. This is about files that
the reader takes as objects. A file is read as a whole before any setting is looked up, so a value that the
reader cannot take, such as an integer that is too long, breaks the command off under a masked key too.
-/

namespace Lamplighter.CommandLine

/-! ## What a request asks for besides its settings file -/

def Request.unconfigured (request : Request) : Request := { request with config := none }

/-- Whether two objects have the same value under a key, or both have none. -/
def SameEntry (key : Text) (members others : List (List Nat × Json)) : Prop :=
  Json.member? key members = Json.member? key others

/-- Two objects that agree on the settings that a request leaves open. -/
structure Request.AgreeOnOpen (request : Request) (members others : List (List Nat × Json)) : Prop where
  depth : request.maxDepth = none → SameEntry "max_depth".toList members others
  steps : request.maxSteps = none → SameEntry "max_steps".toList members others
  nesting : request.validateNesting = none → SameEntry "validate_nesting".toList members others
  recursion : request.rejectRecursion = none → SameEntry "reject_recursion".toList members others

/-- Two command lines for the same map and the same program that give the same settings. Either both are
wrong or ask for help in the same way, or each takes its open settings from an object of its own, and the
objects agree on them. -/
inductive Alike (host : Host) (files others : Files) (arguments otherArguments : List Text) : Prop
  | halted {halt : Halt} (read : Request.read arguments = .error halt)
      (otherRead : Request.read otherArguments = .error halt) :
      Alike host files others arguments otherArguments
  | asked {request other : Request} {members otherMembers : List (List Nat × Json)}
      (read : Request.read arguments = .ok request) (otherRead : Request.read otherArguments = .ok other)
      (same : request.unconfigured = other.unconfigured)
      (inputs : ∀ path, request.map = some (.content path) ∨ request.program = some (.content path) →
        files path = others path)
      (consulted : request.Consults host files (.object members))
      (otherConsulted : other.Consults host others (.object otherMembers))
      (agree : request.AgreeOnOpen members otherMembers) : Alike host files others arguments otherArguments

/-! ## Finding the settings -/

section Choose

variable {request other : Request} {members others : List (List Nat × Json)}

/-- A setting does not depend on what stands under its key if it is given. -/
theorem resolve_congr {α : Type} {given : Option α} {key : Text}
    (agree : given = none → SameEntry key members others)
    (read : Json → Except ConfigFault α) (default : α) :
    resolve given (.object members) key read default = resolve given (.object others) key read default := by
  cases given with
  | some value => rfl
  | none =>
    have entry : Json.member? key members = Json.member? key others := agree rfl
    simp only [resolve, lookUp, entry]

theorem Request.choose_congr (agree : request.AgreeOnOpen members others) :
    request.choose (.object members) = request.choose (.object others) := by
  unfold Request.choose
  rw [resolve_congr agree.depth, resolve_congr fun unset => agree.steps (Option.map_eq_none_iff.mp unset),
    resolve_congr agree.nesting, resolve_congr agree.recursion]

theorem Request.settings_unconfigured (request : Request) (file : Json) :
    request.unconfigured.settings file = request.settings file := rfl

theorem Request.settings_congr (same : request.unconfigured = other.unconfigured)
    (agree : request.AgreeOnOpen members others) :
    request.settings (.object members) = other.settings (.object others) := by
  calc request.settings (.object members)
      = request.settings (.object others) := by
        rw [Request.settings_eq, Request.settings_eq, Request.choose_congr agree]
    _ = other.settings (.object others) := by
        rw [← request.settings_unconfigured, same, other.settings_unconfigured]

end Choose

/-! ## The whole command -/

section Command

variable {host : Host} {files others : Files} {request other : Request}

theorem Request.Consults.consult {file : Json} (consulted : request.Consults host files file) :
    request.consult host files = .ok file := by
  unfold Request.consult
  cases consulted with
  | nothing unnamed => rw [unnamed]
  | named named held read =>
    rw [named]
    exact held.readConfig.trans (congrArg (Except.mapError _) read)

theorem Request.Consults.readSettings {file : Json} (consulted : request.Consults host files file) :
    readSettings host files request = (request.settings file).mapError ConfigFault.failure := by
  rw [readSettings_eq, consulted.consult]
  rfl

/-- A fault of the settings file ends the request before anything else is looked at. -/
theorem Request.perform_of_consult_error {failure : Failure}
    (failed : request.consult host files = .error failure) :
    request.perform host files = .error failure := by
  refine bind_eq_error_iff.mpr (.inl ?_)
  rw [readSettings_eq]
  exact bind_eq_error_iff.mpr (.inl failed)

/-- The map and the program of a request are read from nothing but their files. -/
theorem readNamed_congr {path : Option (Operand Path)} (given : path ≠ none)
    (inputs : ∀ named, path = some (.content named) → files named = others named) :
    readNamed files path = readNamed others path := by
  rcases path with _ | _ | named
  · exact absurd rfl given
  · rfl
  · change readLines files named = readLines others named
    unfold readLines
    rw [inputs named rfl]

theorem Request.perform_congr (same : request.unconfigured = other.unconfigured)
    (settled : readSettings host files request = readSettings host others other)
    (map_read : readNamed files request.map = readNamed others request.map)
    (program_read : readNamed files request.program = readNamed others request.program) :
    request.perform host files = other.perform host others := by
  obtain ⟨sameMap, sameProgram, -, -, -, -, -, sameVerbose⟩ := Request.mk.inj same
  unfold Request.perform
  rw [settled, map_read, program_read, sameMap, sameProgram, sameVerbose]

theorem Alike.run_eq {arguments otherArguments : List Text}
    (alike : Alike host files others arguments otherArguments) :
    run host files arguments = run host others otherArguments := by
  cases alike with
  | @halted halt read otherRead =>
    unfold run
    rw [read, otherRead]
    cases halt <;> rfl
  | @asked request other _ _ read otherRead same inputs consulted otherConsulted agree =>
    obtain ⟨map_given, program_given⟩ := given_of_read read
    -- The settings files are read for the settings only, and these come out the same, faults included.
    have settled : readSettings host files request = readSettings host others other := by
      rw [consulted.readSettings, otherConsulted.readSettings, Request.settings_congr same agree]
    have performed := Request.perform_congr same settled
      (readNamed_congr map_given fun path named => inputs path (.inl named))
      (readNamed_congr program_given fun path named => inputs path (.inr named))
    rw [run_of_read read, run_of_read otherRead, Request.outcome, Request.outcome, performed]

/-- A request that comes to its end takes each setting from the command line, else from the object that it
consults, else from the defaults. -/
theorem Completion.chooses {file : Json} (completion : Completion host files request)
    (consulted : request.Consults host files file) :
    ∃ choice, request.Chooses file choice ∧ choice.Settles completion.settings := by
  have settled := completion.settled
  rw [consulted.readSettings] at settled
  exact Request.settings_eq_ok_iff.mp (mapError_eq_ok_iff.mp settled)

/-- What a settings file has under the keys of the settings that the command line gives does not show, and
no more does what it has under other keys: the command comes to the same outcome. If it ends well, each
setting is the one on the command line, else the one in the file, else the default. -/
theorem run_masks_given_settings {arguments otherArguments : List Text}
    (alike : Alike host files others arguments otherArguments) :
    run host files arguments = run host others otherArguments ∧
    ∀ request members, Request.read arguments = .ok request → request.Consults host files (.object members) →
      (run host files arguments).status? = some 0 →
        ∃ completion : Completion host files request, run host files arguments = completion.outcome ∧
          ∃ choice, request.Chooses (.object members) choice ∧ choice.Settles completion.settings := by
  refine ⟨alike.run_eq, fun request members read consulted success => ?_⟩
  obtain ⟨completion⟩ := (status?_eq_zero_iff read).mp success
  exact ⟨completion, completion.run_eq read, completion.chooses consulted⟩

end Command

private def settingsFolder (members : List (List Nat × Json)) : Files :=
  (Folder.ofList [("map.txt".toList, Text.Utf8.encode "R..\n".toList),
    ("program.txt".toList, Text.Utf8.encode "LIGHT\n".toList),
    ("config.json".toList, Text.Utf8.encode ((Json.object members).write 0 ++ ['\n']))]).read

private def depthArguments : List Text := openArguments ++ ["--max-depth", "3"].map String.toList

private def depthRequest : Request := { folderRequest with maxDepth := some (.content 3) }

private theorem stores_settingsFolder (members : List (List Nat × Json)) :
    Stores (settingsFolder members) (.ofText "config.json".toList)
      ((Json.object members).write 0 ++ ['\n']) := rfl

private theorem inputs_settingsFolder (members others : List (List Nat × Json)) (path : Path)
    (named : depthRequest.map = some (.content path) ∨ depthRequest.program = some (.content path)) :
    settingsFolder members path = settingsFolder others path := by
  rcases named with named | named
  · cases named
    rfl
  · cases named
    rfl

private theorem consults_settingsFolder {host : Host} {members : List (List Nat × Json)}
    (clear : '\r' ∉ (Json.object members).write 0)
    (read : Json.read host.containers ((Json.object members).write 0 ++ ['\n']) = .ok (.object members)) :
    depthRequest.Consults host (settingsFolder members) (.object members) :=
  .named rfl ((stores_settingsFolder members).holds_write clear) read

private def entry (key : String) (value : Json) : List Nat × Json := (key.toList.map Char.toNat, value)

/-- A mistyped limit on depth, and a check that is switched off. -/
private def textDepth : List (List Nat × Json) :=
  [entry "max_depth" (.ofText "deep".toList), entry "validate_nesting" (.bool false)]

/-- Another mistyped limit on depth, the same check switched off, and a key that is no setting. -/
private def flagDepth : List (List Nat × Json) :=
  [entry "validate_nesting" (.bool false), entry "speed" .null, entry "max_depth" (.bool true)]

private theorem read_depthArguments : Request.read depthArguments = .ok depthRequest := by decide +kernel

theorem run_masks_given_settings_of_mistyped :
    run .usual (settingsFolder textDepth) depthArguments =
      run .usual (settingsFolder flagDepth) depthArguments ∧
    ∃ completion : Completion .usual (settingsFolder textDepth) depthRequest,
      run .usual (settingsFolder textDepth) depthArguments = completion.outcome ∧
        ∃ choice, depthRequest.Chooses (.object textDepth) choice ∧ choice.Settles completion.settings := by
  have consulted : depthRequest.Consults .usual (settingsFolder textDepth) (.object textDepth) :=
    consults_settingsFolder (by decide) (by rfl)
  have otherConsulted : depthRequest.Consults .usual (settingsFolder flagDepth) (.object flagDepth) :=
    consults_settingsFolder (by decide) (by rfl)
  have agree : depthRequest.AgreeOnOpen textDepth flagDepth :=
    ⟨nofun, fun _ => by rfl, fun _ => by rfl, fun _ => by rfl⟩
  have success : (run .usual (settingsFolder textDepth) depthArguments).status? = some 0 := by decide +kernel
  obtain ⟨same, settled⟩ := run_masks_given_settings (.asked read_depthArguments read_depthArguments rfl
    (inputs_settingsFolder textDepth flagDepth) consulted otherConsulted agree)
  exact ⟨same, settled _ _ read_depthArguments consulted success⟩

private def depthFolder (limit : Int) : Files := settingsFolder [entry "max_depth" (.integer limit)]

private theorem run_depthFolder_of_long {host : Host} (roomy : 0 < host.containers) {limit : Int}
    (long : Text.digitLimit < (Nat.toDigits 10 limit.natAbs).length) :
    run host (depthFolder limit) depthArguments = .aborted (.digits (Nat.toDigits 10 limit.natAbs).length) := by
  have clear : '\r' ∉ (Json.object [entry "max_depth" (.integer limit)]).write 0 := by
    refine Json.return_not_mem_write_object ?_ ?_
    · rintro member (_ | ⟨_, ⟨⟩⟩)
      exact ⟨"max_depth".toList, rfl⟩
    · rintro member (_ | ⟨_, ⟨⟩⟩)
      exact Json.return_not_mem_integerText limit
  have held := (stores_settingsFolder [entry "max_depth" (.integer limit)]).holds_write clear
  have unread : depthRequest.consult host (depthFolder limit) =
      .error (.aborted (.digits (Nat.toDigits 10 limit.natAbs).length)) := by
    obtain ⟨room, wide⟩ := Nat.exists_eq_add_one.mpr roomy
    have stopped := Json.read_of_long "max_depth".toList long room
    rw [← wide] at stopped
    exact held.readConfig.trans (congrArg (Except.mapError _) stopped)
  rw [run_of_read read_depthArguments, Request.outcome, Request.perform_of_consult_error unread]
  rfl

private theorem length_toDigits_pow {exponent : Nat} (positive : 0 < exponent) :
    (Nat.toDigits 10 (10 ^ exponent : Int).natAbs).length = exponent + 1 := by
  rw [Int.natAbs_pow]
  apply Nat.le_antisymm
  · rw [Nat.length_toDigits_le_iff (by decide) (by omega)]
    exact Nat.pow_lt_pow_right (by decide) (by omega)
  · apply Nat.succ_le_of_lt
    rw [← not_le, Nat.length_toDigits_le_iff (by decide) positive]
    exact Nat.lt_irrefl _

/-- A limit on depth that is too long to be read breaks the command off, though the command line gives this
limit, the file is an object, and nothing else is different. -/
theorem run_shows_long_integer :
    Request.read depthArguments = .ok depthRequest ∧
    (∀ limit, Stores (depthFolder limit) (.ofText "config.json".toList)
      ((Json.object [("max_depth".toList.map Char.toNat, .integer limit)]).write 0 ++ ['\n'])) ∧
    (∀ limit other path, depthRequest.map = some (.content path) ∨
      depthRequest.program = some (.content path) → depthFolder limit path = depthFolder other path) ∧
    (run .usual (depthFolder 1) depthArguments).status? = some 0 ∧
    run .usual (depthFolder (10 ^ Text.digitLimit)) depthArguments =
      .aborted (.digits (Text.digitLimit + 1)) := by
  have length := length_toDigits_pow (show 0 < Text.digitLimit by decide)
  refine ⟨read_depthArguments, fun limit => stores_settingsFolder [entry "max_depth" (.integer limit)],
    fun limit other => inputs_settingsFolder _ _, by decide +kernel, ?_⟩
  rw [run_depthFolder_of_long (by decide) (by omega), length]

end Lamplighter.CommandLine
