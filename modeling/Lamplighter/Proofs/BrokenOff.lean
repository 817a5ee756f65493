import Lamplighter.CommandLine.Command
import Lamplighter.Proofs.SettingSources

/-! # When the command is broken off

The command ends with status 0 or 2, or it is broken off by a fault that it does not report. If all
files that the command line names are texts, there are six such faults: a settings file without a
content, one with too long an integer or too deep a container, one that holds a value without members
while a setting is looked for in it, a limit without a content, and a map or a program without a
content. Each of them counts only where the command gets to it, so a fault that is reported before
hides it. The main statement says that these are all.
-/

namespace Lamplighter.CommandLine

/-! ## Files that are texts -/

/-- The text of a file, with its line breaks made alike. -/
def Holds (files : Files) (path : Path) (text : Text) : Prop :=
  ∃ bytes decoded, files path = .ok bytes ∧ Text.Utf8.decode bytes = .ok decoded ∧
    text = Text.unifyNewlines decoded

/-- Whether a file can be read and is a text. -/
def Legible (files : Files) (path : Path) : Prop := ∃ text, Holds files path text

theorem Holds.readConfigText {files : Files} {path : Path} {text : Text}
    (held : Holds files path text) : readConfigText files path = .ok text := by
  obtain ⟨bytes, decoded, found, read, rfl⟩ := held
  simp [CommandLine.readConfigText, found, read]

theorem legible_iff {files : Files} {path : Path} :
    Legible files path ↔ (readConfigText files path).isOk = true := by
  constructor
  · rintro ⟨text, held⟩
    rw [held.readConfigText]
    rfl
  · intro read
    cases found : files path with
    | error fault => cases fault <;> simp [readConfigText, found, Except.isOk, Except.toBool] at read
    | ok bytes =>
      cases decoded : Text.Utf8.decode bytes with
      | error fault => simp [readConfigText, found, decoded, Except.isOk, Except.toBool] at read
      | ok text => exact ⟨_, bytes, text, found, decoded, rfl⟩

instance (files : Files) (path : Path) : Decidable (Legible files path) :=
  decidable_of_iff _ legible_iff.symm

theorem Holds.readLines {files : Files} {path : Path} {text : Text}
    (held : Holds files path text) : readLines files path = .ok (Text.lines text) := by
  obtain ⟨bytes, decoded, found, read, rfl⟩ := held
  simp [CommandLine.readLines, found, read]

/-! ## The faults -/

/-- The value that a request takes its settings from: the one in its settings file, and without one a
value with no members. -/
inductive Request.Consults (host : Host) (files : Files) (request : Request) : Json → Prop
  | nothing (unnamed : request.config = none) : Request.Consults host files request (.object [])
  | named {path : Path} {text : Text} {file : Json} (named : request.config = some (.content path))
      (held : Holds files path text) (read : Json.read host.containers text = .ok file) :
      Request.Consults host files request file

/-- Why no value is taken from the settings file of a request. -/
inductive Request.Unread (host : Host) (files : Files) (request : Request) : Abort → Prop
  | blankConfig (blank : request.config = some .blank) : Request.Unread host files request .blankConfig
  | digits {path : Path} {text : Text} {count : Nat} (named : request.config = some (.content path))
      (held : Holds files path text) (long : Json.read host.containers text = .error (.digits count)) :
      Request.Unread host files request (.digits count)
  | tooDeep {path : Path} {text : Text} {container : Json.Container}
      (named : request.config = some (.content path)) (held : Holds files path text)
      (deep : Json.read host.containers text = .error (.tooDeep container)) :
      Request.Unread host files request (.tooDeep container)

/-- What breaks a request off where all files are texts. -/
inductive Request.Breaks (host : Host) (files : Files) (request : Request) : Abort → Prop
  | unread {abort : Abort} (unread : request.Unread host files abort) : Request.Breaks host files request abort
  | notObject {file : Json} (consulted : request.Consults host files file) (other : ¬ HasMembers file)
      (left : request.LeavesOpen) : Request.Breaks host files request (.notObject file)
  | blankLimit {file : Json} {choice : Choice} (consulted : request.Consults host files file)
      (chosen : request.Chooses file choice) (blank : choice.MeetsBlank) :
      Request.Breaks host files request .blankLimit
  | blankPath {file : Json} {choice : Choice} {settings : Settings}
      (consulted : request.Consults host files file) (chosen : request.Chooses file choice)
      (settled : choice.Settles settings)
      (blank : request.map = some .blank ∨ request.program = some .blank) :
      Request.Breaks host files request .blankPath

/-- What a request needs to be broken off by no other fault: its map and its program are given, and
all its files are texts. -/
structure Request.OnTexts (files : Files) (request : Request) : Prop where
  map_given : request.map ≠ none
  program_given : request.program ≠ none
  legible : ∀ path ∈ request.paths, Legible files path

/-! ## The settings file -/

/-- The value that a request takes its settings from, as the command reads it. -/
def Request.consult (host : Host) (files : Files) (request : Request) : Except Failure Json :=
  match request.config with
  | none => .ok (Json.object [])
  | some .blank => .error (.aborted .blankConfig)
  | some (.content path) => readConfig host files path

def readFailure (path : Path) (text : Text) : Json.ReadFault → Failure
  | .digits count => .aborted (.digits count)
  | .tooDeep container => .aborted (.tooDeep container)
  | .unexpected expected left =>
    let problem := Json.describe text expected left
    .refused s!"Config file is not valid JSON: {path.shown}: {problem}"

def ConfigFault.failure : ConfigFault → Failure
  | .notObject value => .aborted (.notObject value)
  | .blankLimit => .aborted .blankLimit
  | fault => .refused fault.message

theorem readSettings_eq (host : Host) (files : Files) (request : Request) :
    readSettings host files request =
      request.consult host files >>= fun file => (request.settings file).mapError ConfigFault.failure := by
  unfold readSettings Request.consult
  rcases request.config with _ | _ | path
  · rcases found : request.settings (.object []) with (_ | _ | _ | _ | _) | _ <;>
      simp only [bind, Except.bind, found] <;> rfl
  · rfl
  · rcases read : readConfig host files path with _ | file
    · simp only [bind, Except.bind, read]
    · rcases found : request.settings file with (_ | _ | _ | _ | _) | _ <;>
        simp only [bind, Except.bind, read, found] <;> rfl

theorem ConfigFault.failure_eq_aborted_iff {fault : ConfigFault} {abort : Abort} :
    fault.failure = .aborted abort ↔
      (∃ value, fault = .notObject value ∧ abort = .notObject value) ∨
        fault = .blankLimit ∧ abort = .blankLimit := by
  cases fault <;> simp [ConfigFault.failure, eq_comm]

section SettingsFile

variable {host : Host} {files : Files} {request : Request}

theorem mem_paths_of_named {path : Path}
    (named : request.config = some (.content path) ∨ request.map = some (.content path) ∨
      request.program = some (.content path)) : path ∈ request.paths := by
  rcases named with named | named | named <;> simp [Request.paths, named, Operand.content?]

theorem Holds.readConfig {path : Path} {text : Text} (held : Holds files path text) :
    readConfig host files path = (Json.read host.containers text).mapError (readFailure path text) := by
  simp only [CommandLine.readConfig, held.readConfigText, bind, Except.bind]
  rcases Json.read host.containers text with (_ | _ | _) | _ <;> rfl

theorem Request.OnTexts.consult_eq_ok_iff (texts : request.OnTexts files) {file : Json} :
    request.consult host files = .ok file ↔ request.Consults host files file := by
  unfold Request.consult
  constructor
  · intro consulted
    rcases config : request.config with _ | _ | path
    · simp only [config, Except.ok.injEq] at consulted
      exact consulted ▸ .nothing config
    · simp [config] at consulted
    · obtain ⟨text, held⟩ := texts.legible path (mem_paths_of_named (.inl config))
      simp only [config, held.readConfig] at consulted
      cases read : Json.read host.containers text with
      | ok value =>
        simp only [read, Except.mapError, Except.ok.injEq] at consulted
        exact consulted ▸ .named config held read
      | error fault => simp [read, Except.mapError] at consulted
  · rintro (unnamed | ⟨named, held, read⟩)
    · simp [unnamed]
    · simp [named, held.readConfig, read, Except.mapError]

theorem Request.OnTexts.consult_eq_aborted_iff (texts : request.OnTexts files) {abort : Abort} :
    request.consult host files = .error (.aborted abort) ↔ request.Unread host files abort := by
  unfold Request.consult
  constructor
  · intro unread
    rcases config : request.config with _ | _ | path
    · simp [config] at unread
    · simp only [config, Except.error.injEq, Failure.aborted.injEq] at unread
      exact unread ▸ .blankConfig config
    · obtain ⟨text, held⟩ := texts.legible path (mem_paths_of_named (.inl config))
      simp only [config, held.readConfig] at unread
      rcases read : Json.read host.containers text with (_ | count | container) | value <;>
        simp only [read, Except.mapError, readFailure, Except.error.injEq, Failure.aborted.injEq,
          reduceCtorEq] at unread
      -- A text that is no value is refused, so only the two limits of the reader are left.
      · exact unread ▸ .digits config held read
      · exact unread ▸ .tooDeep config held read
  · rintro (blank | ⟨named, held, long⟩ | ⟨named, held, deep⟩)
    · simp [blank]
    · simp [named, held.readConfig, long, Except.mapError, readFailure]
    · simp [named, held.readConfig, deep, Except.mapError, readFailure]

theorem Request.OnTexts.readSettings_eq_ok_iff (texts : request.OnTexts files)
    {settings : Settings} :
    readSettings host files request = .ok settings ↔
      ∃ file choice, request.Consults host files file ∧ request.Chooses file choice ∧
        choice.Settles settings := by
  rw [readSettings_eq, bind_eq_ok_iff]
  constructor
  · rintro ⟨file, consulted, found⟩
    obtain ⟨choice, chosen, settled⟩ :=
      Request.settings_eq_ok_iff.mp (mapError_eq_ok_iff.mp found)
    exact ⟨file, choice, texts.consult_eq_ok_iff.mp consulted, chosen, settled⟩
  · rintro ⟨file, choice, consulted, chosen, settled⟩
    exact ⟨file, texts.consult_eq_ok_iff.mpr consulted,
      mapError_eq_ok_iff.mpr (Request.settings_eq_ok_iff.mpr ⟨choice, chosen, settled⟩)⟩

/-- Up to its settings a request is broken off by its settings file or by a blank limit. -/
theorem Request.OnTexts.breaks_of_readSettings (texts : request.OnTexts files) {abort : Abort}
    (failed : readSettings host files request = .error (.aborted abort)) :
    request.Breaks host files abort := by
  rw [readSettings_eq, bind_eq_error_iff] at failed
  rcases failed with unread | ⟨file, consulted, failed⟩
  · exact .unread (texts.consult_eq_aborted_iff.mp unread)
  have consulted := texts.consult_eq_ok_iff.mp consulted
  obtain ⟨fault, found, same⟩ := mapError_eq_error_iff.mp failed
  rcases ConfigFault.failure_eq_aborted_iff.mp same with ⟨value, rfl, rfl⟩ | ⟨rfl, rfl⟩
  · obtain ⟨rfl, other, left⟩ := Request.settings_eq_notObject_iff.mp found
    exact .notObject consulted other left
  · obtain ⟨choice, chosen, blank⟩ := Request.settings_eq_blankLimit_iff.mp found
    exact .blankLimit consulted chosen blank

theorem Request.OnTexts.readSettings_of_fault (texts : request.OnTexts files) {file : Json}
    {fault : ConfigFault} (consulted : request.Consults host files file)
    (found : request.settings file = .error fault) :
    readSettings host files request = .error fault.failure := by
  rw [readSettings_eq, bind_eq_error_iff]
  exact .inr ⟨file, texts.consult_eq_ok_iff.mpr consulted,
    mapError_eq_error_iff.mpr ⟨fault, found, rfl⟩⟩

end SettingsFile

/-! ## The map and the program -/

/-- A map or a program that is given and a text is read, unless it has no content. -/
theorem readNamed_cases {files : Files} {path : Option (Operand Path)} (given : path ≠ none)
    (legible : ∀ named, path = some (.content named) → Legible files named) :
    path = some .blank ∧ readNamed files path = .error (.aborted .blankPath) ∨
      path ≠ some .blank ∧ ∃ lines, readNamed files path = .ok lines := by
  rcases path with _ | _ | named
  · exact absurd rfl given
  · exact .inl ⟨rfl, rfl⟩
  · obtain ⟨text, held⟩ := legible named rfl
    exact .inr ⟨nofun, _, held.readLines⟩

/-! ## The whole command -/

section Perform

variable {host : Host} {files : Files} {request : Request} {abort : Abort}

theorem Request.OnTexts.map_cases (texts : request.OnTexts files) :
    request.map = some .blank ∧ readNamed files request.map = .error (.aborted .blankPath) ∨
      request.map ≠ some .blank ∧ ∃ lines, readNamed files request.map = .ok lines :=
  readNamed_cases texts.map_given fun path named =>
    texts.legible path (mem_paths_of_named (.inr (.inl named)))

theorem Request.OnTexts.program_cases (texts : request.OnTexts files) :
    request.program = some .blank ∧ readNamed files request.program = .error (.aborted .blankPath) ∨
      request.program ≠ some .blank ∧ ∃ lines, readNamed files request.program = .ok lines :=
  readNamed_cases texts.program_given fun path named =>
    texts.legible path (mem_paths_of_named (.inr (.inr named)))

theorem Request.OnTexts.breaks_of_perform (texts : request.OnTexts files)
    (failed : request.perform host files = .error (.aborted abort)) : request.Breaks host files abort := by
  rcases bind_eq_error_iff.mp failed with failed | ⟨settings, found, failed⟩
  · exact texts.breaks_of_readSettings failed
  obtain ⟨file, choice, consulted, chosen, settled⟩ := texts.readSettings_eq_ok_iff.mp found
  rcases bind_eq_error_iff.mp failed with unread | ⟨rows, _, failed⟩
  · rcases texts.map_cases with ⟨blank, broken⟩ | ⟨_, _, read⟩
    · cases broken.symm.trans unread
      exact .blankPath consulted chosen settled (.inl blank)
    · cases read.symm.trans unread
  rcases bind_eq_error_iff.mp failed with unread | ⟨program, _, failed⟩
  · rcases texts.program_cases with ⟨blank, broken⟩ | ⟨_, _, read⟩
    · cases broken.symm.trans unread
      exact .blankPath consulted chosen settled (.inr blank)
    · cases read.symm.trans unread
  -- A fault of the map or of the program is reported, so nothing is left to break the request off.
  rcases bind_eq_error_iff.mp failed with failed | ⟨_, _, failed⟩
  · obtain ⟨_, _, same⟩ := mapError_eq_error_iff.mp failed
    cases same
  · cases failed

theorem Request.OnTexts.perform_of_breaks (texts : request.OnTexts files)
    (breaks : request.Breaks host files abort) : request.perform host files = .error (.aborted abort) := by
  refine bind_eq_error_iff.mpr ?_
  cases breaks with
  | unread unread =>
    refine .inl ?_
    rw [readSettings_eq, bind_eq_error_iff]
    exact .inl (texts.consult_eq_aborted_iff.mpr unread)
  | notObject consulted other left =>
    exact .inl (texts.readSettings_of_fault consulted
      (Request.settings_eq_notObject_iff.mpr ⟨rfl, other, left⟩))
  | blankLimit consulted chosen blank =>
    exact .inl (texts.readSettings_of_fault consulted
      (Request.settings_eq_blankLimit_iff.mpr ⟨_, chosen, blank⟩))
  | blankPath consulted chosen settled blank =>
    refine .inr ⟨_, texts.readSettings_eq_ok_iff.mpr ⟨_, _, consulted, chosen, settled⟩, ?_⟩
    -- The map is read first, so a blank program is met only behind a map with a content.
    rcases texts.map_cases with ⟨_, unread⟩ | ⟨contentful, rows, read⟩
    · exact bind_eq_error_iff.mpr (.inl unread)
    · rcases texts.program_cases with ⟨_, unread⟩ | ⟨alsoContentful, _⟩
      · exact bind_eq_error_iff.mpr (.inr ⟨rows, read, bind_eq_error_iff.mpr (.inl unread)⟩)
      · exact absurd blank (not_or.mpr ⟨contentful, alsoContentful⟩)

/-- A request that comes to its end does so with status 0. -/
theorem status?_of_perform {outcome : Outcome} (ended : request.perform host files = .ok outcome) :
    outcome.status? = some 0 := by
  obtain ⟨_, _, ended⟩ := bind_eq_ok_iff.mp ended
  obtain ⟨_, _, ended⟩ := bind_eq_ok_iff.mp ended
  obtain ⟨_, _, ended⟩ := bind_eq_ok_iff.mp ended
  obtain ⟨_, _, ended⟩ := bind_eq_ok_iff.mp ended
  cases ended
  rfl

/-- A request is read only if it has a map and a program. -/
theorem given_of_read {arguments : List Text} (read : Request.read arguments = .ok request) :
    request.map ≠ none ∧ request.program ≠ none := by
  obtain ⟨_, _, taken⟩ := bind_eq_ok_iff.mp read
  obtain ⟨⟨other, extras⟩, _, checked⟩ := bind_eq_ok_iff.mp taken
  dsimp only at checked
  split at checked
  case isTrue => cases checked
  case isFalse complete =>
    split at checked
    case isTrue => cases checked
    case isFalse =>
      cases checked
      constructor
      · intro unset
        simp [Request.missing, unset] at complete
      · intro unset
        simp [Request.missing, unset] at complete

end Perform

/-- Whether an outcome has one of the two statuses of a command. -/
def Outcome.Reported (outcome : Outcome) : Prop :=
  outcome.status? = some 0 ∨ outcome.status? = some 2

theorem not_reported_aborted (abort : Abort) : ¬ (Outcome.aborted abort).Reported := by
  rintro (status | status) <;> cases status

def Request.outcome (host : Host) (files : Files) (request : Request) : Outcome :=
  match request.perform host files with
  | .ok outcome => outcome
  | .error failure => failure.outcome

theorem run_of_read {host : Host} {files : Files} {arguments : List Text} {request : Request}
    (read : Request.read arguments = .ok request) : run host files arguments = request.outcome host files := by
  simp only [run, read]
  rfl

theorem reported_of_read_error {host : Host} {files : Files} {arguments : List Text} {halt : Halt}
    (refused : Request.read arguments = .error halt) : (run host files arguments).Reported := by
  simp only [run, refused]
  cases halt with
  | help => exact .inl rfl
  | usage fault => exact .inr rfl

/-- A request is reported, or it is broken off by its fault. -/
theorem Request.outcome_cases (host : Host) (files : Files) (request : Request) :
    (request.outcome host files).Reported ∧ (∀ abort, request.perform host files ≠ .error (.aborted abort)) ∨
      ∃ abort, request.perform host files = .error (.aborted abort) ∧
        request.outcome host files = .aborted abort := by
  unfold Request.outcome
  rcases performed : request.perform host files with (message | cause | abort) | outcome
  · exact .inl ⟨.inr rfl, nofun⟩
  · exact .inl ⟨.inr rfl, nofun⟩
  · exact .inr ⟨abort, rfl, rfl⟩
  · exact .inl ⟨.inl (status?_of_perform performed), nofun⟩

/-- The command ends by itself, or it is broken off by the fault of the request that it reads. -/
theorem run_cases (host : Host) (files : Files) (arguments : List Text) :
    (run host files arguments).Reported ∧
        (∀ request abort, Request.read arguments = .ok request →
          request.perform host files ≠ .error (.aborted abort)) ∨
      ∃ request abort, Request.read arguments = .ok request ∧
        request.perform host files = .error (.aborted abort) ∧ run host files arguments = .aborted abort := by
  cases read : Request.read arguments with
  | error halt => exact .inl ⟨reported_of_read_error read, fun _ _ other => nomatch other⟩
  | ok request =>
    rw [run_of_read read]
    rcases request.outcome_cases host files with ⟨reported, unbroken⟩ | ⟨abort, broken, ended⟩
    · refine .inl ⟨reported, fun other abort same => ?_⟩
      cases same
      exact unbroken abort
    · exact .inr ⟨request, abort, rfl, broken, ended⟩

/-- If every file that the command line names is a text, the command is broken off exactly by the
faults of `Request.Breaks`, and without one of them it ends with status 0 or 2. -/
theorem run_reported_iff_unbroken (host : Host) (files : Files) (arguments : List Text)
    (legible : ∀ request, Request.read arguments = .ok request →
      ∀ path ∈ request.paths, Legible files path) :
    (∀ abort, run host files arguments = .aborted abort ↔
      ∃ request, Request.read arguments = .ok request ∧ request.Breaks host files abort) ∧
    ((run host files arguments).Reported ↔
      ∀ request abort, Request.read arguments = .ok request → ¬ request.Breaks host files abort) := by
  have onTexts : ∀ request, Request.read arguments = .ok request → request.OnTexts files :=
    fun request read =>
      ⟨(given_of_read read).1, (given_of_read read).2, legible request read⟩
  rcases run_cases host files arguments with ⟨reported, unbroken⟩ | ⟨request, abort, read, broken, ended⟩
  · have none_breaks : ∀ request abort, Request.read arguments = .ok request →
        ¬ request.Breaks host files abort := fun request abort read breaks =>
      unbroken request abort read ((onTexts request read).perform_of_breaks breaks)
    refine ⟨fun abort => ⟨fun ended => ?_, fun ⟨request, read, breaks⟩ => ?_⟩,
      fun _ => none_breaks, fun _ => reported⟩
    · exact absurd (ended ▸ reported) (not_reported_aborted abort)
    · exact absurd breaks (none_breaks request abort read)
  · have breaks := (onTexts request read).breaks_of_perform broken
    refine ⟨fun other => ⟨fun same => ?_, fun ⟨_, alsoRead, alsoBreaks⟩ => ?_⟩,
      fun reported => ?_, fun unbroken => absurd breaks (unbroken request abort read)⟩
    · cases ended.symm.trans same
      exact ⟨request, read, breaks⟩
    · cases read.symm.trans alsoRead
      cases broken.symm.trans ((onTexts request read).perform_of_breaks alsoBreaks)
      exact ended
    · exact absurd (ended ▸ reported) (not_reported_aborted abort)

/-- A folder with a map, a program and an array for its settings. -/
def arrayFolder : Files :=
  (Folder.ofList ([("map.txt", "R..\n"), ("program.txt", "LIGHT\n"), ("config.json", "[]")].map
    fun file => (file.1.toList, file.2.toList.map fun c => c.toNat.toUInt8))).read

/-- A command line for the folder that leaves all settings open. -/
def openArguments : List Text :=
  ["--map", "map.txt", "--program", "program.txt", "--config", "config.json"].map String.toList

/-- A command line for the folder that gives all settings. -/
def fullArguments : List Text :=
  openArguments ++ ["--max-depth", "3", "--max-steps=3", "--no-validate-nesting",
    "--reject-recursion"].map String.toList

def folderRequest : Request :=
  { map := some (.content (.ofText "map.txt".toList)),
    program := some (.content (.ofText "program.txt".toList)),
    config := some (.content (.ofText "config.json".toList)) }

/-- An array is no settings, but nothing is looked for in it where all settings are given. -/
theorem run_reported_iff_unbroken_of_full :
    (∀ request, Request.read fullArguments = .ok request →
      ∀ path ∈ request.paths, Legible arrayFolder path) ∧
    (run .usual arrayFolder fullArguments).status? = some 0 ∧
    ∀ request abort, Request.read fullArguments = .ok request →
      ¬ request.Breaks .usual arrayFolder abort := by
  have legible : ∀ request, Request.read fullArguments = .ok request →
      ∀ path ∈ request.paths, Legible arrayFolder path := by
    intro request read
    have known : Request.read fullArguments = .ok
        { folderRequest with
          maxDepth := some (.content 3), maxSteps := some (.content 3),
          validateNesting := some false, rejectRecursion := some true } := by
      decide +kernel
    cases known.symm.trans read
    decide +kernel
  have status : (run .usual arrayFolder fullArguments).status? = some 0 := by decide +kernel
  exact ⟨legible, status, (run_reported_iff_unbroken _ _ _ legible).2.mp (.inl status)⟩

/-- With a setting left open the array breaks the command off, though all files are texts. -/
theorem run_array_broken_off :
    (∀ request, Request.read openArguments = .ok request →
      ∀ path ∈ request.paths, Legible arrayFolder path) ∧
    run .usual arrayFolder openArguments = .aborted (.notObject (.array [])) ∧
    ¬ (run .usual arrayFolder openArguments).Reported := by
  have broken : run .usual arrayFolder openArguments = .aborted (.notObject (.array [])) := by rfl
  refine ⟨?_, broken, broken ▸ not_reported_aborted _⟩
  intro request read
  have known : Request.read openArguments = .ok folderRequest := by decide +kernel
  cases known.symm.trans read
  decide +kernel

end Lamplighter.CommandLine
