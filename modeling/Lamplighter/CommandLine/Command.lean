import Lamplighter.CommandLine.SettingsFile
import Lamplighter.Json.Printer
import Lamplighter.Json.Reader
import Lamplighter.Session
import Lamplighter.Text.Lines
import Lamplighter.Text.Utf8

/-! # The command

The command reads its settings, a map and a program, runs the program and prints where the robot
stands, what the map looks like and how many steps it took. A wrong command line, a missing file, a
wrong entry in the settings file or bytes that are no text are refused with a message. A fault of the
map or of the program is printed as an error. A few faults, most of them in reading the settings
file, abort the command without a message of its own.
-/

namespace Lamplighter.CommandLine

/-- A fault that the command does not report itself. -/
inductive Abort where
  /-- The settings are no object. -/
  | notObject (value : Json)
  /-- The settings file is no text. -/
  | undecodable (fault : Text.Utf8.Fault)
  /-- An integer in the settings file has too many digits. -/
  | digits (count : Nat)
  /-- The settings file has a container inside too many others. -/
  | tooDeep (container : Json.Container)
  /-- The settings file is given without a content. -/
  | blankConfig
  /-- A limit is given without a content. -/
  | blankLimit
  /-- The map or the program is given without a content. -/
  | blankPath
  /-- The path of the settings file has a NUL character. -/
  | nulInPath
  /-- A path leads to a directory. -/
  | directory (path : Path)
  /-- A path leads through a file. -/
  | notDirectory (path : Path)
  /-- A path or a part of it takes too many bytes. -/
  | tooLong (path : Path)

def nulMessage : String := "embedded null byte"

def Abort.message : Abort → String
  | notObject value => (ConfigFault.notObject value).message
  | undecodable fault => fault.message
  | digits count =>
    s!"Exceeds the limit ({Text.digitLimit} digits) for integer string conversion: " ++
      s!"value has {count} digits; use sys.set_int_max_str_digits() to increase the limit"
  | tooDeep container =>
    s!"maximum recursion depth exceeded while decoding a JSON {container.word} from a unicode string"
  | blankConfig => "expected str, bytes or os.PathLike object, not list"
  | blankLimit => ConfigFault.blankLimit.message
  | blankPath => "'list' object has no attribute 'read_text'"
  | nulInPath => nulMessage
  | directory path => s!"[Errno 21] Is a directory: {path.text.quoted}"
  | notDirectory path => s!"[Errno 20] Not a directory: {path.text.quoted}"
  | tooLong path => s!"[Errno 36] File name too long: {path.text.quoted}"

/-- Why the command does not come to its end. -/
inductive Failure where
  | refused (message : String)
  | fault (cause : Fault)
  | aborted (abort : Abort)

/-- What the command comes to. -/
inductive Outcome where
  /-- The command ran: what it prints, and its exit status. -/
  | ended (output errors : String) (status : Nat)
  /-- The command line or a file was refused. -/
  | refused (message : String)
  /-- Help was asked for. -/
  | help
  /-- The command was broken off. -/
  | aborted (abort : Abort)

def usage : String :=
  "usage: lightbot [-h] --map MAP --program PROGRAM [--config CONFIG]\n" ++
  "                [--max-depth MAX_DEPTH] [--max-steps MAX_STEPS]\n" ++
  "                [--validate-nesting | --no-validate-nesting]\n" ++
  "                [--reject-recursion | --no-reject-recursion] [--verbose]\n"

def helpText : String :=
  usage ++
  "\n" ++
  "Run a LightBot program on a map\n" ++
  "\n" ++
  "options:\n" ++
  "  -h, --help            show this help message and exit\n" ++
  "  --map MAP             Map text file\n" ++
  "  --program PROGRAM     Program file, one instruction per line\n" ++
  "  --config CONFIG       JSON config file (CLI args override file values)\n" ++
  "  --max-depth MAX_DEPTH\n" ++
  "  --max-steps MAX_STEPS\n" ++
  "  --validate-nesting, --no-validate-nesting\n" ++
  "  --reject-recursion, --no-reject-recursion\n" ++
  "  --verbose             Log interpreter progress\n"

namespace Outcome

def output : Outcome → String
  | ended output _ _ => output
  | help => helpText
  | _ => ""

/-- What is printed as errors, after the usage if the command was refused. -/
def errors : Outcome → String
  | ended _ errors _ => errors
  | refused message => s!"lightbot: error: {message}\n"
  | _ => ""

/-- The exit status, if the command was not broken off. -/
def status? : Outcome → Option Nat
  | ended _ _ status => some status
  | refused _ => some 2
  | help => some 0
  | aborted _ => none

/-- Whether the command ended before it ran anything. -/
def exitedEarly : Outcome → Bool
  | refused _ | help => true
  | _ => false

end Outcome

/-- How much the process that runs the command has room for on its stack. -/
structure Host where
  /-- The most levels that an execution nests. -/
  stack : Nat
  /-- The most containers that stand inside each other in a settings file. -/
  containers : Nat
deriving DecidableEq, Repr

/-- A process with a stack of the usual size. The two numbers are not exact, since they depend on what else
is on the stack. -/
def Host.usual : Host := ⟨480, 980⟩

def readConfigText (files : Files) (path : Path) : Except Failure Text :=
  match files path with
  | .error .missing => .error (.refused s!"Config file not found: {path.shown}")
  | .error .directory => .error (.aborted (.directory path))
  | .error .notDirectory => .error (.aborted (.notDirectory path))
  | .error .tooLong => .error (.aborted (.tooLong path))
  | .error .nulInPath => .error (.aborted .nulInPath)
  | .ok bytes =>
    match Text.Utf8.decode bytes with
    | .error fault => .error (.aborted (.undecodable fault))
    | .ok text => .ok (Text.unifyNewlines text)

def readConfig (host : Host) (files : Files) (path : Path) : Except Failure Json := do
  let text ← readConfigText files path
  match Json.read host.containers text with
  | .ok value => .ok value
  | .error (.digits count) => .error (.aborted (.digits count))
  | .error (.tooDeep container) => .error (.aborted (.tooDeep container))
  | .error (.unexpected expected left) =>
    let problem := Json.describe text expected left
    .error (.refused s!"Config file is not valid JSON: {path.shown}: {problem}")

/-- The settings of a request, with those of its file. -/
def readSettings (host : Host) (files : Files) (request : Request) : Except Failure Settings := do
  let file ← match request.config with
    | none => .ok (Json.object [])
    | some .blank => .error (.aborted .blankConfig)
    | some (.content path) => readConfig host files path
  match request.settings file with
  | .ok settings => .ok settings
  | .error (.notObject value) => .error (.aborted (.notObject value))
  | .error .blankLimit => .error (.aborted .blankLimit)
  | .error fault => .error (.refused fault.message)

def readLines (files : Files) (path : Path) : Except Failure (List Text) :=
  match files path with
  | .error .missing => .error (.refused s!"File not found: {path.shown}")
  | .error .directory => .error (.aborted (.directory path))
  | .error .notDirectory => .error (.aborted (.notDirectory path))
  | .error .tooLong => .error (.aborted (.tooLong path))
  | .error .nulInPath => .error (.refused nulMessage)
  | .ok bytes =>
    match Text.Utf8.decode bytes with
    | .error fault => .error (.refused fault.message)
    | .ok text => .ok (Text.lines (Text.unifyNewlines text))

/-- The lines of the map or of the program that a request names. -/
def readNamed (files : Files) (path : Option (Operand Path)) : Except Failure (List Text) :=
  match path.getD (.content (Path.ofText [])) with
  | .blank => .error (.aborted .blankPath)
  | .content path => readLines files path

/-- The rows of a map: the lines without the blank ones at the end. -/
def mapRows (lines : List Text) : List Text :=
  (lines.reverse.dropWhile fun line => (Text.trim line).isEmpty).reverse

/-- Whether a line without the blanks around it is an instruction: not empty and no comment. -/
def isInstruction (line : Text) : Bool :=
  match line with
  | [] => false
  | c :: _ => c != '#'

/-- The instructions of a program: its lines without the blanks around them, and without empty lines
and comments. -/
def instructions (lines : List Text) : List Text := (lines.map Text.trim).filter isInstruction

/-- What is printed of a session after a run. -/
def summaryOf (session : Session) (steps : Nat) : Json :=
  .object [
    ("position".toList.map Char.toNat, .array [.integer session.world.col, .integer session.world.row]),
    ("map".toList.map Char.toNat, .array (session.world.grid.draw.map Json.ofText)),
    ("steps".toList.map Char.toNat, .integer steps)]

def finishedLine (steps : Nat) : String :=
  s!"INFO lightbot.cli: Program finished after {steps} step(s)\n"

def runProgram (host : Host) (settings : Settings) (rows program : List Text) :
    Except Fault (Session × Nat) := do
  let session ← (Session.start settings host.stack rows).mapError Fault.map
  let report := session.run program
  let summary ← report.result
  .ok (report.session, summary.steps)

def Request.perform (host : Host) (files : Files) (request : Request) : Except Failure Outcome := do
  let settings ← readSettings host files request
  let rows ← readNamed files request.map
  let program ← readNamed files request.program
  let (session, steps) ←
    (runProgram host settings (mapRows rows) (instructions program)).mapError Failure.fault
  let output := String.ofList ((summaryOf session steps).write 0 ++ ['\n'])
  .ok (.ended output (if request.verbose then finishedLine steps else "") 0)

def Failure.outcome : Failure → Outcome
  | refused message => .refused message
  | fault cause => .ended "" s!"error: {cause.label}: {cause.message}\n" 2
  | aborted cause => .aborted cause

def run (host : Host) (files : Files) (arguments : List Text) : Outcome :=
  match Request.read arguments with
  | .error .help => .help
  | .error (.usage fault) => .refused fault.message
  | .ok request =>
    match request.perform host files with
    | .ok outcome => outcome
    | .error failure => failure.outcome

end Lamplighter.CommandLine
