import Lamplighter.CommandLine.Path
import Lamplighter.Text.Numeral

/-! # The command line

An option may be cut down to any start that no other option shares, and its value stands in the next
argument or after an equals sign. The last value of an option counts. An argument that starts with a
dash is an option, unless it is a negative number or has a space in it; after two dashes alone no
argument is one. Two dashes alone after an equals sign leave the option without a content: it is
given, and what asks for its content finds none. Arguments are looked at in two passes: first each
is classed by itself, then they are taken from left to right.
-/

namespace Lamplighter.CommandLine

/-- What an option asks for. -/
inductive Action where
  | help
  | map
  | program
  | config
  | maxDepth
  | maxSteps
  | validateNesting (on : Bool)
  | rejectRecursion (on : Bool)
  | verbose
deriving DecidableEq, Repr

namespace Action

def takesValue : Action → Bool
  | map | program | config | maxDepth | maxSteps => true
  | help | validateNesting _ | rejectRecursion _ | verbose => false

/-- The option as messages name it. -/
def title : Action → String
  | help => "-h/--help"
  | map => "--map"
  | program => "--program"
  | config => "--config"
  | maxDepth => "--max-depth"
  | maxSteps => "--max-steps"
  | validateNesting _ => "--validate-nesting/--no-validate-nesting"
  | rejectRecursion _ => "--reject-recursion/--no-reject-recursion"
  | verbose => "--verbose"

end Action

/-- The spellings of the options, in the order in which messages list them. -/
def spellings : List (Text × Action) := [
  ("-h".toList, .help), ("--help".toList, .help), ("--map".toList, .map),
  ("--program".toList, .program), ("--config".toList, .config),
  ("--max-depth".toList, .maxDepth), ("--max-steps".toList, .maxSteps),
  ("--validate-nesting".toList, .validateNesting true),
  ("--no-validate-nesting".toList, .validateNesting false),
  ("--reject-recursion".toList, .rejectRecursion true),
  ("--no-reject-recursion".toList, .rejectRecursion false), ("--verbose".toList, .verbose)]

inductive UsageFault where
  | ambiguous (argument : Text) (candidates : List Text)
  | valueMissing (action : Action)
  | valueIgnored (action : Action) (value : Text)
  | notInteger (action : Action) (value : Text)
  | optionsMissing (actions : List Action)
  | unrecognized (arguments : List Text)
deriving DecidableEq, Repr

namespace UsageFault

def message : UsageFault → String
  | ambiguous argument candidates =>
    let shown := String.ofList argument
    let listed := String.ofList (Text.join ", ".toList candidates)
    s!"ambiguous option: {shown} could match {listed}"
  | valueMissing action => s!"argument {action.title}: expected one argument"
  | valueIgnored action value => s!"argument {action.title}: ignored explicit argument {value.quoted}"
  | notInteger action value => s!"argument {action.title}: invalid int value: {value.quoted}"
  | optionsMissing actions =>
    let listed := String.intercalate ", " (actions.map Action.title)
    s!"the following arguments are required: {listed}"
  | unrecognized arguments =>
    let listed := String.ofList (Text.join [' '] arguments)
    s!"unrecognized arguments: {listed}"

end UsageFault

/-- What an option is given. -/
inductive Operand (α : Type) where
  /-- The option is given without a content. -/
  | blank
  | content (value : α)
deriving DecidableEq, Repr

namespace Operand

def map {α β : Type} (f : α → β) : Operand α → Operand β
  | blank => blank
  | content value => content (f value)

def content? {α : Type} : Operand α → Option α
  | blank => none
  | content value => some value

/-- What stands after an equals sign: two dashes alone are no content. -/
def ofAttached (value : Text) : Operand Text := if value = ['-', '-'] then blank else content value

end Operand

/-- A value that is part of the same argument as its option. -/
inductive Attached where
  /-- After the equals sign of an option with two dashes. -/
  | equals (value : Text)
  /-- After a one-letter option, directly or with an equals sign between them. -/
  | letters (value : Text)
deriving DecidableEq, Repr

/-- An argument by itself. -/
inductive Argument where
  /-- A value, or nothing that is known. -/
  | plain (text : Text)
  /-- Two dashes alone. -/
  | dashes
  /-- Written like an option, and none of them. -/
  | unknown (text : Text)
  /-- An option, with the value that is attached to it. -/
  | option (action : Action) (attached : Option Attached)
deriving DecidableEq, Repr

namespace Argument

/-- Whether the rest of an argument after its dash is a number. A line break at its end is let
pass. -/
def isNumberBody (body : Text) : Bool :=
  let body := if body.getLast? = some '\n' then body.dropLast else body
  (!body.isEmpty && body.all Text.isDigit) ||
    match Text.after? '.' body with
    | some places => (Text.before '.' body).all Text.isDigit && !places.isEmpty && places.all Text.isDigit
    | none => false

/-- The options that an argument with two dashes can mean, with the value after its equals sign. -/
def longCandidates (text : Text) : List (Text × Argument) :=
  let written := Text.before '=' text
  let attached := (Text.after? '=' text).map Attached.equals
  (spellings.filter fun spelling => written.isPrefixOf spelling.1).map fun spelling =>
    (spelling.1, option spelling.2 attached)

/-- The options that an argument with one dash can mean, with what is joined to its letter. -/
def shortCandidates (text : Text) : List (Text × Argument) :=
  spellings.filterMap fun spelling =>
    if spelling.1 = text.take 2 then
      some (spelling.1, option spelling.2 (some (.letters (text.drop 2))))
    else if text.isPrefixOf spelling.1 then some (spelling.1, option spelling.2 none)
    else none

def isLong (text : Text) : Bool := ['-', '-'].isPrefixOf text

def candidates (text : Text) : List (Text × Argument) :=
  if isLong text then longCandidates text else shortCandidates text

def action? (text : Text) : Option Action :=
  (spellings.find? fun spelling => spelling.1 == text).map Prod.snd

/-- The class of an argument that starts with a dash and has more after it. -/
def classifyDashed (text : Text) : Except UsageFault Argument :=
  match action? (Text.before '=' text), Text.after? '=' text with
  | some action, none => .ok (option action none)
  | some action, some value =>
    .ok (option action (some (if isLong text then .equals value else .letters value)))
  | none, _ =>
    match candidates text with
    | [candidate] => .ok candidate.2
    | [] =>
      if isNumberBody (text.drop 1) || text.contains ' ' then .ok (plain text) else .ok (unknown text)
    | several => .error (.ambiguous text (several.map Prod.fst))

/-- The class of an argument before any two dashes alone. -/
def classify (text : Text) : Except UsageFault Argument :=
  match text with
  | '-' :: _ :: _ => classifyDashed text
  | _ => .ok (plain text)

def classifyAll : List Text → Except UsageFault (List Argument)
  | [] => .ok []
  | text :: rest =>
    if text = ['-', '-'] then .ok (dashes :: rest.map plain)
    else do
      let argument ← classify text
      let arguments ← classifyAll rest
      .ok (argument :: arguments)

end Argument

/-- What a command line asks for. -/
structure Request where
  map : Option (Operand Path) := none
  program : Option (Operand Path) := none
  config : Option (Operand Path) := none
  maxDepth : Option (Operand Int) := none
  maxSteps : Option (Operand Int) := none
  validateNesting : Option Bool := none
  rejectRecursion : Option Bool := none
  verbose : Bool := false
deriving DecidableEq, Repr

/-- Why a command line asks for nothing to be run. -/
inductive Halt where
  /-- Help is asked for. -/
  | help
  /-- The command line is wrong. -/
  | usage (fault : UsageFault)
deriving DecidableEq, Repr

namespace Request

def readInteger (action : Action) : Operand Text → Except Halt (Operand Int)
  | .blank => .ok .blank
  | .content value =>
    match Text.readInteger? value with
    | some number => .ok (.content number)
    | none => .error (.usage (.notInteger action value))

def setValue (request : Request) (action : Action) (value : Operand Text) : Except Halt Request :=
  match action with
  | .map => .ok { request with map := some (value.map Path.ofText) }
  | .program => .ok { request with program := some (value.map Path.ofText) }
  | .config => .ok { request with config := some (value.map Path.ofText) }
  | .maxDepth =>
    (readInteger action value).map fun number => { request with maxDepth := some number }
  | .maxSteps =>
    (readInteger action value).map fun number => { request with maxSteps := some number }
  | .help | .validateNesting _ | .rejectRecursion _ | .verbose => .ok request

def setFlag (request : Request) (action : Action) : Except Halt Request :=
  match action with
  | .help => .error .help
  | .validateNesting on => .ok { request with validateNesting := some on }
  | .rejectRecursion on => .ok { request with rejectRecursion := some on }
  | .verbose => .ok { request with verbose := true }
  | action => .error (.usage (.valueMissing action))

/-- What becomes of letters after the letter for help, which is the only one-letter option: each is an
option again, and where one is not, it is refused with all that follows it. -/
def helpLetters : Text → Halt
  | ['h'] => .help
  | 'h' :: rest => helpLetters rest
  | letters => .usage (.valueIgnored .help letters)

def setAttached (request : Request) (action : Action) (attached : Attached) : Except Halt Request :=
  match attached with
  | .equals value =>
    if action.takesValue then request.setValue action (.ofAttached value)
    else .error (.usage (.valueIgnored action value))
  | .letters letters => .error (helpLetters letters)

/-- Takes arguments from left to right; `extras` holds those that mean nothing, in reverse. -/
def take (request : Request) (extras : List Text) :
    List Argument → Except Halt (Request × List Text)
  | [] => .ok (request, extras.reverse)
  | .plain text :: rest => take request (text :: extras) rest
  | .dashes :: rest => take request (['-', '-'] :: extras) rest
  | .unknown text :: rest => take request (text :: extras) rest
  | .option action (some attached) :: rest =>
    match request.setAttached action attached with
    | .error halt => .error halt
    | .ok request => take request extras rest
  | .option action none :: .plain value :: rest =>
    if action.takesValue then
      match request.setValue action (.content value) with
      | .error halt => .error halt
      | .ok request => take request extras rest
    else
      match request.setFlag action with
      | .error halt => .error halt
      | .ok request => take request (value :: extras) rest
  | .option action none :: rest =>
    match request.setFlag action with
    | .error halt => .error halt
    | .ok request => take request extras rest

/-- The options that must be given and are not. -/
def missing (request : Request) : List Action :=
  (if request.map.isNone then [.map] else []) ++ if request.program.isNone then [.program] else []

def read (arguments : List Text) : Except Halt Request := do
  let classed ← (Argument.classifyAll arguments).mapError Halt.usage
  let (request, extras) ← take {} [] classed
  if !request.missing.isEmpty then .error (.usage (.optionsMissing request.missing))
  else if !extras.isEmpty then .error (.usage (.unrecognized extras))
  else .ok request

def paths (request : Request) : List Path :=
  [request.config, request.map, request.program].filterMap fun path => path.bind Operand.content?

end Request

end Lamplighter.CommandLine
