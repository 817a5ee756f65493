import Lamplighter.CommandLine.Request
import Lamplighter.Json.Value
import Lamplighter.Settings

/-! # Settings from the command line and from a file

Each setting is taken from the command line, else from the settings file, else from the defaults.
What the command line gives is never looked up in the file, so a wrong entry there is not noticed.
The limits are checked last, first the one on depth and then the one on steps: each has to be a number
in its range.
-/

namespace Lamplighter.CommandLine

inductive ConfigFault where
  /-- The file holds a value without members. -/
  | notObject (value : Json)
  /-- An entry is no integer. -/
  | notInteger (key : Text) (value : Json)
  /-- An entry is neither true nor false. -/
  | notFlag (key : Text) (value : Json)
  /-- A limit is given without a content. -/
  | blankLimit
  /-- A setting is out of its range. -/
  | range (fault : SettingsFault)

namespace ConfigFault

def message : ConfigFault → String
  | notObject value => s!"'{value.kindWord}' object has no attribute 'get'"
  | notInteger key value =>
    let name := String.ofList key
    let shown := String.ofList value.display
    s!"{name} must be an integer in the config file, got {shown}"
  | notFlag key value =>
    let name := String.ofList key
    let shown := String.ofList value.display
    s!"{name} must be true or false in the config file, got {shown}"
  | blankLimit => "'<' not supported between instances of 'list' and 'int'"
  | range fault => fault.message

end ConfigFault

/-- The entry of a settings file, if it has one. -/
def lookUp (file : Json) (key : Text) : Except ConfigFault (Option Json) :=
  match file with
  | .object members => .ok (Json.member? key members)
  | value => .error (.notObject value)

/-- An integer setting: `given` on the command line, else in the file, else the default. An entry may
be null where the default is to have no value. -/
def resolveInteger (given : Option (Operand Int)) (key : Text) (file : Json) (default : Option Int) :
    Except ConfigFault (Option (Operand Int)) :=
  match given with
  | some value => .ok (some value)
  | none =>
    match lookUp file key with
    | .error fault => .error fault
    | .ok none => .ok (default.map .content)
    | .ok (some (.integer value)) => .ok (some (.content value))
    | .ok (some value) =>
      match value, default with
      | .null, none => .ok none
      | value, _ => .error (.notInteger key value)

/-- A setting that is on or off: `given` on the command line, else in the file, else on. -/
def resolveFlag (given : Option Bool) (key : Text) (file : Json) : Except ConfigFault Bool :=
  match given with
  | some value => .ok value
  | none =>
    match lookUp file key with
    | .error fault => .error fault
    | .ok none => .ok true
    | .ok (some (.bool value)) => .ok value
    | .ok (some value) => .error (.notFlag key value)

def defaultDepth : Int := ({} : Settings).maxDepth

def limitOf : Operand Int → Except ConfigFault Int
  | .blank => .error .blankLimit
  | .content limit => .ok limit

def withSteps (settings : Settings) (maxSteps : Operand Int) : Except ConfigFault Settings := do
  let limit ← limitOf maxSteps
  ({ settings with maxSteps := some limit } : Settings).check.mapError .range

/-- The settings that a request and a settings file come to. -/
def Request.settings (request : Request) (file : Json) : Except ConfigFault Settings := do
  let maxDepth ← resolveInteger request.maxDepth "max_depth".toList file (some defaultDepth)
  let maxSteps ← resolveInteger request.maxSteps "max_steps".toList file none
  let validateNesting ← resolveFlag request.validateNesting "validate_nesting".toList file
  let rejectRecursion ← resolveFlag request.rejectRecursion "reject_recursion".toList file
  let depth ← limitOf (maxDepth.getD (.content defaultDepth))
  let settings ←
    (Settings.check ⟨depth, none, validateNesting, rejectRecursion⟩).mapError ConfigFault.range
  match maxSteps with
  | none => .ok settings
  | some steps => withSteps settings steps

end Lamplighter.CommandLine
