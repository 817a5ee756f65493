import Lamplighter.Token.Malformed
import Lamplighter.World.Map

/-! # Faults

Everything that stops a map from being loaded or a program from being run to its end, as causes. The
wording of a cause is in one place.
-/

namespace Lamplighter

/-- Why a map or a program fails. -/
inductive Fault where
  | map (fault : MapFault)
  | malformed (cause : Malformed)
  | undefined (name : Text)
  | arity (name : Text) (expected got : Nat)
  | recursive (names : List Text)
  | depth (limit : Int)
  | budget (limit : Int)
deriving DecidableEq, Repr

namespace Fault

/-- The word that names the kind of a fault to a reader of the command's output. -/
def label : Fault → String
  | map _ => "MapLoadError"
  | malformed _ => "MalformedProgramError"
  | undefined _ => "FunctionNotDefinedError"
  | arity _ _ _ => "ArityMismatchError"
  | recursive _ => "RecursiveCallError"
  | depth _ => "CallDepthExceededError"
  | budget _ => "StepBudgetExceededError"

def message : Fault → String
  | map fault => fault.message
  | malformed cause => cause.message
  | undefined name =>
    let shown := String.ofList name
    s!"Function not defined: {shown}"
  | arity name expected got =>
    let shown := String.ofList name
    s!"Function {shown} expects {expected} argument(s), got {got}"
  | recursive names =>
    let shown := String.ofList (Text.join ", ".toList names)
    s!"Recursive function calls: {shown}"
  | depth limit => s!"Maximum nesting depth exceeded: {limit}"
  | budget limit => s!"Step budget exceeded: {limit}"

end Fault

end Lamplighter
