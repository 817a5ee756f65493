/-! # Settings

What can be set for a session: the limit on nested loops and calls, the budget of steps for each
run, and whether a program is checked for its nesting and for recursion before it runs.
-/

namespace Lamplighter

structure Settings where
  maxDepth : Int := 200
  maxSteps : Option Int := none
  validateNesting : Bool := true
  rejectRecursion : Bool := true
deriving DecidableEq, Repr

inductive SettingsFault where
  | maxDepth
  | maxSteps
deriving DecidableEq, Repr

def SettingsFault.message : SettingsFault → String
  | .maxDepth => "max_depth must be >= 1"
  | .maxSteps => "max_steps must be >= 1 when set"

namespace Settings

/-- The limits are positive where they are set. -/
def check (settings : Settings) : Except SettingsFault Settings :=
  if settings.maxDepth < 1 then .error .maxDepth
  else if settings.maxSteps.any (· < 1) then .error .maxSteps
  else .ok settings

end Settings

end Lamplighter
