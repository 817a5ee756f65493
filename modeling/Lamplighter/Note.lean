import Lamplighter.Text.Basic

/-! # Log lines

What a session and an execution report of their progress, one line each.
-/

namespace Lamplighter

/-- Something reported while programs run. -/
inductive Note where
  | running (instructions functions : Nat)
  | call (name : Text) (args : List Text) (depth : Nat)
  | loop (count : Int) (size depth : Nat)
  | finished (steps : Nat)
  | reset
deriving DecidableEq, Repr

namespace Note

def source : Note → String
  | call _ _ _ => "lightbot.program.executor"
  | loop _ _ _ => "lightbot.program.executor"
  | _ => "lightbot.session"

def message : Note → String
  | running instructions functions => s!"Running {instructions} instruction(s) with {functions} function(s)"
  | call name args depth =>
    let shown := String.ofList (name ++ '(' :: Text.join ", ".toList args ++ [')'])
    s!"CALL {shown} at depth {depth}"
  | loop count size depth => s!"REPEAT {count} x {size} instruction(s) at depth {depth}"
  | finished steps => s!"Run finished after {steps} step(s)"
  | reset => "World reset to initial snapshot"

def line (note : Note) : String := s!"DEBUG {note.source}: {note.message}"

end Note

end Lamplighter
