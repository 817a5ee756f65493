import Lamplighter.Token.Malformed

/-! # Nesting of scopes

Whether the scopes of a program are closed in order: each closer closes the innermost open scope, and
none stays open. The first closer that does not fit is at fault, else the innermost open scope.
-/

namespace Lamplighter

namespace Nesting

/-- A scope that is still open, with the index of its opener. -/
structure Opened where
  scope : Scope
  index : Nat
deriving DecidableEq, Repr

/-- Checks that each closer closes the innermost open scope and that none stays open. The open
scopes are given innermost first, and `index` is that of the next token. -/
def checkFrom (opened : List Opened) (index : Nat) : List Token → Except Malformed Unit
  | [] =>
    match opened with
    | [] => .ok ()
    | innermost :: _ => .error ⟨.unclosed innermost.scope, some innermost.index⟩
  | token :: rest =>
    match token.kind with
    | .opens scope => checkFrom (⟨scope, index⟩ :: opened) (index + 1) rest
    | .closes scope =>
      match opened with
      | [] => .error ⟨.unopened scope, some index⟩
      | innermost :: outer =>
        if innermost.scope = scope then checkFrom outer (index + 1) rest
        else .error ⟨.crossed scope innermost.scope innermost.index, some index⟩
    | _ => checkFrom opened (index + 1) rest

def check (program : List Token) : Except Malformed Unit := checkFrom [] 0 program

end Nesting

end Lamplighter
