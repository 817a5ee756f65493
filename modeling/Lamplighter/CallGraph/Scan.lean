import Lamplighter.Scope
import Lamplighter.Token.Count
import Lamplighter.Token.Signature

/-! # Calls in a token list

The calls that running a token list may make itself: those in its definitions are left out, and so
are those in loops that run no time at all. A loop whose count cannot be read counts as one that
runs; running it is what reports the count.
-/

namespace Lamplighter

/-- The names that are called, up to the first call that cannot be read. -/
structure CallScan where
  names : List Text
  fault : Option Malformed
deriving DecidableEq, Repr

namespace CallScan

def cons (name : Text) (scan : CallScan) : CallScan := { scan with names := name :: scan.names }

def toExcept (scan : CallScan) : Except Malformed (List Text) :=
  match scan.fault with
  | none => .ok scan.names
  | some malformed => .error malformed

end CallScan

/-- Whether a loop may run, as far as its opener can be read. -/
def Token.mayLoop (token : Token) : Bool :=
  match token.readCount with
  | .ok count => 0 < count
  | .error _ => true

/-- Scans the tokens after the first `skip` ones; `index` is that of the next token. -/
def callNamesFrom : (skip index : Nat) → List Token → CallScan
  | _, _, [] => ⟨[], none⟩
  | skip + 1, index, _ :: rest => callNamesFrom skip (index + 1) rest
  | 0, index, token :: rest =>
    match token.kind with
    | .opens .definition => callNamesFrom (Scope.definition.size rest + 1) (index + 1) rest
    | .opens .loop =>
      if token.mayLoop then callNamesFrom 0 (index + 1) rest
      else callNamesFrom (Scope.loop.size rest + 1) (index + 1) rest
    | .call =>
      match Signature.readAt Token.callWord token index with
      | .ok signature => (callNamesFrom 0 (index + 1) rest).cons signature.name
      | .error malformed => ⟨[], some malformed⟩
    | _ => callNamesFrom 0 (index + 1) rest

def callNames (program : List Token) : CallScan := callNamesFrom 0 0 program

end Lamplighter
