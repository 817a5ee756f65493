import Lamplighter.Text.Word
import Lamplighter.Token

/-! # Substitution of parameters

A call replaces the parameters in a function's body by its arguments, all at once: an argument that
is spelled like a parameter stays as it is. A parameter is replaced only where it stands between two
word boundaries, places where exactly one of the two neighbouring characters is a word character.
Where several parameters fit, the first one wins. The empty parameter fits at every word boundary;
its argument is put in there once, and the search goes on at the same place for a longer one.
-/

namespace Lamplighter

/-- Parameters with their arguments, first choice first. -/
abbrev Bindings := List (Text × Text)

namespace Bindings

/-- Whether a parameter stands between word boundaries at the start of `text`, where `before` says
whether a word character precedes it. -/
def fits (before : Bool) (text param : Text) : Bool :=
  before != Text.startsWithWord text
    && param.isPrefixOf text
    && Text.endsWithWord before param != Text.startsWithWord (text.drop param.length)

/-- The first parameter that fits, with its argument. -/
def match? (bindings : Bindings) (before : Bool) (text : Text) : Option (Text × Text) :=
  bindings.find? fun binding => fits before text binding.1

/-- The first parameter with at least one character that fits, with its argument. -/
def word? (bindings : Bindings) (before : Bool) (text : Text) : Option (Text × Text) :=
  bindings.find? fun binding => !binding.1.isEmpty && fits before text binding.1

/-- What the empty parameter puts in at a place. -/
def insertion (bindings : Bindings) (before : Bool) (text : Text) : Text :=
  match bindings.match? before text with
  | some ([], arg) => arg
  | _ => []

/-- Replaces parameters in a text whose first `skip` characters are already replaced. -/
def applyFrom (bindings : Bindings) : (skip : Nat) → (before : Bool) → Text → Text
  | _, before, [] => bindings.insertion before []
  | skip + 1, _, c :: rest => applyFrom bindings skip (Text.isWord c) rest
  | 0, before, c :: rest =>
    bindings.insertion before (c :: rest) ++
      match bindings.word? before (c :: rest) with
      | some (param, arg) => arg ++ applyFrom bindings (param.length - 1) (Text.isWord c) rest
      | none => c :: applyFrom bindings 0 (Text.isWord c) rest

def apply (bindings : Bindings) (text : Text) : Text := bindings.applyFrom 0 false text

/-- Without parameters a text stays as it is. -/
@[simp] theorem apply_nil (text : Text) : apply [] text = text := by
  have from_start (before : Bool) : applyFrom [] 0 before text = text := by
    induction text generalizing before with
    | nil => rfl
    | cons c rest ih => simp [applyFrom, insertion, match?, word?, ih]
  exact from_start false

end Bindings

/-- A body with its parameters replaced in every token. -/
def instantiate (params args : List Text) (body : List Token) : List Token :=
  body.map (Bindings.apply (params.zip args))

/-- Arguments that cannot be paired with the parameters. -/
inductive PairingFault where
  | fewer
  | more
deriving DecidableEq, Repr

def PairingFault.message : PairingFault → String
  | .fewer => "zip() argument 2 is shorter than argument 1"
  | .more => "zip() argument 2 is longer than argument 1"

/-- Replaces parameters by as many arguments; without parameters the arguments do not matter. -/
def substitute (params args : List Text) (body : List Token) : Except PairingFault (List Token) :=
  if params.isEmpty then .ok body
  else if args.length < params.length then .error .fewer
  else if params.length < args.length then .error .more
  else .ok (instantiate params args body)

end Lamplighter
