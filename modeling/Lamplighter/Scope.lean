import Lamplighter.Token.Malformed

/-! # Scopes in a token list

Where a scope ends. Only openers and closers of its own kind are counted, so the scopes of the other
kind need not be in order for an end to be found. A scope without a closer reaches to the end of the
tokens.
-/

namespace Lamplighter

namespace Scope

/-- The number of tokens before the closer that balances a scope with `inner` scopes of the same
kind open inside it; without such a closer, all of them. -/
def sizeFrom (scope : Scope) : (inner : Nat) → List Token → Nat
  | _, [] => 0
  | inner, token :: rest =>
    if token.kind = .closes scope then
      match inner with
      | 0 => 0
      | inner + 1 => sizeFrom scope inner rest + 1
    else if token.kind = .opens scope then sizeFrom scope (inner + 1) rest + 1
    else sizeFrom scope inner rest + 1

theorem sizeFrom_le_length (scope : Scope) (inner : Nat) (tokens : List Token) :
    scope.sizeFrom inner tokens ≤ tokens.length := by
  induction tokens generalizing inner with
  | nil => simp [sizeFrom]
  | cons token rest ih =>
    simp only [sizeFrom, List.length_cons]
    split
    · cases inner with
      | zero => exact Nat.zero_le _
      | succ inner => exact Nat.succ_le_succ (ih inner)
    · split
      · exact Nat.succ_le_succ (ih (inner + 1))
      · exact Nat.succ_le_succ (ih inner)

/-- The number of tokens inside a scope whose opener stands just before the given tokens. -/
def size (scope : Scope) (rest : List Token) : Nat := scope.sizeFrom 0 rest

/-- The tokens inside a scope whose opener stands just before the given ones. -/
def body (scope : Scope) (rest : List Token) : List Token := rest.take (scope.size rest)

@[simp] theorem length_body (scope : Scope) (rest : List Token) :
    (scope.body rest).length = scope.size rest := by
  simp [body, size, sizeFrom_le_length]

/-- The index of the closer of the scope opened at an index, or the length of the program. -/
def endIndex (scope : Scope) (program : List Token) (index : Int) : Nat :=
  let rest := program.drop (index + 1).toNat
  program.length - rest.length + scope.size rest

structure UnknownOpener where
  word : Text
deriving DecidableEq, Repr

def UnknownOpener.message (unknown : UnknownOpener) : String := unknown.word.quoted

def ofOpener (word : Text) : Except UnknownOpener Scope :=
  match ofOpener? word with
  | some scope => .ok scope
  | none => .error ⟨word⟩

end Scope

end Lamplighter
