import Lamplighter.Text.Quoted
import Lamplighter.Token

/-! # Malformed programs

What can be wrong with the writing of a program, and where. An index counts within the list of
tokens that was being read, which for the body of a loop or of a function starts over at zero.
-/

namespace Lamplighter

/-- What is wrong with the writing of a program. -/
inductive Problem where
  /-- A closer where no scope is open. -/
  | unopened (closed : Scope)
  /-- A closer of another scope than the innermost open one. -/
  | crossed (closed opened : Scope) (openedAt : Nat)
  /-- A scope that is open at the end. -/
  | unclosed (opened : Scope)
  /-- A signature whose operand list has no end. -/
  | unclosedList (token : Token)
  /-- A signature without a name. -/
  | missingName (token : Token)
  /-- A loop without exactly one operand. -/
  | countOperands (token : Token)
  /-- A loop whose operand is no integer. -/
  | countNumeral (token : Token)
deriving DecidableEq, Repr

namespace Problem

def message : Problem → String
  | unopened closed =>
    let closer := String.ofList closed.closer
    let opener := String.ofList closed.opener
    s!"{closer} without matching {opener}"
  | crossed closed opened openedAt =>
    let closer := String.ofList closed.closer
    let opener := String.ofList opened.opener
    s!"{closer} closes {opener} opened at instruction {openedAt}"
  | unclosed opened =>
    let closer := String.ofList opened.closer
    let opener := String.ofList opened.opener
    s!"{opener} is never closed by {closer}"
  | unclosedList token => s!"Unclosed parameter list in {token.quoted}"
  | missingName token => s!"Missing name in {token.quoted}"
  | countOperands token => s!"REPEAT expects one count operand: {token.quoted}"
  | countNumeral token => s!"REPEAT count must be an integer: {token.quoted}"

end Problem

/-- A problem, with the index of the instruction that has it where that is known. -/
structure Malformed where
  problem : Problem
  index : Option Int
deriving DecidableEq, Repr

namespace Malformed

def message (malformed : Malformed) : String :=
  match malformed.index with
  | none => malformed.problem.message
  | some index => s!"{malformed.problem.message} (instruction {index})"

end Malformed

/-- What was read from the instruction at an index, or the problem that it has. -/
def Problem.locate {α : Type} (index : Option Int) (result : Except Problem α) : Except Malformed α :=
  result.mapError fun problem => ⟨problem, index⟩

/-- The place does not matter for what can be read. -/
theorem Problem.locate_eq_ok_iff {α : Type} {index : Option Int} {result : Except Problem α} {value : α} :
    Problem.locate index result = .ok value ↔ result = .ok value := by
  cases result with
  | error problem =>
    constructor
    · intro read
      cases read
    · intro read
      cases read
  | ok other =>
    constructor
    · intro read
      cases read
      rfl
    · intro read
      cases read
      rfl

/-- What cannot be read has its problem at the given place. -/
theorem Problem.locate_eq_error_iff {α : Type} {index : Option Int} {result : Except Problem α}
    {malformed : Malformed} :
    Problem.locate index result = .error malformed ↔
      result = .error malformed.problem ∧ malformed.index = index := by
  cases result with
  | ok value =>
    constructor
    · intro unread
      cases unread
    · rintro ⟨unread, _⟩
      cases unread
  | error problem =>
    constructor
    · intro unread
      cases unread
      exact ⟨rfl, rfl⟩
    · rintro ⟨unread, rfl⟩
      cases unread
      rfl

end Lamplighter
