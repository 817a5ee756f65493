import Lamplighter.Scope
import Lamplighter.Token.Signature

/-! # Function tables

The definitions of a program that stand inside no other definition. A body is kept as it is written,
definitions inside it included. Functions stand in the order in which their names first appear, and a
later definition of a name takes the place of the earlier one.
-/

namespace Lamplighter

structure FunctionDef where
  name : Text
  params : List Text
  body : List Token
deriving DecidableEq, Repr

def FunctionDef.arity (function : FunctionDef) : Nat := function.params.length

/-- Functions of different names, in order of first definition. -/
structure FunctionTable where
  functions : List FunctionDef
deriving DecidableEq, Repr

namespace FunctionTable

def empty : FunctionTable := ⟨[]⟩

def size (table : FunctionTable) : Nat := table.functions.length

def names (table : FunctionTable) : List Text := table.functions.map FunctionDef.name

def find? (table : FunctionTable) (name : Text) : Option FunctionDef :=
  table.functions.find? fun function => function.name == name

/-- Puts a definition in the place of the one with the same name, or at the end. -/
def insertInto (function : FunctionDef) : List FunctionDef → List FunctionDef
  | [] => [function]
  | other :: rest =>
    if other.name = function.name then function :: rest else other :: insertInto function rest

def insert (table : FunctionTable) (function : FunctionDef) : FunctionTable :=
  ⟨insertInto function table.functions⟩

/-- A table finds the definition that was put in last under a name. -/
theorem find?_insert (table : FunctionTable) (function : FunctionDef) (name : Text) :
    (table.insert function).find? name =
      if function.name = name then some function else table.find? name := by
  rcases table with ⟨functions⟩
  simp only [insert, find?]
  induction functions with
  | nil => by_cases same : function.name = name <;> simp [insertInto, same]
  | cons other rest ih =>
    simp only [insertInto]
    by_cases replaced : other.name = function.name
    · by_cases same : function.name = name <;> simp [replaced, same]
    · rw [if_neg replaced]
      by_cases found : other.name = name
      · have different : function.name ≠ name := fun same => replaced (found.trans same.symm)
        simp [found, different]
      · simp [found, ih]

def ofList (functions : List FunctionDef) : FunctionTable := functions.foldl insert empty

/-- Adds the definitions of the tokens after the first `skip` ones; `index` is that of the next
token. -/
def collect : (skip index : Nat) → List Token → FunctionTable → Except Malformed FunctionTable
  | _, _, [], table => .ok table
  | skip + 1, index, _ :: rest, table => collect skip (index + 1) rest table
  | 0, index, token :: rest, table =>
    if token.kind = .opens .definition then
      match Signature.readAt Scope.definition.opener token index with
      | .error malformed => .error malformed
      | .ok signature =>
        let function := ⟨signature.name, signature.operands, Scope.definition.body rest⟩
        collect (Scope.definition.size rest + 1) (index + 1) rest (table.insert function)
    else collect 0 (index + 1) rest table

def ofProgram (program : List Token) : Except Malformed FunctionTable := collect 0 0 program empty

end FunctionTable

end Lamplighter
