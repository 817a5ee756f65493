import Lamplighter.Decimal.Shortest
import Lamplighter.Text.Quoted

/-! # JSON values

A JSON value as it is read: a number with a point or an exponent is a binary fraction, any other an
integer. A string is a sequence of code points, because an escape can write a lone surrogate. The
members of an object stand in the order in which their names first appear, and the last value of a
name counts.
-/

namespace Lamplighter

inductive Json where
  | null
  | bool (value : Bool)
  | integer (value : Int)
  | fraction (value : Decimal.Binary)
  | string (points : List Nat)
  | array (items : List Json)
  | object (members : List (List Nat × Json))

namespace Json

def ofText (text : Text) : Json := string (text.map Char.toNat)

/-- Puts a member in the place of the one with the same name, or at the end. -/
def setMember (name : List Nat) (value : Json) : List (List Nat × Json) → List (List Nat × Json)
  | [] => [(name, value)]
  | member :: rest =>
    if member.1 = name then (name, value) :: rest else member :: setMember name value rest

def member? (name : Text) (members : List (List Nat × Json)) : Option Json :=
  (members.find? fun member => member.1 == name.map Char.toNat).map Prod.snd

/-- The word for the kind of a value in a message. -/
def kindWord : Json → String
  | null => "NoneType"
  | bool _ => "bool"
  | integer _ => "int"
  | fraction _ => "float"
  | string _ => "str"
  | array _ => "list"
  | object _ => "dict"

def integerText (value : Int) : Text := Decimal.signed (value < 0) (Nat.toDigits 10 value.natAbs)

mutual

/-- A value as a message shows it. -/
def display : Json → Text
  | null => "None".toList
  | bool true => "True".toList
  | bool false => "False".toList
  | integer value => integerText value
  | fraction value => value.text
  | string points => Text.quotePoints points
  | array items => '[' :: Text.join ", ".toList (displayItems items) ++ [']']
  | object members => '\x7b' :: Text.join ", ".toList (displayMembers members) ++ ['\x7d']

def displayItems : List Json → List Text
  | [] => []
  | item :: rest => item.display :: displayItems rest

def displayMembers : List (List Nat × Json) → List Text
  | [] => []
  | (name, value) :: rest => (Text.quotePoints name ++ ": ".toList ++ value.display) :: displayMembers rest

end

end Json

end Lamplighter
