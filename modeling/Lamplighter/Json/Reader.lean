import Lamplighter.Json.Value
import Lamplighter.Text.Numeral

/-! # Reading JSON

A reader takes characters off the front of a text and returns what is left, so a fault is placed by
the number of characters that are left there. The numbers `NaN`, `Infinity` and `-Infinity` are
accepted. An integer of too many digits stops the reading where it stands, before any later fault of
the writing, and so does an array or object inside too many others.
-/

namespace Lamplighter.Json

/-- What a text would have to go on with, or what is wrong with a string. -/
inductive Expectation where
  | value
  | propertyName
  | colon
  | comma
  | theEnd
  | stringEnd
  | noControl
  | escapeLetter
  | escapeDigits
  | noByteOrderMark
deriving DecidableEq, Repr

def Expectation.message : Expectation → String
  | value => "Expecting value"
  | propertyName => "Expecting property name enclosed in double quotes"
  | colon => "Expecting ':' delimiter"
  | comma => "Expecting ',' delimiter"
  | theEnd => "Extra data"
  | stringEnd => "Unterminated string starting at"
  | noControl => "Invalid control character at"
  | escapeLetter => "Invalid \\escape"
  | escapeDigits => "Invalid \\uXXXX escape"
  | noByteOrderMark => "Unexpected UTF-8 BOM (decode using utf-8-sig)"

/-- A value that holds other values. -/
inductive Container where
  | array
  | object
deriving DecidableEq, Repr

def Container.word : Container → String
  | array => "array"
  | object => "object"

/-- Why a text is no JSON value. -/
inductive ReadFault where
  /-- Something else was expected where `left` characters are left. -/
  | unexpected (expected : Expectation) (left : Nat)
  /-- An integer has too many digits. -/
  | digits (count : Nat)
  /-- A container opens inside too many others. -/
  | tooDeep (container : Container)
deriving DecidableEq, Repr

/-- The characters between tokens. -/
def isSpace (c : Char) : Bool := c == ' ' || c == '\t' || c == '\n' || c == '\r'

def skipSpace (text : Text) : Text := text.dropWhile isSpace

def hexValue? (c : Char) : Option Nat :=
  if '0' ≤ c ∧ c ≤ '9' then some (c.toNat - '0'.toNat)
  else if 'a' ≤ c ∧ c ≤ 'f' then some (c.toNat - 'a'.toNat + 10)
  else if 'A' ≤ c ∧ c ≤ 'F' then some (c.toNat - 'A'.toNat + 10)
  else none

/-- The number that four hexadecimal digits at the start of a text denote, if a further character
follows them. -/
def hexQuad? (text : Text) : Option Nat :=
  if text.length ≤ 4 then none
  else
    ((text.take 4).mapM hexValue?).map fun digits =>
      digits.foldl (fun value digit => 16 * value + digit) 0

def isHighSurrogate (point : Nat) : Bool := 0xd800 ≤ point && point ≤ 0xdbff

def isLowSurrogate (point : Nat) : Bool := 0xdc00 ≤ point && point ≤ 0xdfff

def joinSurrogates (high low : Nat) : Nat := 0x10000 + (high - 0xd800) * 0x400 + (low - 0xdc00)

/-- The code point that stands for the second half of a pair, given the text after the first: none
if there is no second escape, and a fault if its digits are wrong. -/
def pairedEscape (high : Nat) (rest : Text) : Except ReadFault (Option Nat) :=
  match rest with
  | '\\' :: 'u' :: quad =>
    if quad.length ≤ 4 then .ok none
    else match hexQuad? quad with
      | none => .error (.unexpected .escapeDigits (quad.length + 1))
      | some low => .ok (if isLowSurrogate low then some (joinSurrogates high low) else none)
  | _ => .ok none

/-- The code point that an escape by number denotes, given the text after its letter, and the number
of characters that it takes after the backslash. -/
def numberEscape (quad : Text) : Except ReadFault (Nat × Nat) :=
  match hexQuad? quad with
  | none => .error (.unexpected .escapeDigits (quad.length + 1))
  | some point =>
    if isHighSurrogate point then
      (pairedEscape point (quad.drop 4)).map fun pair? =>
        match pair? with
        | some pair => (pair, 11)
        | none => (point, 5)
    else .ok (point, 5)

def letterEscape? (letter : Char) : Option Nat :=
  if letter = '\x22' ∨ letter = '\\' ∨ letter = '/' then some letter.toNat
  else if letter = 'b' then some 0x08
  else if letter = 'f' then some 0x0c
  else if letter = 'n' then some 0x0a
  else if letter = 'r' then some 0x0d
  else if letter = 't' then some 0x09
  else none

/-- The code point that the escape after a backslash denotes, and the number of characters that it
takes; `start` is what was left at the start of the string. -/
def escapeAfter (start : Nat) (text : Text) : Except ReadFault (Nat × Nat) :=
  match text with
  | [] => .error (.unexpected .stringEnd start)
  | 'u' :: quad => numberEscape quad
  | letter :: rest =>
    match letterEscape? letter with
    | some point => .ok (point, 1)
    | none => .error (.unexpected .escapeLetter (rest.length + 2))

/-- Reads a string to its closing quote, without the first `skip` characters; `read` holds the code
points so far in reverse. -/
def stringFrom (start : Nat) :
    (skip : Nat) → (read : List Nat) → Text → Except ReadFault (List Nat × Text)
  | _, _, [] => .error (.unexpected .stringEnd start)
  | skip + 1, read, _ :: rest => stringFrom start skip read rest
  | 0, read, c :: rest =>
    if c = '\x22' then .ok (read.reverse, rest)
    else if c = '\\' then
      match escapeAfter start rest with
      | .error fault => .error fault
      | .ok (point, taken) => stringFrom start taken (point :: read) rest
    else if c.toNat ≤ 0x1f then .error (.unexpected .noControl (rest.length + 1))
    else stringFrom start 0 (c.toNat :: read) rest

/-- Reads a string whose opening quote is taken off. -/
def readString (text : Text) : Except ReadFault (List Nat × Text) := stringFrom (text.length + 1) 0 [] text

/-- The integer digits at the start of a text: a zero alone, or digits that start with no zero. -/
def integerDigits (text : Text) : Text :=
  match text with
  | '0' :: _ => ['0']
  | _ => text.takeWhile Char.isDigit

/-- The digits after a decimal point at the start of a text. -/
def fractionDigits (text : Text) : Text :=
  match text with
  | '.' :: rest => rest.takeWhile Char.isDigit
  | _ => []

/-- The sign and the digits of an exponent, with the number of characters before its digits. -/
def exponentParts (text : Text) : Bool × Nat × Text :=
  match text with
  | '-' :: rest => (true, 2, rest.takeWhile Char.isDigit)
  | '+' :: rest => (false, 2, rest.takeWhile Char.isDigit)
  | _ => (false, 1, text.takeWhile Char.isDigit)

/-- An exponent at the start of a text, with the number of characters that it takes. -/
def exponent? (text : Text) : Option (Int × Nat) :=
  match text with
  | mark :: rest =>
    if mark = 'e' ∨ mark = 'E' then
      let (negative, lead, digits) := exponentParts rest
      if digits.isEmpty then none
      else
        let value : Int := Text.ofDigits (digits.map fun digit => digit.toNat - '0'.toNat)
        some (if negative then -value else value, lead + digits.length)
    else none
  | [] => none

def digitsValue (digits : Text) : Nat := Text.ofDigits (digits.map fun digit => digit.toNat - '0'.toNat)

/-- Reads a number; `text` is what a missing value is reported at. -/
def readNumber (text : Text) : Except ReadFault (Json × Text) :=
  let negative := text.head? == some '-'
  let unsigned := if negative then text.drop 1 else text
  let whole := integerDigits unsigned
  if whole.isEmpty then .error (.unexpected .value text.length)
  else
    let afterWhole := unsigned.drop whole.length
    let places := fractionDigits afterWhole
    let afterPlaces := if places.isEmpty then afterWhole else afterWhole.drop (places.length + 1)
    match exponent? afterPlaces with
    | some (exponent, taken) =>
      let value := Decimal.ofDecimal negative (digitsValue (whole ++ places)) (exponent - places.length)
      .ok (fraction value, afterPlaces.drop taken)
    | none =>
      if places.isEmpty then
        if Text.digitLimit < whole.length then .error (.digits whole.length)
        else
          let value : Int := digitsValue whole
          .ok (integer (if negative then -value else value), afterWhole)
      else
        .ok (fraction (Decimal.ofDecimal negative (digitsValue (whole ++ places)) (-places.length)),
          afterPlaces)

def wordValues : List (Text × Json) := [
  ("null".toList, null), ("true".toList, bool true), ("false".toList, bool false),
  ("NaN".toList, fraction .indefinite), ("Infinity".toList, fraction (.infinite false)),
  ("-Infinity".toList, fraction (.infinite true))]

/-- Reads a value that is no string, array or object. -/
def readScalar (text : Text) : Except ReadFault (Json × Text) :=
  match wordValues.find? fun word => word.1.isPrefixOf text with
  | some (word, value) => .ok (value, text.drop word.length)
  | none => readNumber text

/-- Reads the name of a member with the colon after it. -/
def readName (text : Text) : Except ReadFault (List Nat × Text) :=
  match text with
  | '\x22' :: rest =>
    match readString rest with
    | .error fault => .error fault
    | .ok (name, rest) =>
      match skipSpace rest with
      | ':' :: rest => .ok (name, skipSpace rest)
      | rest => .error (.unexpected .colon rest.length)
  | _ => .error (.unexpected .propertyName text.length)

mutual

/-- Reads a value at the start of a text, with `room` for as many containers inside each other. Each
round takes a character or follows one that does, so twice as many rounds as there are characters
are enough. -/
def readValue : (rounds room : Nat) → Text → Except ReadFault (Json × Text)
  | 0, _, text => .error (.unexpected .value text.length)
  | rounds + 1, room, text =>
    match text, room with
    | '\x22' :: rest, _ => (readString rest).map fun (points, rest) => (string points, rest)
    | '[' :: _, 0 => .error (.tooDeep .array)
    | '[' :: rest, room + 1 =>
      match skipSpace rest with
      | ']' :: rest => .ok (array [], rest)
      | rest => readItems rounds room [] rest
    | '\x7b' :: _, 0 => .error (.tooDeep .object)
    | '\x7b' :: rest, room + 1 =>
      match skipSpace rest with
      | '\x7d' :: rest => .ok (object [], rest)
      | rest => readMembers rounds room [] rest
    | text, _ => readScalar text

/-- Reads the items of an array to its end; `read` holds those so far in reverse. -/
def readItems : (rounds room : Nat) → (read : List Json) → Text → Except ReadFault (Json × Text)
  | 0, _, _, text => .error (.unexpected .value text.length)
  | rounds + 1, room, read, text =>
    match readValue rounds room text with
    | .error fault => .error fault
    | .ok (item, rest) =>
      match skipSpace rest with
      | ']' :: rest => .ok (array (item :: read).reverse, rest)
      | ',' :: rest => readItems rounds room (item :: read) (skipSpace rest)
      | rest => .error (.unexpected .comma rest.length)

/-- Reads the members of an object to its end; `read` holds those so far. -/
def readMembers :
    (rounds room : Nat) → (read : List (List Nat × Json)) → Text → Except ReadFault (Json × Text)
  | 0, _, _, text => .error (.unexpected .value text.length)
  | rounds + 1, room, read, text =>
    match readName text with
    | .error fault => .error fault
    | .ok (name, rest) =>
      match readValue rounds room rest with
      | .error fault => .error fault
      | .ok (value, rest) =>
        let read := setMember name value read
        match skipSpace rest with
        | '\x7d' :: rest => .ok (object read, rest)
        | ',' :: rest => readMembers rounds room read (skipSpace rest)
        | rest => .error (.unexpected .comma rest.length)

end

def byteOrderMark : Char := Char.ofNat 0xfeff

/-- Reads a text that holds one value and space around it, with `room` for as many containers inside each
other. -/
def read (room : Nat) (text : Text) : Except ReadFault Json :=
  if text.head? = some byteOrderMark then .error (.unexpected .noByteOrderMark text.length)
  else
    match readValue (2 * text.length + 2) room (skipSpace text) with
    | .error fault => .error fault
    | .ok (value, rest) =>
      match skipSpace rest with
      | [] => .ok value
      | rest => .error (.unexpected .theEnd rest.length)

/-- A place in a text: characters before it, and its line and column, which count from one. -/
structure Place where
  offset : Nat
  line : Nat
  column : Nat
deriving DecidableEq, Repr

/-- The place where `left` characters of a text are left. -/
def placeOf (text : Text) (left : Nat) : Place :=
  let passed := text.take (text.length - left)
  { offset := passed.length
    line := passed.count '\n' + 1
    column := (passed.reverse.takeWhile (· != '\n')).length + 1 }

def describe (text : Text) (expected : Expectation) (left : Nat) : String :=
  let place := placeOf text left
  s!"{expected.message}: line {place.line} column {place.column} (char {place.offset})"

end Lamplighter.Json
