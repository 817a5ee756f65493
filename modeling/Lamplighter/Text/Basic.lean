/-! # Texts

A text is a list of characters: every length, index and width of this library counts characters,
and a reader takes a text apart from the left. Here are the cuts that several readers share.
-/

namespace Lamplighter

/-- A text as the list of its characters. -/
abbrev Text := List Char

/-- Puts an item before the first one that it may stand before. -/
def insertBy {α : Type} (le : α → α → Bool) (item : α) : List α → List α
  | [] => [item]
  | other :: rest => if le item other then item :: other :: rest else other :: insertBy le item rest

def sortBy {α : Type} (le : α → α → Bool) (items : List α) : List α := items.foldr (insertBy le) []

namespace Text

/-- Whether a number lies in one of the given inclusive ranges. -/
def inRanges (ranges : List (Nat × Nat)) (n : Nat) : Bool :=
  ranges.any fun range => range.1 ≤ n && n ≤ range.2

/-- The pieces between the characters that `cut` selects, one more than there are such characters. -/
def splitWhere (cut : Char → Bool) : Text → List Text
  | [] => [[]]
  | c :: rest =>
    if cut c then [] :: splitWhere cut rest
    else match splitWhere cut rest with
      | [] => [[c]]
      | piece :: pieces => (c :: piece) :: pieces

theorem splitWhere_ne_nil (cut : Char → Bool) (text : Text) : splitWhere cut text ≠ [] := by
  cases text with
  | nil => simp [splitWhere]
  | cons c rest =>
    simp only [splitWhere]
    split
    · simp
    · split <;> simp

def splitAt (separator : Char) (text : Text) : List Text := splitWhere (· == separator) text

/-- The part before the first occurrence of a character, or the whole text. -/
def before (c : Char) (text : Text) : Text := text.takeWhile (· != c)

/-- The part before the last occurrence of a character, or the empty text. -/
def beforeLast (c : Char) (text : Text) : Text := ((text.reverse.dropWhile (· != c)).drop 1).reverse

/-- The part after the first occurrence of a character, or none without one. -/
def after? (c : Char) (text : Text) : Option Text :=
  match text.dropWhile (· != c) with
  | [] => none
  | _ :: rest => some rest

def join (separator : Text) (texts : List Text) : Text := List.intercalate separator texts

/-- Whether a text comes before another, or is the same, in the order of their characters. -/
def le : Text → Text → Bool
  | [], _ => true
  | _ :: _, [] => false
  | a :: as, b :: bs => a.toNat < b.toNat || (a.toNat == b.toNat && le as bs)

def sort (texts : List Text) : List Text := sortBy le texts

end Text

end Lamplighter
