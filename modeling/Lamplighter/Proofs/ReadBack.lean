import Lamplighter.Json.Printer
import Lamplighter.Json.Reader
import Lamplighter.Proofs.LineEndings
import Mathlib.Algebra.Order.Ring.Nat

/-! # Written values are read back

A value without fractions is read again from its text if its integers are not too long, its strings are
texts, no object has a name twice, and no container stands inside too many others. A string is read
character by character, each in one of three written forms. A number ends where a comma or a new line
follows, which is what stands behind every value inside a container. Arrays and objects are read piece by
piece, so they are read back if their pieces are. The text of such a value has no carriage return, so it
does not change when the line breaks of its file are made alike.
-/

namespace Lamplighter.Json

/-! ## Space -/

theorem skipSpace_cons {c : Char} (solid : isSpace c = false) (rest : Text) :
    skipSpace (c :: rest) = c :: rest := by
  rw [skipSpace, List.dropWhile_cons_of_neg (by simp [solid])]

theorem skipSpace_newline (level : Nat) (rest : Text) :
    skipSpace (newline level ++ rest) = skipSpace rest := by
  have spaces : ∀ c ∈ newline level, isSpace c = true := by
    intro c member
    rcases List.mem_cons.mp member with rfl | padding
    · rfl
    · rw [List.eq_of_mem_replicate padding]
      rfl
  rw [skipSpace, List.dropWhile_append, List.dropWhile_eq_nil_iff.mpr spaces]
  rfl

/-! ## Strings -/

theorem stringFrom_skip (start : Nat) (read : List Nat) (front rest : Text) :
    stringFrom start front.length read (front ++ rest) = stringFrom start 0 read rest := by
  induction front with
  | nil => rfl
  | cons c front ih => exact ih

theorem hexValue?_hexDigit {n : Nat} (small : n < 16) : hexValue? (Text.hexDigit n) = some n := by
  have all : ∀ n < 16, hexValue? (Text.hexDigit n) = some n := by decide
  exact all n small

theorem length_hex (width n : Nat) : (Text.hex width n).length = width := by
  induction width generalizing n with
  | zero => rfl
  | succ width ih => rw [Text.hex, List.length_append, ih, List.length_singleton]

theorem hexQuad?_hex {n : Nat} (small : n < 0x10000) {rest : Text} (more : rest ≠ []) :
    hexQuad? (Text.hex 4 n ++ rest) = some n := by
  have long : ¬ (Text.hex 4 n ++ rest).length ≤ 4 := by
    have filled := List.length_pos_iff.mpr more
    rw [List.length_append, length_hex]
    omega
  rw [hexQuad?, if_neg long, List.take_left' (length_hex 4 n)]
  simp only [Text.hex, List.nil_append, List.cons_append, List.mapM_cons, List.mapM_nil]
  rw [hexValue?_hexDigit (by omega), hexValue?_hexDigit (by omega), hexValue?_hexDigit (by omega),
    hexValue?_hexDigit (by omega)]
  simp only [Option.bind_eq_bind, Option.bind_some, Option.pure_def, Option.map_some, List.foldl_cons,
    List.foldl_nil, Option.some_inj]
  omega

/-- The three forms of a character in a string: an escape by a letter, one by its number, and itself. -/
theorem writePoint_cases (c : Char) :
    (∃ letter, letterEscape? letter = some c.toNat ∧ writePoint c.toNat = ['\\', letter]) ∨
      c.toNat < 0x20 ∧ writePoint c.toNat = '\\' :: 'u' :: Text.hex 4 c.toNat ∨
      c ≠ '\x22' ∧ c ≠ '\\' ∧ 0x20 ≤ c.toNat ∧ writePoint c.toNat = [c] := by
  generalize form : writePoint c.toNat = text
  unfold writePoint at form
  split_ifs at form with quote backslash back feed line ret tab control <;> subst form
  · exact .inl ⟨'\x22', quote ▸ rfl, rfl⟩
  · exact .inl ⟨'\\', backslash ▸ rfl, rfl⟩
  · exact .inl ⟨'b', back ▸ rfl, rfl⟩
  · exact .inl ⟨'f', feed ▸ rfl, rfl⟩
  · exact .inl ⟨'n', line ▸ rfl, rfl⟩
  · exact .inl ⟨'r', ret ▸ rfl, rfl⟩
  · exact .inl ⟨'t', tab ▸ rfl, rfl⟩
  · exact .inr (.inl ⟨control, rfl⟩)
  · refine .inr (.inr ⟨?_, ?_, by omega, by rw [Char.ofNat_toNat]⟩)
    · exact fun same => quote (congrArg Char.toNat same)
    · exact fun same => backslash (congrArg Char.toNat same)

section Escapes

variable (start : Nat) (read : List Nat)

theorem stringFrom_letter {letter : Char} {point : Nat} (escaped : letterEscape? letter = some point)
    (rest : Text) :
    stringFrom start 0 read ('\\' :: letter :: rest) = stringFrom start 0 (point :: read) rest := by
  have other : letter ≠ 'u' := by
    rintro rfl
    cases escaped
  have taken : escapeAfter start (letter :: rest) = .ok (point, 1) := by
    rw [escapeAfter, escaped]
    exact other
  simp [stringFrom, taken]

theorem stringFrom_number {point : Nat} (small : point < 0x20) {rest : Text} (more : rest ≠ []) :
    stringFrom start 0 read ('\\' :: 'u' :: Text.hex 4 point ++ rest) =
      stringFrom start 0 (point :: read) rest := by
  have single : isHighSurrogate point = false := by
    simp only [isHighSurrogate, Bool.and_eq_false_iff, decide_eq_false_iff_not]
    omega
  have taken : escapeAfter start ('u' :: Text.hex 4 point ++ rest) = .ok (point, 5) := by
    simp [escapeAfter, numberEscape, hexQuad?_hex (show point < 0x10000 by omega) more, single]
  have skipped := stringFrom_skip start (point :: read) ('u' :: Text.hex 4 point) rest
  rw [List.length_cons, length_hex] at skipped
  rw [← skipped]
  simp only [List.cons_append] at taken ⊢
  simp [stringFrom, taken]

theorem stringFrom_plain {c : Char} (unquoted : c ≠ '\x22') (unescaped : c ≠ '\\')
    (visible : 0x20 ≤ c.toNat) (rest : Text) :
    stringFrom start 0 read (c :: rest) = stringFrom start 0 (c.toNat :: read) rest := by
  rw [stringFrom, if_neg unquoted, if_neg unescaped, if_neg (by omega)]

theorem stringFrom_writePoint (c : Char) {rest : Text} (more : rest ≠ []) :
    stringFrom start 0 read (writePoint c.toNat ++ rest) = stringFrom start 0 (c.toNat :: read) rest := by
  rcases writePoint_cases c with ⟨letter, escaped, form⟩ | ⟨control, form⟩ |
    ⟨unquoted, unescaped, visible, form⟩
  · rw [form]
    exact stringFrom_letter start read escaped rest
  · rw [form]
    exact stringFrom_number start read control more
  · rw [form]
    exact stringFrom_plain start read unquoted unescaped visible rest

theorem stringFrom_writeText (text rest : Text) :
    stringFrom start 0 read ((text.map Char.toNat).flatMap writePoint ++ '\x22' :: rest) =
      .ok (read.reverse ++ text.map Char.toNat, rest) := by
  induction text generalizing read with
  | nil => simp [stringFrom]
  | cons c text ih =>
    rw [List.map_cons, List.flatMap_cons, List.append_assoc, stringFrom_writePoint start read c (by simp),
      ih, List.reverse_cons, List.append_assoc, List.singleton_append]

end Escapes

/-- The characters of a text are read back between quotes. -/
theorem readString_writeText (text rest : Text) :
    readString ((text.map Char.toNat).flatMap writePoint ++ '\x22' :: rest) =
      .ok (text.map Char.toNat, rest) :=
  stringFrom_writeText _ [] text rest

/-! ## Numbers -/

theorem digitsValue_toDigits (n : Nat) : digitsValue (Nat.toDigits 10 n) = n := by
  rw [digitsValue, Text.ofDigits, List.foldl_map]
  exact Nat.ofDigitChars_ten_toDigits

def decimals : List Char := "0123456789".toList

/-- The first digit of a number is a zero only for zero itself. -/
theorem exists_first_digit (n : Nat) :
    ∃ first others, Nat.toDigits 10 n = first :: others ∧ first ∈ decimals ∧ (0 < n → first ≠ '0') := by
  induction n using Nat.strongRecOn with
  | _ n ih =>
    by_cases single : n < 10
    · have all : ∀ n < 10, Nat.digitChar n ∈ decimals ∧ (0 < n → Nat.digitChar n ≠ '0') := by decide
      exact ⟨_, [], Nat.toDigits_of_lt_base single, all n single⟩
    · obtain ⟨first, others, digits, decimal, leading⟩ := ih (n / 10) (by omega)
      refine ⟨first, others ++ [Nat.digitChar (n % 10)], ?_, decimal, fun _ => leading (by omega)⟩
      rw [Nat.toDigits_of_base_le (by decide) (by omega), digits, List.cons_append]

/-- What stands behind a value in a written text: nothing, a comma or a new line. -/
def Follows (rest : Text) : Prop := ∀ c ∈ rest.head?, c = ',' ∨ c = '\n'

section Follows

variable {rest : Text} (follows : Follows rest)

include follows

theorem takeWhile_isDigit_of_follows : rest.takeWhile Char.isDigit = [] := by
  cases rest with
  | nil => rfl
  | cons c rest => rcases follows c rfl with rfl | rfl <;> rfl

theorem fractionDigits_of_follows : fractionDigits rest = [] := by
  cases rest with
  | nil => rfl
  | cons c rest => rcases follows c rfl with rfl | rfl <;> rfl

theorem exponent?_of_follows : exponent? rest = none := by
  cases rest with
  | nil => rfl
  | cons c rest => rcases follows c rfl with rfl | rfl <;> rfl

theorem integerDigits_toDigits (n : Nat) :
    integerDigits (Nat.toDigits 10 n ++ rest) = Nat.toDigits 10 n := by
  have digits : ∀ c ∈ Nat.toDigits 10 n, c.isDigit = true :=
    fun c => Nat.isDigit_of_mem_toDigits (by decide) (by decide)
  have taken : (Nat.toDigits 10 n ++ rest).takeWhile Char.isDigit = Nat.toDigits 10 n := by
    rw [List.takeWhile_append_of_pos digits, takeWhile_isDigit_of_follows follows, List.append_nil]
  rcases Nat.eq_zero_or_pos n with rfl | positive
  · rfl
  · obtain ⟨first, others, spelled, _, leading⟩ := exists_first_digit n
    rw [spelled, List.cons_append] at taken ⊢
    rw [integerDigits, taken]
    rintro _ same
    exact leading positive (List.cons.inj same).1

theorem readNumber_signed (negative : Bool) (n : Nat) :
    readNumber (Decimal.signed negative (Nat.toDigits 10 n) ++ rest) =
      if Text.digitLimit < (Nat.toDigits 10 n).length then .error (.digits (Nat.toDigits 10 n).length)
      else .ok (integer (if negative then -n else n), rest) := by
  obtain ⟨first, others, spelled, decimal, _⟩ := exists_first_digit n
  have filled : (Nat.toDigits 10 n).isEmpty = false := by
    rw [spelled]
    rfl
  have sign : ((Decimal.signed negative (Nat.toDigits 10 n) ++ rest).head? == some '-') = negative := by
    cases negative with
    | true => rfl
    | false =>
      have unsigned : first ≠ '-' := by
        rintro rfl
        exact absurd decimal (by decide)
      simp [Decimal.signed, spelled, unsigned]
  have unsigned : (if negative then (Decimal.signed negative (Nat.toDigits 10 n) ++ rest).drop 1
      else Decimal.signed negative (Nat.toDigits 10 n) ++ rest) = Nat.toDigits 10 n ++ rest := by
    cases negative <;> rfl
  simp only [readNumber, sign, unsigned, integerDigits_toDigits follows, filled, List.drop_left,
    fractionDigits_of_follows follows, exponent?_of_follows follows, digitsValue_toDigits,
    List.isEmpty_nil, ↓reduceIte, Bool.false_eq_true]

/-- An integer is read back from its digits, unless there are too many of them. -/
theorem readScalar_integerText (value : Int) :
    readScalar (integerText value ++ rest) =
      if Text.digitLimit < (Nat.toDigits 10 value.natAbs).length then
        .error (.digits (Nat.toDigits 10 value.natAbs).length)
      else .ok (integer value, rest) := by
  have unworded : wordValues.find? (fun word => word.1.isPrefixOf (integerText value ++ rest)) = none := by
    obtain ⟨first, others, spelled, decimal, _⟩ := exists_first_digit value.natAbs
    have letters : ∀ c ∉ decimals, c ≠ first := fun c other same => other (same ▸ decimal)
    rw [integerText, spelled]
    by_cases negative : value < 0
    · simp [wordValues, Decimal.signed, negative, letters 'I' (by decide)]
    · simp [wordValues, Decimal.signed, negative, letters 'n' (by decide), letters 't' (by decide),
        letters 'f' (by decide), letters 'N' (by decide), letters 'I' (by decide), letters '-' (by decide)]
  have same : (if decide (value < 0) = true then -(value.natAbs : Int) else value.natAbs) = value := by
    simp only [decide_eq_true_eq]
    omega
  rw [readScalar, unworded]
  dsimp only
  rw [integerText, readNumber_signed follows, same]

end Follows

/-! ## Values without others inside -/

def scalarStarts : List Char := ['n', 't', 'f', '-'] ++ decimals

def valueStarts : List Char := ['\x22', '[', '\x7b'] ++ scalarStarts

theorem solid_of_mem_valueStarts : ∀ c ∈ valueStarts, isSpace c = false := by
  intro c listed
  have none_blank : valueStarts.any isSpace = false := by decide
  exact Bool.eq_false_iff.mpr (List.any_eq_false.mp none_blank c listed)

/-- A value is read back: a reader with room for so many containers takes off its text and nothing behind
it. -/
structure ReadsBack (room : Nat) (value : Json) : Prop where
  starts : ∀ level, ∃ first others, write level value = first :: others ∧ first ∈ valueStarts
  reads : ∀ level rounds rest, Follows rest → 2 * (write level value).length ≤ rounds →
    readValue rounds room (write level value ++ rest) = .ok (value, rest)

theorem readValue_scalar {c : Char} (listed : c ∈ scalarStarts) (rounds room : Nat) (rest : Text) :
    readValue (rounds + 1) room (c :: rest) = readScalar (c :: rest) := by
  have unquoted : c ≠ '\x22' := fun same => absurd (same ▸ listed) (by decide)
  have square : c ≠ '[' := fun same => absurd (same ▸ listed) (by decide)
  have curly : c ≠ '\x7b' := fun same => absurd (same ▸ listed) (by decide)
  rw [readValue]
  · exact fun _ same => unquoted (List.cons.inj same).1
  · exact fun _ same _ => square (List.cons.inj same).1
  · exact fun _ _ same _ => square (List.cons.inj same).1
  · exact fun _ same _ => curly (List.cons.inj same).1
  · exact fun _ _ same _ => curly (List.cons.inj same).1

theorem readsBack_scalar {value : Json} (text : Text) (form : ∀ level, write level value = text)
    (first : ∃ c others, text = c :: others ∧ c ∈ scalarStarts)
    (reads : ∀ rest, Follows rest → readScalar (text ++ rest) = .ok (value, rest)) (room : Nat) :
    ReadsBack room value := by
  obtain ⟨c, others, rfl, listed⟩ := first
  refine ⟨fun level => ⟨c, others, form level, List.mem_append_right _ listed⟩,
    fun level rounds rest follows enough => ?_⟩
  rw [form] at enough ⊢
  cases rounds with
  | zero => cases enough
  | succ rounds =>
    rw [List.cons_append, readValue_scalar listed]
    exact reads rest follows

theorem readsBack_null (room : Nat) : ReadsBack room null :=
  readsBack_scalar "null".toList (fun _ => rfl) ⟨_, _, rfl, by decide⟩ (fun _ _ => rfl) room

theorem readsBack_bool (value : Bool) (room : Nat) : ReadsBack room (bool value) := by
  cases value with
  | true =>
    exact readsBack_scalar "true".toList (fun _ => rfl) ⟨_, _, rfl, by decide⟩ (fun _ _ => rfl) room
  | false =>
    exact readsBack_scalar "false".toList (fun _ => rfl) ⟨_, _, rfl, by decide⟩ (fun _ _ => rfl) room

theorem exists_integerText_cons (value : Int) :
    ∃ c others, integerText value = c :: others ∧ c ∈ scalarStarts := by
  obtain ⟨first, others, spelled, decimal, _⟩ := exists_first_digit value.natAbs
  rw [integerText, spelled]
  by_cases negative : value < 0
  · exact ⟨'-', first :: others, by simp [Decimal.signed, negative], by decide⟩
  · exact ⟨first, others, by simp [Decimal.signed, negative], List.mem_append_right _ decimal⟩

theorem readsBack_integer {value : Int} (short : value.natAbs < 10 ^ Text.digitLimit) (room : Nat) :
    ReadsBack room (integer value) := by
  refine readsBack_scalar (integerText value) (fun level => by rw [write]) (exists_integerText_cons value)
    (fun rest follows => ?_) room
  rw [readScalar_integerText follows, if_neg]
  rw [not_lt, Nat.length_toDigits_le_iff (by decide) (by decide)]
  exact short

theorem write_ofText (level : Nat) (text : Text) :
    write level (ofText text) = '\x22' :: ((text.map Char.toNat).flatMap writePoint ++ ['\x22']) := by
  rw [ofText, write, writeString, List.cons_append]

theorem readsBack_string (text : Text) (room : Nat) : ReadsBack room (ofText text) := by
  refine ⟨fun level => ⟨_, _, write_ofText level text, by decide⟩,
    fun level rounds rest _ enough => ?_⟩
  rw [write_ofText] at enough ⊢
  cases rounds with
  | zero => cases enough
  | succ rounds =>
    rw [List.cons_append, List.append_assoc, List.singleton_append, readValue, readString_writeText]
    rfl

/-! ## Rows of pieces -/

def writeMember (level : Nat) (member : List Nat × Json) : Text :=
  writeString member.1 ++ ": ".toList ++ write level member.2

theorem writeItems_eq (level : Nat) (items : List Json) : writeItems level items = items.map (write level) := by
  induction items with
  | nil => rw [writeItems, List.map_nil]
  | cons item rest ih => rw [writeItems, ih, List.map_cons]

theorem writeMembers_eq (level : Nat) (members : List (List Nat × Json)) :
    writeMembers level members = members.map (writeMember level) := by
  induction members with
  | nil => rw [writeMembers, List.map_nil]
  | cons member rest ih =>
    rw [writeMembers, ih, List.map_cons]
    rfl

/-- Pieces with a comma and a new line between them. -/
def row (level : Nat) (pieces : List Text) : Text := Text.join (',' :: newline level) pieces

theorem row_singleton (level : Nat) (piece : Text) : row level [piece] = piece := by
  rw [row, Text.join, List.intercalate_singleton]

theorem row_cons_cons (level : Nat) (piece next : Text) (pieces : List Text) :
    row level (piece :: next :: pieces) =
      piece ++ ',' :: (newline level ++ row level (next :: pieces)) := by
  simp [row, Text.join, List.intercalate_cons_cons]

theorem exists_row_cons (level : Nat) (c : Char) (piece : Text) (pieces : List Text) :
    ∃ others, row level ((c :: piece) :: pieces) = c :: others := by
  cases pieces with
  | nil => exact ⟨piece, row_singleton level _⟩
  | cons next pieces => exact ⟨_, row_cons_cons level (c :: piece) next pieces⟩

theorem writeBlock_cons (level : Nat) (opening closing : Char) (piece : Text) (pieces : List Text) :
    writeBlock level opening closing (piece :: pieces) =
      opening :: (newline (level + 1) ++
        (row (level + 1) (piece :: pieces) ++ (newline level ++ [closing]))) := by
  simp [writeBlock, row]

theorem follows_newline (level : Nat) (rest : Text) : Follows (newline level ++ rest) := by
  intro c first
  exact .inr (Option.some.inj first).symm

theorem follows_comma (rest : Text) : Follows (',' :: rest) := by
  intro c first
  exact .inl (Option.some.inj first).symm

/-! ## Arrays -/

section Items

variable {room level deeper : Nat}

/-- The row of an array starts as its first item does. -/
theorem ReadsBack.exists_row {item : Json} (back : ReadsBack room item) (deeper : Nat) (items : List Json) :
    ∃ first others, row deeper ((item :: items).map (write deeper)) = first :: others ∧
      first ∈ valueStarts := by
  obtain ⟨first, others, form, listed⟩ := back.starts deeper
  obtain ⟨more, joined⟩ := exists_row_cons deeper first others (items.map (write deeper))
  refine ⟨first, more, ?_, listed⟩
  rw [List.map_cons, form, joined]

theorem readItems_row {items : List Json} (filled : items ≠ [])
    (inside : ∀ item ∈ items, ReadsBack room item) (rounds : Nat) (read : List Json) (rest : Text)
    (enough : 2 * (row deeper (items.map (write deeper))).length + 1 ≤ rounds) :
    readItems rounds room read (row deeper (items.map (write deeper)) ++ (newline level ++ ']' :: rest)) =
      .ok (array (read.reverse ++ items), rest) := by
  induction items generalizing rounds read with
  | nil => exact absurd rfl filled
  | cons item others ih =>
    obtain ⟨rounds, rfl⟩ : ∃ fewer, rounds = fewer + 1 := ⟨rounds - 1, by omega⟩
    have first := inside item List.mem_cons_self
    have later : ∀ other ∈ others, ReadsBack room other :=
      fun other member => inside other (List.mem_cons_of_mem item member)
    cases others with
    | nil =>
      rw [List.map_singleton, row_singleton] at enough ⊢
      rw [readItems, first.reads deeper rounds _ (follows_newline level _) (by omega)]
      simp only [skipSpace_newline, skipSpace_cons (show isSpace ']' = false from rfl)]
      rw [List.reverse_cons]
    | cons next others =>
      obtain ⟨c, text, opened, listed⟩ := (later next List.mem_cons_self).exists_row deeper others
      have started := ih (List.cons_ne_nil _ _) later rounds (item :: read)
      rw [List.map_cons, List.map_cons, row_cons_cons, ← List.map_cons] at enough ⊢
      simp only [List.length_append, List.length_cons] at enough
      rw [List.append_assoc, List.cons_append, List.append_assoc, readItems,
        first.reads deeper rounds _ (follows_comma _) (by omega)]
      simp only [skipSpace_newline, skipSpace_cons (show isSpace ',' = false from rfl)]
      rw [opened, List.cons_append, skipSpace_cons (solid_of_mem_valueStarts c listed),
        ← List.cons_append, ← opened,
        started (by omega), List.reverse_cons, List.append_assoc, List.singleton_append]

theorem readValue_bracket {c : Char} (listed : c ∈ valueStarts) (rounds : Nat) (text : Text) :
    readValue (rounds + 1) (room + 1) ('[' :: (newline level ++ c :: text)) =
      readItems rounds room [] (c :: text) := by
  rw [readValue, skipSpace_newline, skipSpace_cons (solid_of_mem_valueStarts c listed)]
  split
  case h_1 same =>
    rw [(List.cons.inj same).1] at listed
    exact absurd listed (by decide)
  case h_2 => rfl

/-- An array is read back if its items are. -/
theorem readsBack_array {items : List Json} (inside : ∀ item ∈ items, ReadsBack room item) :
    ReadsBack (room + 1) (array items) := by
  cases items with
  | nil =>
    have form : ∀ level, write level (array []) = ['[', ']'] := by
      intro level
      rw [write, writeItems]
      rfl
    refine ⟨fun level => ⟨_, _, form level, by decide⟩, fun level rounds rest _ enough => ?_⟩
    rw [form] at enough ⊢
    cases rounds with
    | zero => cases enough
    | succ rounds =>
      rw [List.cons_append, readValue]
      rfl
  | cons item others =>
    have form : ∀ level, write level (array (item :: others)) = '[' :: (newline (level + 1) ++
        (row (level + 1) ((item :: others).map (write (level + 1))) ++ (newline level ++ [']']))) := by
      intro level
      rw [write, writeItems_eq, List.map_cons, writeBlock_cons]
    refine ⟨fun level => ⟨_, _, form level, by decide⟩, fun level rounds rest _ enough => ?_⟩
    obtain ⟨c, text, opened, listed⟩ := (inside item List.mem_cons_self).exists_row (level + 1) others
    rw [form] at enough ⊢
    simp only [List.append_assoc, List.cons_append, List.length_append, List.length_cons,
      List.nil_append] at enough ⊢
    obtain ⟨rounds, rfl⟩ : ∃ fewer, rounds = fewer + 1 := ⟨rounds - 1, by omega⟩
    rw [opened, List.cons_append, readValue_bracket listed, ← List.cons_append, ← opened]
    exact readItems_row (List.cons_ne_nil _ _) inside rounds [] rest (by omega)

end Items

/-! ## Objects -/

theorem setMember_of_absent {name : List Nat} {members : List (List Nat × Json)}
    (absent : name ∉ members.map Prod.fst) (value : Json) :
    setMember name value members = members ++ [(name, value)] := by
  induction members with
  | nil => rfl
  | cons member rest ih =>
    obtain ⟨other, later⟩ := not_or.mp (mt List.mem_cons.mpr absent)
    rw [setMember, if_neg (Ne.symm other), ih later, List.cons_append]

theorem readName_writeString (name : Text) {c : Char} (solid : isSpace c = false) (rest : Text) :
    readName (writeString (name.map Char.toNat) ++ (": ".toList ++ c :: rest)) =
      .ok (name.map Char.toNat, c :: rest) := by
  have colon : skipSpace (": ".toList ++ c :: rest) = ':' :: ' ' :: c :: rest := rfl
  have space : skipSpace (' ' :: c :: rest) = c :: rest := skipSpace_cons solid rest
  rw [writeString, List.cons_append, List.cons_append, List.append_assoc, List.singleton_append, readName,
    readString_writeText]
  simp only [colon, space]

/-- A member is read back if its name is a text and its value is read back. -/
def MemberReadsBack (room : Nat) (member : List Nat × Json) : Prop :=
  (∃ name : Text, member.1 = name.map Char.toNat) ∧ ReadsBack room member.2

section Members

variable {room level deeper : Nat}

theorem MemberReadsBack.readName {member : List Nat × Json} (back : MemberReadsBack room member)
    (rest : Text) :
    readName (writeMember deeper member ++ rest) = .ok (member.1, write deeper member.2 ++ rest) := by
  obtain ⟨⟨name, spelled⟩, value⟩ := back
  obtain ⟨c, others, form, listed⟩ := value.starts deeper
  rw [writeMember, spelled, form, List.append_assoc, List.append_assoc, List.cons_append,
    readName_writeString name (solid_of_mem_valueStarts c listed)]

theorem exists_row_member (deeper : Nat) (member : List Nat × Json) (members : List (List Nat × Json)) :
    ∃ others, row deeper ((member :: members).map (writeMember deeper)) = '\x22' :: others := by
  rw [List.map_cons, writeMember, writeString, List.cons_append, List.cons_append, List.cons_append]
  exact exists_row_cons deeper '\x22' _ _

theorem readMembers_row {members : List (List Nat × Json)} (filled : members ≠ [])
    (inside : ∀ member ∈ members, MemberReadsBack room member) (rounds : Nat)
    (read : List (List Nat × Json)) (distinct : ((read ++ members).map Prod.fst).Nodup) (rest : Text)
    (enough : 2 * (row deeper (members.map (writeMember deeper))).length + 1 ≤ rounds) :
    readMembers rounds room read
        (row deeper (members.map (writeMember deeper)) ++ (newline level ++ '\x7d' :: rest)) =
      .ok (object (read ++ members), rest) := by
  induction members generalizing rounds read with
  | nil => exact absurd rfl filled
  | cons member others ih =>
    obtain ⟨rounds, rfl⟩ : ∃ fewer, rounds = fewer + 1 := ⟨rounds - 1, by omega⟩
    have first := inside member List.mem_cons_self
    have later : ∀ other ∈ others, MemberReadsBack room other :=
      fun other listed => inside other (List.mem_cons_of_mem member listed)
    have absent : member.1 ∉ read.map Prod.fst := by
      rw [List.map_append, List.map_cons, List.nodup_append] at distinct
      exact fun listed => distinct.2.2 _ listed _ List.mem_cons_self rfl
    have short : (write deeper member.2).length ≤ (writeMember deeper member).length := by
      rw [writeMember, List.length_append]
      omega
    cases others with
    | nil =>
      rw [List.map_singleton, row_singleton] at enough ⊢
      rw [readMembers, first.readName]
      dsimp only
      rw [first.2.reads deeper rounds _ (follows_newline level _) (by omega)]
      simp only [skipSpace_newline, skipSpace_cons (show isSpace '\x7d' = false from rfl)]
      rw [setMember_of_absent absent]
    | cons next others =>
      obtain ⟨more, opened⟩ := exists_row_member deeper next others
      have started := ih (List.cons_ne_nil _ _) later rounds (read ++ [member])
        (by rwa [List.append_assoc, List.singleton_append])
      rw [List.map_cons, List.map_cons, row_cons_cons, ← List.map_cons] at enough ⊢
      simp only [List.length_append, List.length_cons] at enough
      rw [List.append_assoc, List.cons_append, List.append_assoc, readMembers, first.readName]
      dsimp only
      rw [first.2.reads deeper rounds _ (follows_comma _) (by omega)]
      simp only [skipSpace_newline, skipSpace_cons (show isSpace ',' = false from rfl)]
      rw [opened, List.cons_append, skipSpace_cons rfl, ← List.cons_append, ← opened,
        setMember_of_absent absent, started (by omega), List.append_assoc, List.singleton_append]

theorem readValue_brace (rounds : Nat) (text : Text) :
    readValue (rounds + 1) (room + 1) ('\x7b' :: (newline level ++ '\x22' :: text)) =
      readMembers rounds room [] ('\x22' :: text) := by
  rw [readValue, skipSpace_newline, skipSpace_cons rfl]
  rfl

theorem write_object_cons (level : Nat) (member : List Nat × Json) (others : List (List Nat × Json)) :
    write level (object (member :: others)) = '\x7b' :: (newline (level + 1) ++
      (row (level + 1) ((member :: others).map (writeMember (level + 1))) ++
        (newline level ++ ['\x7d']))) := by
  rw [write, writeMembers_eq, List.map_cons, writeBlock_cons]

/-- An object is read back if its members are and no name stands twice. -/
theorem readsBack_object {members : List (List Nat × Json)}
    (inside : ∀ member ∈ members, MemberReadsBack room member)
    (distinct : (members.map Prod.fst).Nodup) : ReadsBack (room + 1) (object members) := by
  cases members with
  | nil =>
    have form : ∀ level, write level (object []) = ['\x7b', '\x7d'] := by
      intro level
      rw [write, writeMembers]
      rfl
    refine ⟨fun level => ⟨_, _, form level, by decide⟩, fun level rounds rest _ enough => ?_⟩
    rw [form] at enough ⊢
    cases rounds with
    | zero => cases enough
    | succ rounds =>
      rw [List.cons_append, readValue]
      rfl
  | cons member others =>
    refine ⟨fun level => ⟨_, _, write_object_cons level member others, by decide⟩,
      fun level rounds rest _ enough => ?_⟩
    obtain ⟨text, opened⟩ := exists_row_member (level + 1) member others
    rw [write_object_cons] at enough ⊢
    simp only [List.append_assoc, List.cons_append, List.length_append, List.length_cons,
      List.nil_append] at enough ⊢
    obtain ⟨rounds, rfl⟩ : ∃ fewer, rounds = fewer + 1 := ⟨rounds - 1, by omega⟩
    rw [opened, List.cons_append, readValue_brace, ← List.cons_append, ← opened]
    exact readMembers_row (List.cons_ne_nil _ _) inside rounds [] distinct rest (by omega)

end Members

/-! ## All values -/

/-- The values that are read back with room for so many containers inside each other. -/
inductive Readable : (room : Nat) → Json → Prop
  | null {room : Nat} : Readable room null
  | bool {room : Nat} (value : Bool) : Readable room (bool value)
  | integer {room : Nat} {value : Int} (short : value.natAbs < 10 ^ Text.digitLimit) :
      Readable room (integer value)
  | string {room : Nat} (text : Text) : Readable room (ofText text)
  | array {room : Nat} {items : List Json} (inside : ∀ item ∈ items, Readable room item) :
      Readable (room + 1) (array items)
  | object {room : Nat} {members : List (List Nat × Json)}
      (named : ∀ member ∈ members, ∃ name : Text, member.1 = name.map Char.toNat)
      (distinct : (members.map Prod.fst).Nodup) (inside : ∀ member ∈ members, Readable room member.2) :
      Readable (room + 1) (object members)

theorem Readable.readsBack {room : Nat} {value : Json} (readable : Readable room value) :
    ReadsBack room value := by
  induction readable with
  | null => exact readsBack_null _
  | bool value => exact readsBack_bool value _
  | integer short => exact readsBack_integer short _
  | string text => exact readsBack_string text _
  | array _ ih => exact readsBack_array ih
  | object named distinct _ ih =>
    exact readsBack_object (fun member listed => ⟨named member listed, ih member listed⟩) distinct

/-- A text that starts like a value has no mark and no space before it. -/
theorem unmarked_of_mem_valueStarts {c : Char} (listed : c ∈ valueStarts) (text : Text) :
    (c :: text).head? ≠ some byteOrderMark ∧ skipSpace (c :: text) = c :: text := by
  refine ⟨fun same => ?_, skipSpace_cons (solid_of_mem_valueStarts c listed) text⟩
  have marked : byteOrderMark ∈ valueStarts := Option.some.inj same ▸ listed
  exact absurd marked (by decide)

/-- A value is read from its text with a line break behind it. -/
theorem read_write {room : Nat} {value : Json} (readable : Readable room value) :
    read room (write 0 value ++ ['\n']) = .ok value := by
  have back := readable.readsBack
  obtain ⟨first, others, form, listed⟩ := back.starts 0
  have reads := back.reads 0 (2 * (write 0 value ++ ['\n']).length + 2) ['\n'] (follows_newline 0 [])
    (by rw [List.length_append]; omega)
  rw [form, List.cons_append] at reads ⊢
  obtain ⟨unmarked, skipped⟩ := unmarked_of_mem_valueStarts listed (others ++ ['\n'])
  rw [read, if_neg unmarked, skipped, reads]
  rfl

/-- An integer that is too long ends the reading of the object that it stands in. -/
theorem readValue_of_long (name : Text) {value : Int}
    (long : Text.digitLimit < (Nat.toDigits 10 value.natAbs).length) (level rounds room : Nat) (rest : Text) :
    readValue (rounds + 3) (room + 1) (write level (object [(name.map Char.toNat, integer value)]) ++ rest) =
      .error (.digits (Nat.toDigits 10 value.natAbs).length) := by
  obtain ⟨c, digits, spelled, listed⟩ := exists_integerText_cons value
  have solid : isSpace c = false := solid_of_mem_valueStarts c (List.mem_append_right _ listed)
  obtain ⟨more, opened⟩ := exists_row_member (level + 1) (name.map Char.toNat, integer value) []
  rw [write_object_cons, List.cons_append, List.append_assoc, List.append_assoc, opened, List.cons_append,
    readValue_brace, readMembers, ← List.cons_append, ← opened, List.map_singleton, row_singleton,
    writeMember, write, spelled, List.append_assoc, List.append_assoc, List.cons_append,
    readName_writeString name solid]
  dsimp only
  rw [readValue_scalar listed, ← List.cons_append, ← spelled, List.append_assoc,
    readScalar_integerText (follows_newline level _), if_pos long]

theorem read_of_long (name : Text) {value : Int}
    (long : Text.digitLimit < (Nat.toDigits 10 value.natAbs).length) (room : Nat) :
    read (room + 1) (write 0 (object [(name.map Char.toNat, integer value)]) ++ ['\n']) =
      .error (.digits (Nat.toDigits 10 value.natAbs).length) := by
  obtain ⟨text, opened⟩ : ∃ text, write 0 (object [(name.map Char.toNat, integer value)]) = '\x7b' :: text :=
    ⟨_, write_object_cons 0 _ []⟩
  have stopped := readValue_of_long name long 0 (2 * (text ++ ['\n']).length + 1) room ['\n']
  rw [opened, List.cons_append] at stopped ⊢
  obtain ⟨unmarked, skipped⟩ := unmarked_of_mem_valueStarts (by decide : '\x7b' ∈ valueStarts) (text ++ ['\n'])
  rw [read, if_neg unmarked, skipped, List.length_cons,
    show 2 * ((text ++ ['\n']).length + 1) + 2 = 2 * (text ++ ['\n']).length + 1 + 3 by omega, stopped]

/-! ## Line breaks -/

theorem exists_hexDigit_of_mem_hex {width n : Nat} {c : Char} (member : c ∈ Text.hex width n) :
    ∃ digit < 16, c = Text.hexDigit digit := by
  induction width generalizing n with
  | zero => cases member
  | succ width ih =>
    rcases List.mem_append.mp member with earlier | last
    · exact ih earlier
    · exact ⟨n % 16, by omega, List.mem_singleton.mp last⟩

theorem return_not_mem_writePoint (c : Char) : '\r' ∉ writePoint c.toNat := by
  intro member
  rcases writePoint_cases c with ⟨letter, escaped, form⟩ | ⟨_, form⟩ | ⟨_, _, visible, form⟩
  · rw [form, List.mem_cons, List.mem_singleton] at member
    rcases member with same | rfl
    · cases same
    · cases escaped
  · rw [form, List.mem_cons, List.mem_cons] at member
    rcases member with same | same | inside
    · cases same
    · cases same
    · obtain ⟨digit, small, same⟩ := exists_hexDigit_of_mem_hex inside
      have value := hexValue?_hexDigit small
      rw [← same] at value
      cases value
  · rw [form, List.mem_singleton] at member
    rw [← member] at visible
    exact absurd visible (by decide)

theorem return_not_mem_writeString (text : Text) : '\r' ∉ writeString (text.map Char.toNat) := by
  intro member
  rw [writeString, List.cons_append, List.mem_cons, List.mem_append, List.mem_singleton] at member
  rcases member with same | inside | same
  · cases same
  · obtain ⟨point, listed, inside⟩ := List.mem_flatMap.mp inside
    obtain ⟨c, _, rfl⟩ := List.mem_map.mp listed
    exact return_not_mem_writePoint c inside
  · cases same

theorem return_not_mem_integerText (value : Int) : '\r' ∉ integerText value := by
  have digits : '\r' ∉ Nat.toDigits 10 value.natAbs := by
    intro member
    exact absurd (Nat.isDigit_of_mem_toDigits (by decide) (by decide) member) (by decide)
  rw [integerText, Decimal.signed]
  split_ifs
  · rw [List.mem_cons]
    exact not_or.mpr ⟨by decide, digits⟩
  · exact digits

theorem return_not_mem_newline (level : Nat) : '\r' ∉ newline level := by
  simp [newline]

theorem return_not_mem_writeBlock {level : Nat} {opening closing : Char} {pieces : List Text}
    (first : opening ≠ '\r') (last : closing ≠ '\r') (inside : ∀ piece ∈ pieces, '\r' ∉ piece) :
    '\r' ∉ writeBlock level opening closing pieces := by
  cases pieces with
  | nil => simp [writeBlock, first.symm, last.symm]
  | cons piece pieces =>
    have separator : '\r' ∉ ',' :: newline (level + 1) := by
      rw [List.mem_cons]
      exact not_or.mpr ⟨by decide, return_not_mem_newline (level + 1)⟩
    have joined : '\r' ∉ row (level + 1) (piece :: pieces) := Text.not_mem_join inside separator
    simp [writeBlock_cons, return_not_mem_newline, joined, first.symm, last.symm]

theorem return_not_mem_write_object {level : Nat} {members : List (List Nat × Json)}
    (named : ∀ member ∈ members, ∃ name : Text, member.1 = name.map Char.toNat)
    (inside : ∀ member ∈ members, '\r' ∉ write (level + 1) member.2) :
    '\r' ∉ write level (object members) := by
  rw [write, writeMembers_eq]
  refine return_not_mem_writeBlock (by decide) (by decide) fun piece listed => ?_
  obtain ⟨member, held, rfl⟩ := List.mem_map.mp listed
  obtain ⟨name, spelled⟩ := named member held
  rw [writeMember, spelled, List.mem_append, List.mem_append]
  exact not_or.mpr ⟨not_or.mpr ⟨return_not_mem_writeString name, by decide⟩, inside member held⟩

/-- No carriage return stands in the text of a value. -/
theorem Readable.return_not_mem_write {room : Nat} {value : Json} (readable : Readable room value)
    (level : Nat) : '\r' ∉ write level value := by
  induction readable generalizing level with
  | null => exact (by decide : '\r' ∉ "null".toList)
  | bool value =>
    cases value with
    | true => exact (by decide : '\r' ∉ "true".toList)
    | false => exact (by decide : '\r' ∉ "false".toList)
  | integer =>
    rw [write]
    exact return_not_mem_integerText _
  | string text =>
    rw [ofText, write]
    exact return_not_mem_writeString text
  | array _ ih =>
    rw [write, writeItems_eq]
    refine return_not_mem_writeBlock (by decide) (by decide) fun piece listed => ?_
    obtain ⟨item, inside, rfl⟩ := List.mem_map.mp listed
    exact ih item inside (level + 1)
  | object named _ _ ih =>
    exact return_not_mem_write_object named fun member listed => ih member listed (level + 1)

end Lamplighter.Json

namespace Lamplighter.CommandLine

/-- A file with the text of a value and no carriage return in it is read as that text. -/
theorem Stores.holds_write {files : Files} {path : Path} {value : Json} (clear : '\r' ∉ value.write 0)
    (stored : Stores files path (value.write 0 ++ ['\n'])) : Holds files path (value.write 0 ++ ['\n']) := by
  have held := stored.holds
  rwa [Text.unifyNewlines_append clear] at held

end Lamplighter.CommandLine
