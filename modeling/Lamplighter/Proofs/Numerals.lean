import Lamplighter.Json.Value
import Lamplighter.Proofs.Pieces
import Lamplighter.Token.Count
import Mathlib.Data.List.Induction
import Mathlib.Data.Nat.Digits.Defs

/-! # Numerals and the counts of loops

An integer is spelled as an optional sign and a row of digits, of any scripts and with single underscores
between them; the row denotes what its digits are worth at their places. The reader of numerals takes exactly
these spellings, up to the limit on the number of digits, and so the count of a loop is read from exactly the
tokens of two words whose second one is such a spelling.
-/

namespace Lamplighter

namespace Text

/-! ## Digits -/

/-- A character is the digit of a value: it stands that many places behind the zero of some script. -/
def DigitOf (c : Char) (value : Nat) : Prop :=
  value < 10 ∧ ∃ first ∈ '0'.toNat :: digitZeros, c.toNat = first + value

instance (c : Char) (value : Nat) : Decidable (DigitOf c value) :=
  decidable_of_iff (value < 10 ∧ (('0'.toNat :: digitZeros).any fun first => c.toNat == first + value) = true)
    (by simp only [DigitOf, List.any_eq_true, beq_iff_eq])

private theorem digitZeros_apart :
    ∀ low ∈ digitZeros, ∀ high ∈ digitZeros, low = high ∨ low + 10 ≤ high ∨ high + 10 ≤ low := by
  decide +kernel

private theorem digitZeros_above :
    ∀ first ∈ digitZeros, 0x80 ≤ first ∧ ∀ blank ∈ blankRanges, first + 10 ≤ blank.1 ∨ blank.2 < first := by
  decide +kernel

/-- A digit is one of ASCII or one of another script above it. -/
theorem DigitOf.bounds {c : Char} {value : Nat} (digit : DigitOf c value) :
    (48 ≤ c.toNat ∧ c.toNat ≤ 57 ∧ c.toNat = 48 + value) ∨
      (0x80 ≤ c.toNat ∧ ∃ first ∈ digitZeros,
        first ≤ c.toNat ∧ c.toNat < first + 10 ∧ c.toNat = first + value) := by
  obtain ⟨small, first, listed, stands⟩ := digit
  rcases List.mem_cons.mp listed with rfl | later
  · have ascii : '0'.toNat = 48 := rfl
    exact .inl ⟨by omega, by omega, by omega⟩
  · have above := (digitZeros_above first later).1
    exact .inr ⟨by omega, first, later, by omega, by omega, stands⟩

/-- The table of zeros gives every digit its one value. -/
theorem digitValue?_eq_some_iff {c : Char} {value : Nat} : digitValue? c = some value ↔ DigitOf c value := by
  have least : '0'.toNat = 48 := rfl
  have most : '9'.toNat = 57 := rfl
  unfold digitValue?
  constructor
  · intro read
    split_ifs at read with ascii decimal
    · rw [Char.isDigit_iff_toNat] at decimal
      cases read
      exact ⟨by omega, '0'.toNat, List.mem_cons_self, by omega⟩
    · obtain ⟨first, found, rfl⟩ := Option.map_eq_some_iff.mp read
      have bounds := List.find?_some found
      simp only [Bool.and_eq_true, decide_eq_true_eq] at bounds
      exact ⟨by omega, first, List.mem_cons_of_mem _ (List.mem_of_find?_eq_some found), by omega⟩
  · intro digit
    rcases digit.bounds with ⟨lower, upper, stands⟩ | ⟨above, first, listed, lower, upper, stands⟩
    · have decimal : c.isDigit = true := Char.isDigit_iff_toNat.mpr (by omega)
      rw [if_pos (by omega), if_pos decimal]
      exact congrArg some (by omega)
    · rw [if_neg (by omega)]
      cases found : digitZeros.find? fun first => first ≤ c.toNat && c.toNat < first + 10 with
      | none =>
        have none := List.find?_eq_none.mp found first listed
        simp only [Bool.and_eq_true, decide_eq_true_eq] at none
        omega
      | some other =>
        have bounds := List.find?_some found
        simp only [Bool.and_eq_true, decide_eq_true_eq] at bounds
        have apart := digitZeros_apart first listed other (List.mem_of_find?_eq_some found)
        have same : c.toNat - other = value := by omega
        exact congrArg some same

theorem DigitOf.isBlank_eq_false {c : Char} {value : Nat} (digit : DigitOf c value) : isBlank c = false := by
  rw [Bool.eq_false_iff]
  intro blank
  unfold isBlank isInformationSeparator at blank
  rcases digit.bounds with ⟨lower, upper, _⟩ | ⟨above, first, listed, lower, upper, _⟩
  · rw [if_pos (by omega)] at blank
    simp only [Bool.or_eq_true, Bool.and_eq_true, beq_iff_eq, decide_eq_true_eq] at blank
    omega
  · rw [if_neg (by omega)] at blank
    simp only [inRanges, List.any_eq_true, Bool.and_eq_true, decide_eq_true_eq] at blank
    obtain ⟨range, member, least, most⟩ := blank
    have apart := (digitZeros_above first listed).2 range member
    omega

/-- The marks of a numeral are no digits. -/
theorem DigitOf.ne_mark {c : Char} {value : Nat} (digit : DigitOf c value) : c ≠ '_' ∧ c ≠ '+' ∧ c ≠ '-' := by
  have not_mark (mark : Char) (ascii : mark.toNat < 0x80) (none : mark.isDigit = false) : c ≠ mark := by
    rintro rfl
    have read := digitValue?_eq_some_iff.mpr digit
    simp [digitValue?, ascii, none] at read
  exact ⟨not_mark '_' (by decide) rfl, not_mark '+' (by decide) rfl, not_mark '-' (by decide) rfl⟩

/-! ## Spellings -/

/-- Digits with at most one underscore between any two, and their values from left to right. -/
inductive DigitRow : Text → List Nat → Prop where
  | last {c : Char} {value : Nat} (digit : DigitOf c value) : DigitRow [c] [value]
  | next {c : Char} {value : Nat} {text : Text} {values : List Nat} (digit : DigitOf c value)
      (rest : DigitRow text values) : DigitRow (c :: text) (value :: values)
  | spaced {c : Char} {value : Nat} {text : Text} {values : List Nat} (digit : DigitOf c value)
      (rest : DigitRow text values) : DigitRow (c :: '_' :: text) (value :: values)

/-- A text spells an integer: an optional sign, and a row of at most 4300 digits that are worth tens, hundreds
and so on from the right. -/
inductive Spells : Text → Int → Prop where
  | unsigned {text : Text} {values : List Nat} (row : DigitRow text values) (short : values.length ≤ 4300) :
      Spells text (Nat.ofDigits 10 values.reverse : Nat)
  | positive {text : Text} {values : List Nat} (row : DigitRow text values) (short : values.length ≤ 4300) :
      Spells ('+' :: text) (Nat.ofDigits 10 values.reverse : Nat)
  | negative {text : Text} {values : List Nat} (row : DigitRow text values) (short : values.length ≤ 4300) :
      Spells ('-' :: text) (-(Nat.ofDigits 10 values.reverse : Nat))

theorem ofDigits_eq (values : List Nat) : ofDigits values = Nat.ofDigits 10 values.reverse := by
  rw [ofDigits, Nat.ofDigits_eq_foldr, List.foldr_reverse]
  simp only [Nat.cast_id, Nat.add_comm]

/-! ## Reading rows of digits -/

/-- The digits of the groups between underscores, none of which may be empty. -/
private def digitsOf? (groups : List Text) : Option (List Nat) :=
  if groups.any List.isEmpty then none else groups.flatten.mapM digitValue?

private theorem mapM_digitValue?_cons (c : Char) (text : Text) :
    (c :: text).mapM digitValue? =
      (digitValue? c).bind fun value => (text.mapM digitValue?).map (value :: ·) := by
  rw [List.mapM_cons]
  cases digitValue? c <;> cases text.mapM digitValue? <;> rfl

private theorem digitsOf?_cons (c : Char) {group : Text} {groups : List Text} (rest : List Text)
    (joined : group ++ groups.flatten = rest.flatten)
    (filled : groups.any List.isEmpty = rest.any List.isEmpty) :
    digitsOf? ((c :: group) :: groups) =
      (digitValue? c).bind fun value => (digitsOf? rest).map (value :: ·) := by
  unfold digitsOf?
  rw [List.any_cons, List.isEmpty_cons, Bool.false_or, filled, List.flatten_cons, List.cons_append, joined,
    mapM_digitValue?_cons]
  split_ifs
  · cases digitValue? c <;> rfl
  · rfl

section Rows

variable {c : Char} (plain : c ≠ '_')

theorem readDigits?_underscore (rest : Text) : readDigits? ('_' :: rest) = none := by
  simp [readDigits?, splitAt, splitWhere]

include plain

theorem readDigits?_single : readDigits? [c] = (digitValue? c).map ([·]) := by
  have whole : splitAt '_' [c] = [[c]] := splitAt_of_absent (by simpa using plain.symm)
  change digitsOf? (splitAt '_' [c]) = _
  rw [whole, digitsOf?_cons c [] rfl rfl]
  cases digitValue? c <;> rfl

theorem readDigits?_spaced (rest : Text) :
    readDigits? (c :: '_' :: rest) = (digitValue? c).bind fun value => (readDigits? rest).map (value :: ·) := by
  have parted : splitAt '_' (c :: '_' :: rest) = [c] :: splitAt '_' rest :=
    @splitAt_append_cons '_' [c] (by simpa using plain.symm) rest
  change digitsOf? (splitAt '_' (c :: '_' :: rest)) = _
  rw [parted]
  exact digitsOf?_cons c _ rfl rfl

theorem readDigits?_next {d : Char} (also : d ≠ '_') (rest : Text) :
    readDigits? (c :: d :: rest) =
      (digitValue? c).bind fun value => (readDigits? (d :: rest)).map (value :: ·) := by
  obtain ⟨group, groups, split⟩ := List.exists_cons_of_ne_nil (splitWhere_ne_nil (· == '_') rest)
  have second : splitAt '_' (d :: rest) = (d :: group) :: groups := by
    simp [splitAt, splitWhere, split, also]
  have first : splitAt '_' (c :: d :: rest) = (c :: d :: group) :: groups := by
    simp [splitAt, splitWhere, split, also, plain]
  change digitsOf? (splitAt '_' (c :: d :: rest)) = _
  rw [first]
  change _ = (digitValue? c).bind fun value => (digitsOf? (splitAt '_' (d :: rest))).map (value :: ·)
  rw [second]
  exact digitsOf?_cons c _ rfl (by simp)

end Rows

theorem DigitRow.exists_cons {text : Text} {values : List Nat} (row : DigitRow text values) :
    ∃ c value rest, text = c :: rest ∧ DigitOf c value := by
  cases row with
  | last digit => exact ⟨_, _, _, rfl, digit⟩
  | next digit rest => exact ⟨_, _, _, rfl, digit⟩
  | spaced digit rest => exact ⟨_, _, _, rfl, digit⟩

private theorem bind_digit_eq_some_iff {c : Char} {values : List Nat} {read : Option (List Nat)} :
    ((digitValue? c).bind fun value => read.map (value :: ·)) = some values ↔
      ∃ value rest, DigitOf c value ∧ read = some rest ∧ values = value :: rest := by
  simp only [Option.bind_eq_some_iff, digitValue?_eq_some_iff, Option.map_eq_some_iff]
  constructor
  · rintro ⟨value, digit, rest, read, rfl⟩
    exact ⟨value, rest, digit, read, rfl⟩
  · rintro ⟨value, rest, digit, read, rfl⟩
    exact ⟨value, digit, rest, read, rfl⟩

/-- Exactly the rows of digits are read, with the values of their digits. -/
theorem readDigits?_eq_some_iff {text : Text} {values : List Nat} :
    readDigits? text = some values ↔ DigitRow text values := by
  constructor
  · intro read
    -- An underscore is passed over together with the digit before it, so the step takes two characters.
    induction text using List.twoStepInduction generalizing values with
    | nil => cases read
    | singleton c =>
      by_cases plain : c = '_'
      · subst plain
        cases read
      · rw [readDigits?_single plain] at read
        obtain ⟨value, digit, rfl⟩ := Option.map_eq_some_iff.mp read
        exact .last (digitValue?_eq_some_iff.mp digit)
    | cons_cons c d text later next =>
      by_cases plain : c = '_'
      · rw [plain, readDigits?_underscore] at read
        cases read
      by_cases spaced : d = '_'
      · rw [spaced, readDigits?_spaced plain] at read
        obtain ⟨value, rest, digit, behind, rfl⟩ := bind_digit_eq_some_iff.mp read
        rw [spaced]
        exact .spaced digit (later behind)
      · rw [readDigits?_next plain spaced] at read
        obtain ⟨value, rest, digit, behind, rfl⟩ := bind_digit_eq_some_iff.mp read
        exact .next digit (next d behind)
  · intro row
    induction row with
    | last digit => rw [readDigits?_single digit.ne_mark.1, digitValue?_eq_some_iff.mpr digit, Option.map_some]
    | next digit row ih =>
      obtain ⟨d, other, rest, rfl, following⟩ := row.exists_cons
      rw [readDigits?_next digit.ne_mark.1 following.ne_mark.1]
      exact bind_digit_eq_some_iff.mpr ⟨_, _, digit, ih, rfl⟩
    | spaced digit row ih =>
      rw [readDigits?_spaced digit.ne_mark.1]
      exact bind_digit_eq_some_iff.mpr ⟨_, _, digit, ih, rfl⟩

theorem readNatural?_eq_some_iff {text : Text} {value : Nat} :
    readNatural? text = some value ↔
      ∃ values, DigitRow text values ∧ values.length ≤ 4300 ∧ value = Nat.ofDigits 10 values.reverse := by
  simp only [readNatural?, Option.bind_eq_bind, Option.bind_eq_some_iff, readDigits?_eq_some_iff, digitLimit,
    ofDigits_eq]
  constructor
  · rintro ⟨values, row, read⟩
    split_ifs at read with short
    cases read
    exact ⟨values, row, short, rfl⟩
  · rintro ⟨values, row, short, rfl⟩
    exact ⟨values, row, if_pos short⟩

/-! ## Reading integers -/

def Solid (text : Text) : Prop := ∀ c ∈ text, isBlank c = false

instance (text : Text) : Decidable text.Solid :=
  decidable_of_iff (text.any isBlank = false)
    (by simp only [Solid, List.any_eq_false, Bool.not_eq_true])

theorem DigitRow.solid {text : Text} {values : List Nat} (row : DigitRow text values) : text.Solid := by
  induction row with
  | last digit => exact List.forall_mem_singleton.mpr digit.isBlank_eq_false
  | next digit row ih => exact List.forall_mem_cons.mpr ⟨digit.isBlank_eq_false, ih⟩
  | spaced digit row ih =>
    exact List.forall_mem_cons.mpr ⟨digit.isBlank_eq_false, List.forall_mem_cons.mpr ⟨rfl, ih⟩⟩

theorem Spells.solid {text : Text} {value : Int} (spells : Spells text value) : text.Solid := by
  cases spells with
  | unsigned row short => exact row.solid
  | positive row short => exact List.forall_mem_cons.mpr ⟨rfl, row.solid⟩
  | negative row short => exact List.forall_mem_cons.mpr ⟨rfl, row.solid⟩

theorem Spells.ne_nil {text : Text} {value : Int} (spells : Spells text value) : text ≠ [] := by
  cases spells with
  | unsigned row short =>
    obtain ⟨c, value, rest, rfl, _⟩ := row.exists_cons
    exact List.cons_ne_nil c rest
  | positive row short => exact List.cons_ne_nil _ _
  | negative row short => exact List.cons_ne_nil _ _

theorem trimWhere_of_kept {drop : Char → Bool} {text : Text} (kept : ∀ c ∈ text, drop c = false) :
    trimWhere drop text = text := by
  have same {text : Text} (kept : ∀ c ∈ text, drop c = false) : text.dropWhile drop = text := by
    cases text with
    | nil => rfl
    | cons c rest => exact List.dropWhile_cons_of_neg (by simp [kept c List.mem_cons_self])
  rw [trimWhere, same kept, same fun c member => kept c (List.mem_reverse.mp member), List.reverse_reverse]

private theorem map_readNatural?_eq_some_iff {text : Text} {sign : Int → Int} {value : Int} :
    ((do return (← readNatural? text : Int)) : Option Int).map sign = some value ↔
      ∃ values, DigitRow text values ∧ values.length ≤ 4300 ∧
        sign (Nat.ofDigits 10 values.reverse : Nat) = value := by
  cases read : readNatural? text with
  | none =>
    refine ⟨nofun, ?_⟩
    rintro ⟨values, row, short, _⟩
    rw [readNatural?_eq_some_iff.mpr ⟨values, row, short, rfl⟩] at read
    cases read
  | some size =>
    constructor
    · intro signed
      obtain ⟨values, row, short, rfl⟩ := readNatural?_eq_some_iff.mp read
      exact ⟨values, row, short, Option.some.inj signed⟩
    · rintro ⟨values, row, short, rfl⟩
      rw [readNatural?_eq_some_iff.mpr ⟨values, row, short, rfl⟩] at read
      cases read
      rfl

/-- A text without a blank is read as an integer exactly if it spells it. -/
theorem Solid.readInteger?_eq_some_iff {text : Text} (solid : text.Solid) {value : Int} :
    readInteger? text = some value ↔ Spells text value := by
  have kept : ∀ c ∈ text, isNumeralPadding c = false := fun c member => by
    rw [isNumeralPadding, solid c member, Bool.false_and]
  unfold readInteger?
  rw [trimWhere_of_kept kept]
  constructor
  · intro read
    split at read
    · obtain ⟨values, row, short, rfl⟩ := map_readNatural?_eq_some_iff.mp read
      exact .negative row short
    · obtain ⟨values, row, short, rfl⟩ := map_readNatural?_eq_some_iff.mp read
      exact .positive row short
    · obtain ⟨values, row, short, rfl⟩ := map_readNatural?_eq_some_iff.mp read
      exact .unsigned row short
  · intro spells
    cases spells with
    | unsigned row short =>
      obtain ⟨c, first, rest, rfl, digit⟩ := row.exists_cons
      split
      · rename_i same
        exact absurd (List.cons.inj same).1 digit.ne_mark.2.2
      · rename_i same
        exact absurd (List.cons.inj same).1 digit.ne_mark.2.1
      · exact map_readNatural?_eq_some_iff.mpr ⟨_, row, short, rfl⟩
    | positive row short => exact map_readNatural?_eq_some_iff.mpr ⟨_, row, short, rfl⟩
    | negative row short => exact map_readNatural?_eq_some_iff.mpr ⟨_, row, short, rfl⟩

private theorem digitOf_of_isDigit {c : Char} (decimal : c.isDigit = true) :
    DigitOf c (c.toNat - '0'.toNat) := by
  have bounds := Char.isDigit_iff_toNat.mp decimal
  have most : '9'.toNat = '0'.toNat + 9 := rfl
  exact ⟨by omega, '0'.toNat, List.mem_cons_self, by omega⟩

/-- Decimal digits of ASCII are a row, with the values that a printed number has. -/
theorem digitRow_of_isDigit {text : Text} (filled : text ≠ []) (decimal : ∀ c ∈ text, c.isDigit = true) :
    DigitRow text (text.map fun c => c.toNat - '0'.toNat) := by
  induction text with
  | nil => exact absurd rfl filled
  | cons c rest ih =>
    obtain ⟨first, later⟩ := List.forall_mem_cons.mp decimal
    cases rest with
    | nil => exact .last (digitOf_of_isDigit first)
    | cons d rest => exact .next (digitOf_of_isDigit first) (ih (List.cons_ne_nil d rest) later)

theorem ofDigits_toDigits (n : Nat) :
    Nat.ofDigits 10 ((Nat.toDigits 10 n).map fun c => c.toNat - '0'.toNat).reverse = n := by
  rw [← ofDigits_eq, ofDigits, List.foldl_map]
  exact Nat.ofDigitChars_ten_toDigits

/-- A printed integer with at most 4300 digits spells itself. -/
theorem spells_integerText {value : Int} (short : (Nat.toDigits 10 value.natAbs).length ≤ 4300) :
    Spells (Json.integerText value) value := by
  have decimal : ∀ c ∈ Nat.toDigits 10 value.natAbs, c.isDigit = true := fun c =>
    Nat.isDigit_of_mem_toDigits (by decide) (by decide)
  have row := digitRow_of_isDigit Nat.toDigits_ne_nil decimal
  have few : ((Nat.toDigits 10 value.natAbs).map fun c => c.toNat - '0'.toNat).length ≤ 4300 := by
    rwa [List.length_map]
  unfold Json.integerText Decimal.signed
  by_cases below : value < 0
  · have spelled := Spells.negative row few
    have same : -(value.natAbs : Int) = value := by omega
    rw [ofDigits_toDigits, same] at spelled
    rwa [if_pos (decide_eq_true below)]
  · have spelled := Spells.unsigned row few
    have same : (value.natAbs : Int) = value := by omega
    rw [ofDigits_toDigits, same] at spelled
    rwa [if_neg (by simpa using below)]

/-! ## Words between blanks -/

def Blank (text : Text) : Prop := ∀ c ∈ text, isBlank c = true

instance (text : Text) : Decidable text.Blank := decidable_of_iff (text.all isBlank = true) List.all_eq_true

/-- The words of a text: each stands behind blanks, or at the start, and ends at a blank, or at the end. -/
inductive Parted : Text → List Text → Prop where
  | blank {text : Text} (blank : text.Blank) : Parted text []
  | word {lead word rest : Text} {later : List Text} (blank : lead.Blank) (filled : word ≠ [])
      (solid : word.Solid) (ends : ∀ c ∈ rest.head?, isBlank c = true) (parted : Parted rest later) :
      Parted (lead ++ (word ++ rest)) (word :: later)

theorem Blank.words_append {lead : Text} (blank : lead.Blank) (text : Text) :
    words (lead ++ text) = words text := by
  induction lead with
  | nil => rfl
  | cons c lead ih =>
    obtain ⟨first, later⟩ := List.forall_mem_cons.mp blank
    rw [List.cons_append, ← ih later]
    exact words_append_cons first [] (lead ++ text)

theorem words_append_of_ends {word rest : Text} (filled : word ≠ []) (solid : word.Solid)
    (ends : ∀ c ∈ rest.head?, isBlank c = true) : words (word ++ rest) = word :: words rest := by
  cases rest with
  | nil =>
    rw [List.append_nil, words_of_solid filled solid]
    rfl
  | cons c rest =>
    have blank := ends c rfl
    rw [words_append_cons blank, words_of_solid filled solid, List.singleton_append]
    exact congrArg (word :: ·) (words_append_cons blank [] rest).symm

theorem Parted.eq_words {text : Text} {parts : List Text} (parted : Parted text parts) :
    parts = words text := by
  induction parted with
  | blank blank =>
    have none := blank.words_append []
    rw [List.append_nil] at none
    rw [none]
    rfl
  | word blank filled solid ends _ ih => rw [blank.words_append, words_append_of_ends filled solid ends, ih]

/-- One more character in front starts a word, lengthens the first one, or is a blank before it. -/
theorem exists_parted (text : Text) : ∃ parts, Parted text parts := by
  induction text with
  | nil => exact ⟨[], .blank nofun⟩
  | cons c text ih =>
    obtain ⟨parts, parted⟩ := ih
    cases stop : isBlank c with
    | true =>
      cases parted with
      | blank blank => exact ⟨[], .blank (List.forall_mem_cons.mpr ⟨stop, blank⟩)⟩
      | @word lead word rest later blank filled solid ends parted =>
        have longer : Blank (c :: lead) := List.forall_mem_cons.mpr ⟨stop, blank⟩
        exact ⟨word :: later, .word longer filled solid ends parted⟩
    | false =>
      have single : Solid [c] := List.forall_mem_singleton.mpr stop
      cases parted with
      | blank blank =>
        refine ⟨[[c]], @Parted.word [] [c] text [] nofun (List.cons_ne_nil c []) single ?_ (.blank blank)⟩
        exact fun d first => blank d (List.mem_of_mem_head? first)
      | @word lead word rest later blank filled solid ends parted =>
        cases lead with
        | nil =>
          have longer : Solid (c :: word) := List.forall_mem_cons.mpr ⟨stop, solid⟩
          exact ⟨(c :: word) :: later, @Parted.word [] (c :: word) rest later nofun (List.cons_ne_nil c word)
            longer ends parted⟩
        | cons b lead =>
          refine ⟨[c] :: word :: later, @Parted.word [] [c] (b :: lead ++ (word ++ rest)) _ nofun
            (List.cons_ne_nil c []) single ?_ (.word blank filled solid ends parted)⟩
          exact fun d first => Option.some.inj first ▸ blank b List.mem_cons_self

/-- A text has its words and no others. -/
theorem parted_iff {text : Text} {parts : List Text} : Parted text parts ↔ parts = words text := by
  constructor
  · exact Parted.eq_words
  · rintro rfl
    obtain ⟨parts, parted⟩ := exists_parted text
    exact parted.eq_words ▸ parted

theorem Parted.solid {text part : Text} {parts : List Text} (parted : Parted text parts)
    (member : part ∈ parts) : part.Solid := by
  induction parted with
  | blank blank => cases member
  | word blank filled solid ends parted ih =>
    rcases List.mem_cons.mp member with rfl | later
    · exact solid
    · exact ih later

end Text

namespace Token

open Text

/-- A token opens a loop with an operand, with blanks between the two words and around them. -/
inductive LoopOpener (operand : Text) : Token → Prop where
  | mk {lead gap trail : Text} (before : lead.Blank) (between : gap.Blank) (apart : gap ≠ [])
      (behind : trail.Blank) : LoopOpener operand (lead ++ (Scope.loop.opener ++ (gap ++ (operand ++ trail))))

theorem LoopOpener.parted {token : Token} {operand : Text} (opener : LoopOpener operand token)
    (filled : operand ≠ []) (solid : operand.Solid) : Parted token [Scope.loop.opener, operand] := by
  cases opener with
  | @mk lead gap trail before between apart behind =>
    have keyword : Solid Scope.loop.opener := by decide
    refine .word before (by decide) keyword ?_ (.word between filled solid ?_ (.blank behind))
    · intro c first
      obtain ⟨d, others, rfl⟩ := List.exists_cons_of_ne_nil apart
      cases first
      exact between _ List.mem_cons_self
    · intro c first
      exact behind c (List.mem_of_mem_head? first)

section Counts

variable {token : Token} {head operand : Text}

/-- The count is read from the second of two words. -/
theorem readCount_eq_ok_of_parted (parted : Parted token [head, operand]) {count : Int}
    (spells : Spells operand count) : token.readCount = .ok count := by
  rw [readCount, ← parted.eq_words]
  simp only [spells.solid.readInteger?_eq_some_iff.mpr spells]

theorem readCount_eq_error_of_parted (parted : Parted token [head, operand])
    (unspelled : ∀ count, ¬ Spells operand count) : token.readCount = .error (.countNumeral token) := by
  have solid : operand.Solid := parted.solid (List.mem_cons_of_mem _ List.mem_cons_self)
  have none : readInteger? operand = none := by
    rw [Option.eq_none_iff_forall_ne_some]
    intro count read
    exact unspelled count (solid.readInteger?_eq_some_iff.mp read)
  rw [readCount, ← parted.eq_words]
  simp only [none]

theorem readCount_eq_error_of_length {parts : List Text} (parted : Parted token parts)
    (other : parts.length ≠ 2) : token.readCount = .error (.countOperands token) := by
  rw [readCount, ← parted.eq_words]
  split
  · exact absurd rfl other
  · rfl

end Counts

/-- The count of a loop is read from every spelling of it, whatever blanks stand between the keyword and the
spelling and around them; a printed integer is one of its spellings. A token is parted into words in one way.
If these are not two, or if the second of two spells no integer, the token is malformed at the given index. -/
theorem readCount_reads_spellings (index : Option Int) (token : Token) :
    (∀ literal count, LoopOpener literal token → Spells literal count →
      Problem.locate index token.readCount = .ok count) ∧
    (∀ count : Int, LoopOpener (Json.integerText count) token → (Nat.toDigits 10 count.natAbs).length ≤ 4300 →
      Problem.locate index token.readCount = .ok count) ∧
    (∃! parts, Parted token parts) ∧
    (∀ parts, Parted token parts → parts.length ≠ 2 →
      Problem.locate index token.readCount = .error ⟨.countOperands token, index⟩) ∧
    ∀ head operand, Parted token [head, operand] → (∀ count, ¬ Spells operand count) →
      Problem.locate index token.readCount = .error ⟨.countNumeral token, index⟩ := by
  have reads (literal : Text) (count : Int) (opener : LoopOpener literal token)
      (spells : Spells literal count) : Problem.locate index token.readCount = .ok count :=
    Problem.locate_eq_ok_iff.mpr (readCount_eq_ok_of_parted (opener.parted spells.ne_nil spells.solid) spells)
  refine ⟨reads, ?_, ?_, ?_, ?_⟩
  · intro count opener short
    exact reads _ count opener (spells_integerText short)
  · exact ⟨words token, parted_iff.mpr rfl, fun parts parted => parted.eq_words⟩
  · intro parts parted other
    exact Problem.locate_eq_error_iff.mpr ⟨readCount_eq_error_of_length parted other, rfl⟩
  · intro head operand parted unspelled
    exact Problem.locate_eq_error_iff.mpr ⟨readCount_eq_error_of_parted parted unspelled, rfl⟩

/-- Digits of three scripts with a leading zero and an underscore between them, between wide blanks; a printed
integer; three words; and an underscore that is doubled. -/
theorem readCount_reads_spellings_of_scripts :
    let literal := "-0\u0663_0\uff14".toList
    let token := "\tREPEAT\u3000 -0\u0663_0\uff14\n".toList
    LoopOpener literal token ∧ Spells literal (-304) ∧
    Problem.locate (some 7) (readCount token) = .ok (-304) ∧
    Problem.locate none (readCount "REPEAT -120".toList) = .ok (-120) ∧
    Problem.locate (some 7) (readCount "REPEAT 1 2".toList) =
      .error ⟨.countOperands "REPEAT 1 2".toList, some 7⟩ ∧
    Problem.locate (some 7) (readCount "REPEAT 1__2".toList) =
      .error ⟨.countNumeral "REPEAT 1__2".toList, some 7⟩ := by
  intro literal token
  have written : token =
      "\t".toList ++ (Scope.loop.opener ++ ("\u3000 ".toList ++ (literal ++ "\n".toList))) := by decide +kernel
  have opener : LoopOpener literal token := by
    rw [written]
    exact .mk (by decide) (by decide) (by decide) (by decide)
  have row : DigitRow "0\u0663_0\uff14".toList [0, 3, 0, 4] :=
    .next (by decide) (.spaced (by decide +kernel) (.next (by decide) (.last (by decide +kernel))))
  have spells : Spells literal (-304) := .negative row (by decide)
  have printed : LoopOpener (Json.integerText (-120)) "REPEAT -120".toList :=
    @LoopOpener.mk _ [] " ".toList [] (by decide) (by decide) (by decide) (by decide)
  have three : Parted "REPEAT 1 2".toList ["REPEAT".toList, "1".toList, "2".toList] :=
    parted_iff.mpr (by decide +kernel)
  have two : Parted "REPEAT 1__2".toList ["REPEAT".toList, "1__2".toList] := parted_iff.mpr (by decide +kernel)
  have unspelled (count : Int) : ¬ Spells "1__2".toList count := by
    intro spelled
    have read := spelled.solid.readInteger?_eq_some_iff.mpr spelled
    rw [show readInteger? "1__2".toList = none by decide +kernel] at read
    cases read
  obtain ⟨reads, _⟩ := readCount_reads_spellings (some 7) token
  obtain ⟨_, inverts, _⟩ := readCount_reads_spellings none "REPEAT -120".toList
  obtain ⟨_, _, _, counted, _⟩ := readCount_reads_spellings (some 7) "REPEAT 1 2".toList
  obtain ⟨_, _, _, _, refused⟩ := readCount_reads_spellings (some 7) "REPEAT 1__2".toList
  exact ⟨opener, spells, reads literal (-304) opener spells, inverts (-120) printed (by decide),
    counted _ three (by decide), refused _ _ two unspelled⟩

end Token

end Lamplighter
