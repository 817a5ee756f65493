import Lamplighter.Text.Numeral
import Lamplighter.Text.Word
import Mathlib.Data.List.TakeWhile
import Mathlib.Tactic.SplitIfs

/-! # Pieces of a text

A character that is no word character parts a text: a word stands on one side of it or on the other, and
what is taken off the ends or split at a blank is decided on each side alone. No blank is a word character,
and neither blanks nor numerals hold a lower-case letter, so no plain name occurs among them.
-/

namespace Lamplighter

namespace Text

/-- A lower-case letter of ASCII with such letters and digits after it. -/
def isPlainName : Text → Bool
  | [] => false
  | c :: rest => c.isLower && rest.all fun c => c.isLower || c.isDigit

/-- Whether a word stands at the start of a text with no word character next to it, where `before` says
whether a word character precedes the text. -/
def stands (word : Text) (before : Bool) (text : Text) : Bool :=
  !before && word.isPrefixOf text && !startsWithWord (text.drop word.length)

/-- Whether a word stands somewhere in a text with no word character next to it. -/
def occursFrom (word : Text) : (before : Bool) → Text → Bool
  | _, [] => false
  | before, c :: rest => stands word before (c :: rest) || occursFrom word (isWord c) rest

/-- Whether a word stands in a text as a whole word. -/
def occurs (word text : Text) : Bool := occursFrom word false text

/-- At least one character, and word characters only. -/
structure Wordy (word : Text) : Prop where
  ne_nil : word ≠ []
  chars : ∀ c ∈ word, isWord c = true

section Characters

variable {c : Char}

private theorem between_iff (low high : UInt32) :
    low ≤ c.val ∧ c.val ≤ high ↔ low.toNat ≤ c.toNat ∧ c.toNat ≤ high.toNat := by
  rw [UInt32.le_iff_toNat_le, UInt32.le_iff_toNat_le]
  exact Iff.rfl

theorem isUpper_iff : c.isUpper = true ↔ 65 ≤ c.toNat ∧ c.toNat ≤ 90 := by
  have spelled : c.isUpper = decide (65 ≤ c.val ∧ c.val ≤ 90) := rfl
  rw [spelled, decide_eq_true_eq]
  exact between_iff 65 90

theorem isLower_iff : c.isLower = true ↔ 97 ≤ c.toNat ∧ c.toNat ≤ 122 := by
  have spelled : c.isLower = (decide (97 ≤ c.val) && decide (c.val ≤ 122)) := rfl
  rw [spelled, Bool.and_eq_true, decide_eq_true_eq, decide_eq_true_eq]
  exact between_iff 97 122

private theorem isDigit_iff : c.isDigit = true ↔ 48 ≤ c.toNat ∧ c.toNat ≤ 57 := by
  have spelled : c.isDigit = (decide (48 ≤ c.val) && decide (c.val ≤ 57)) := rfl
  rw [spelled, Bool.and_eq_true, decide_eq_true_eq, decide_eq_true_eq]
  exact between_iff 48 57

private theorem isAlphanum_iff :
    c.isAlphanum = true ↔ c.isUpper = true ∨ c.isLower = true ∨ c.isDigit = true := by
  change (c.isUpper || c.isLower || c.isDigit) = true ↔ _
  rw [Bool.or_eq_true, Bool.or_eq_true, or_assoc]

theorem isWord_of_isAlphanum (alphanumeric : c.isAlphanum = true) : isWord c = true := by
  have ascii : c.toNat < 0x80 := by
    have bounds := isAlphanum_iff.mp alphanumeric
    rw [isUpper_iff, isLower_iff, isDigit_iff] at bounds
    omega
  rw [isWord, if_pos ascii, alphanumeric, Bool.true_or]

theorem isWord_of_isUpper (upper : c.isUpper = true) : isWord c = true :=
  isWord_of_isAlphanum (isAlphanum_iff.mpr (.inl upper))

private theorem ranges_apart :
    ∀ blank ∈ blankRanges, ∀ word ∈ wordRanges, blank.2 < word.1 ∨ word.2 < blank.1 := by
  decide +kernel

/-- No blank is a word character. -/
theorem isWord_of_isBlank (blank : isBlank c = true) : isWord c = false := by
  rw [Bool.eq_false_iff]
  intro word
  unfold isBlank isInformationSeparator at blank
  unfold isWord at word
  split_ifs at blank word
  · rcases Bool.or_eq_true_iff.mp word with alphanumeric | underscore
    · have bounds := isAlphanum_iff.mp alphanumeric
      rw [isUpper_iff, isLower_iff, isDigit_iff] at bounds
      simp only [Bool.or_eq_true, Bool.and_eq_true, beq_iff_eq, decide_eq_true_eq] at blank
      omega
    · rw [beq_iff_eq.mp underscore] at blank
      exact absurd blank (by decide)
  · unfold inRanges at blank word
    simp only [List.any_eq_true, Bool.and_eq_true, decide_eq_true_eq] at blank word
    obtain ⟨first, listed, lower, upper⟩ := blank
    obtain ⟨second, member, least, most⟩ := word
    have apart := ranges_apart first listed second member
    omega

end Characters

theorem Wordy.of_isPlainName {name : Text} (plain : name.isPlainName = true) : name.Wordy := by
  cases name with
  | nil => cases plain
  | cons c rest =>
    simp only [isPlainName, Bool.and_eq_true, List.all_eq_true, Bool.or_eq_true] at plain
    obtain ⟨first, others⟩ := plain
    refine ⟨List.cons_ne_nil _ _, fun d member => isWord_of_isAlphanum ?_⟩
    have kind : d.isLower = true ∨ d.isDigit = true := by
      rcases List.mem_cons.mp member with rfl | later
      · exact .inl first
      · exact others d later
    exact isAlphanum_iff.mpr (.inr kind)

/-- A plain name does not occur where there is no lower-case letter. -/
theorem occursFrom_of_no_lower {name text : Text} (plain : name.isPlainName = true)
    (upper : ∀ c ∈ text, c.isLower = false) (before : Bool) : occursFrom name before text = false := by
  cases name with
  | nil => cases plain
  | cons first others =>
    have lower : first.isLower = true := by
      simp only [isPlainName, Bool.and_eq_true] at plain
      exact plain.1
    induction text generalizing before with
    | nil => rfl
    | cons c rest ih =>
      have differs : (first == c) = false := by
        rw [beq_eq_false_iff_ne]
        rintro rfl
        rw [upper first List.mem_cons_self] at lower
        cases lower
      rw [occursFrom, ih fun d member => upper d (List.mem_cons_of_mem c member)]
      simp [stands, List.isPrefixOf, differs]

section Cut

variable {c : Char}

theorem startsWithWord_append_cons (stop : isWord c = false) (front back : Text) :
    startsWithWord (front ++ c :: back) = startsWithWord front := by
  cases front with
  | nil => exact stop
  | cons d rest => rfl

private theorem isPrefixOf_append_cons {word : Text} (absent : c ∉ word) (front back : Text) :
    word.isPrefixOf (front ++ c :: back) = word.isPrefixOf front := by
  induction word generalizing front with
  | nil => simp
  | cons d rest ih =>
    obtain ⟨differs, later⟩ := not_or.mp (mt List.mem_cons.mpr absent)
    cases front with
    | nil => simp [List.isPrefixOf, beq_eq_false_iff_ne.mpr (Ne.symm differs)]
    | cons e front => simp only [List.cons_append, List.isPrefixOf, ih later]

/-- Whether a word stands at the start of a text is decided before the first character that is no word
character. -/
theorem stands_append_cons {word : Text} (wordy : word.Wordy) (stop : isWord c = false) (before : Bool)
    (front back : Text) : stands word before (front ++ c :: back) = stands word before front := by
  have absent : c ∉ word := by
    intro member
    rw [wordy.chars c member] at stop
    cases stop
  unfold stands
  rw [isPrefixOf_append_cons absent]
  cases fits : word.isPrefixOf front with
  | false => simp
  | true =>
    have short := (List.isPrefixOf_iff_prefix.mp fits).length_le
    rw [List.drop_append_of_le_length short, startsWithWord_append_cons stop]

theorem Wordy.stands_nil {word : Text} (wordy : word.Wordy) (before : Bool) : stands word before [] = false := by
  cases word with
  | nil => exact absurd rfl wordy.ne_nil
  | cons c rest => simp [stands, List.isPrefixOf]

/-- A word occurs in two pieces with such a character between them if it occurs in one of them. -/
theorem occursFrom_append_cons {word : Text} (wordy : word.Wordy) (stop : isWord c = false) (before : Bool)
    (front back : Text) :
    occursFrom word before (front ++ c :: back) = (occursFrom word before front || occurs word back) := by
  induction front generalizing before with
  | nil =>
    have absent := stands_append_cons wordy stop before [] back
    rw [List.nil_append, wordy.stands_nil] at absent
    simp only [List.nil_append, occursFrom, absent, stop, Bool.false_or, occurs]
  | cons d rest ih =>
    have same := stands_append_cons wordy stop before (d :: rest) back
    rw [List.cons_append] at same ⊢
    rw [occursFrom, same, ih, occursFrom, Bool.or_assoc]

end Cut

section While

variable {stop : Char → Bool} {c : Char}

theorem dropWhile_append_cons (stays : stop c = false) (front back : Text) :
    (front ++ c :: back).dropWhile stop = front.dropWhile stop ++ c :: back := by
  rw [List.dropWhile_append]
  split_ifs with empty
  · rw [List.isEmpty_iff.mp empty, List.dropWhile_cons_of_neg (by simp [stays]), List.nil_append]
  · rfl

theorem takeWhile_append_cons (stays : stop c = false) (front back : Text) :
    (front ++ c :: back).takeWhile stop = front.takeWhile stop := by
  rw [List.takeWhile_append, List.takeWhile_cons_of_neg (by simp [stays]), List.append_nil]
  split_ifs with whole
  · exact ((List.takeWhile_prefix stop).eq_of_length whole).symm
  · rfl

end While

/-- Blanks at the end are taken off behind a character that is none. -/
theorem trim_append_cons {c : Char} (solid : isBlank c = false) (front back : Text) :
    trim (front ++ c :: back) = front.dropWhile isBlank ++ c :: (back.reverse.dropWhile isBlank).reverse := by
  unfold trim trimWhere
  rw [dropWhile_append_cons solid, List.reverse_append, List.reverse_cons, List.append_assoc,
    List.singleton_append, dropWhile_append_cons solid, List.reverse_append, List.reverse_cons,
    List.reverse_reverse, List.append_assoc, List.singleton_append]

section First

variable {c : Char} {front : Text} (absent : c ∉ front)

include absent

private theorem bne_of_mem (d : Char) (member : d ∈ front) : (d != c) = true := by
  rw [bne_iff_ne]
  rintro rfl
  exact absent member

theorem before_of_absent : before c front = front :=
  List.takeWhile_eq_self_iff.mpr (bne_of_mem absent)

theorem before_append_cons (back : Text) : before c (front ++ c :: back) = front := by
  rw [before, takeWhile_append_cons (by simp)]
  exact before_of_absent absent

theorem after?_append_cons (back : Text) : after? c (front ++ c :: back) = some back := by
  have passed : front.dropWhile (· != c) = [] := List.dropWhile_eq_nil_iff.mpr (bne_of_mem absent)
  rw [after?, dropWhile_append_cons (by simp), passed, List.nil_append]

end First

/-- A word that does not occur in a text does not occur before its first character of a kind. -/
theorem occurs_before_of_absent {word text : Text} (wordy : word.Wordy) {c : Char} (stop : isWord c = false)
    (absent : occurs word text = false) : occurs word (before c text) = false := by
  by_cases member : c ∈ text
  · obtain ⟨front, back, rfl, clear⟩ := List.eq_append_cons_of_mem member
    rw [occurs, occursFrom_append_cons wordy stop, Bool.or_eq_false_iff] at absent
    rw [before_append_cons clear]
    exact absent.1
  · rwa [before_of_absent member]

section Words

/-- A text is split at a character on each side of it alone. -/
theorem splitWhere_append_cons {cut : Char → Bool} {c : Char} (cuts : cut c = true)
    (front back : Text) :
    splitWhere cut (front ++ c :: back) = splitWhere cut front ++ splitWhere cut back := by
  induction front with
  | nil => simp [splitWhere, cuts]
  | cons d rest ih =>
    obtain ⟨piece, pieces, split⟩ := List.exists_cons_of_ne_nil (splitWhere_ne_nil cut rest)
    rw [List.cons_append, splitWhere, splitWhere, ih, split]
    split_ifs <;> rfl

/-- Splitting loses only the characters that it cuts at. -/
theorem cut_or_mem_splitWhere (cut : Char → Bool) {text : Text} {c : Char} (member : c ∈ text) :
    cut c = true ∨ ∃ piece ∈ splitWhere cut text, c ∈ piece := by
  induction text with
  | nil => cases member
  | cons d rest ih =>
    obtain ⟨piece, pieces, split⟩ := List.exists_cons_of_ne_nil (splitWhere_ne_nil cut rest)
    rw [splitWhere, split]
    rw [split] at ih
    split_ifs with cuts
    · rcases List.mem_cons.mp member with rfl | later
      · exact .inl cuts
      · rcases ih later with cuts | ⟨found, listed, inside⟩
        · exact .inl cuts
        · exact .inr ⟨found, List.mem_cons_of_mem _ listed, inside⟩
    · rcases List.mem_cons.mp member with rfl | later
      · exact .inr ⟨_, List.mem_cons_self, List.mem_cons_self⟩
      · rcases ih later with cuts | ⟨found, listed, inside⟩
        · exact .inl cuts
        · rcases List.mem_cons.mp listed with rfl | listed
          · exact .inr ⟨_, List.mem_cons_self, List.mem_cons_of_mem d inside⟩
          · exact .inr ⟨found, List.mem_cons_of_mem _ listed, inside⟩

theorem splitWhere_of_uncut {cut : Char → Bool} {text : Text} (uncut : ∀ c ∈ text, cut c = false) :
    splitWhere cut text = [text] := by
  induction text with
  | nil => rfl
  | cons c rest ih =>
    rw [splitWhere, ih fun d member => uncut d (List.mem_cons_of_mem c member), uncut c List.mem_cons_self]
    rfl

section Separators

variable {separator : Char}

theorem splitAt_of_absent {text : Text} (absent : separator ∉ text) : splitAt separator text = [text] := by
  apply splitWhere_of_uncut
  intro c member
  rw [beq_eq_false_iff_ne]
  rintro rfl
  exact absent member

theorem splitAt_append_cons {front : Text} (absent : separator ∉ front) (back : Text) :
    splitAt separator (front ++ separator :: back) = front :: splitAt separator back := by
  have parted : splitAt separator (front ++ separator :: back) =
      splitAt separator front ++ splitAt separator back :=
    splitWhere_append_cons (by simp) front back
  rw [parted, splitAt_of_absent absent, List.singleton_append]

/-- A text is split at its first separator, unless it holds none; what goes from the part behind to the whole
holds of every text. -/
@[elab_as_elim]
theorem separated {motive : Text → Prop} (separator : Char)
    (whole : ∀ text : Text, separator ∉ text → motive text)
    (cut : ∀ front back : Text, separator ∉ front → motive back → motive (front ++ separator :: back))
    (text : Text) : motive text := by
  generalize bound : text.length = length
  induction length using Nat.strongRecOn generalizing text with
  | _ length ih =>
    by_cases member : separator ∈ text
    · obtain ⟨front, back, rfl, absent⟩ := List.eq_append_cons_of_mem member
      rw [List.length_append, List.length_cons] at bound
      exact cut front back absent (ih _ (by omega) back rfl)
    · exact whole text member

end Separators

/-- A text without a blank is one word, unless it is empty. -/
theorem words_of_solid {text : Text} (filled : text ≠ []) (solid : ∀ c ∈ text, isBlank c = false) :
    words text = [text] := by
  simp [words, splitWhere_of_uncut solid, filled]

/-- Words end at a blank. -/
theorem words_append_cons {c : Char} (blank : isBlank c = true) (front back : Text) :
    words (front ++ c :: back) = words front ++ words back := by
  unfold words
  rw [splitWhere_append_cons blank, List.filter_append]

/-- Every character is a blank or stands in a word. -/
theorem isBlank_or_mem_words {text : Text} {c : Char} (member : c ∈ text) :
    isBlank c = true ∨ ∃ word ∈ words text, c ∈ word := by
  rcases cut_or_mem_splitWhere isBlank member with blank | ⟨piece, listed, inside⟩
  · exact .inl blank
  · have filled : (!piece.isEmpty) = true := by
      simpa using List.ne_nil_of_mem inside
    exact .inr ⟨piece, List.mem_filter.mpr ⟨listed, filled⟩, inside⟩

end Words

section Numerals

variable {c : Char}

private theorem isLower_of_digitValue? {value : Nat} (digit : digitValue? c = some value) :
    c.isLower = false := by
  rw [Bool.eq_false_iff]
  intro lower
  have bounds := isLower_iff.mp lower
  have ascii : c.toNat < 0x80 := by omega
  simp only [digitValue?, if_pos ascii] at digit
  split_ifs at digit with decimal
  have most := isDigit_iff.mp decimal
  omega

theorem isLower_of_isBlank (blank : isBlank c = true) : c.isLower = false := by
  rw [Bool.eq_false_iff]
  intro lower
  have word : isWord c = true := isWord_of_isAlphanum (isAlphanum_iff.mpr (.inr (.inl lower)))
  rw [isWord_of_isBlank blank] at word
  cases word

private theorem exists_of_mapM {digits : List Nat} {text : Text} (read : text.mapM digitValue? = some digits)
    (member : c ∈ text) : ∃ value, digitValue? c = some value := by
  induction text generalizing digits with
  | nil => cases member
  | cons d rest ih =>
    simp only [List.mapM_cons, Option.bind_eq_bind, Option.bind_eq_some_iff] at read
    obtain ⟨value, first, values, others, _⟩ := read
    rcases List.mem_cons.mp member with rfl | later
    · exact ⟨value, first⟩
    · exact ih others later

private theorem isLower_of_mem_natural {text : Text} {value : Nat} (read : readNatural? text = some value)
    (member : c ∈ text) : c.isLower = false := by
  simp only [readNatural?, Option.bind_eq_bind, Option.bind_eq_some_iff] at read
  obtain ⟨digits, groups, _⟩ := read
  simp only [readDigits?] at groups
  split_ifs at groups
  rcases cut_or_mem_splitWhere (· == '_') member with underscore | ⟨piece, listed, inside⟩
  · rw [beq_iff_eq.mp underscore]
    rfl
  · obtain ⟨value, digit⟩ := exists_of_mapM groups (List.mem_flatten.mpr ⟨piece, listed, inside⟩)
    exact isLower_of_digitValue? digit

private theorem mem_dropWhile (drop : Char → Bool) {text : Text} (member : c ∈ text) :
    drop c = true ∨ c ∈ text.dropWhile drop := by
  rw [← List.takeWhile_append_dropWhile (p := drop) (l := text), List.mem_append] at member
  exact member.imp_left List.mem_takeWhile_imp

/-- No numeral has a lower-case letter. -/
theorem isLower_of_mem_integer {text : Text} {value : Int} (read : readInteger? text = some value)
    (member : c ∈ text) : c.isLower = false := by
  have inside : isNumeralPadding c = true ∨ c ∈ trimWhere isNumeralPadding text := by
    rcases mem_dropWhile isNumeralPadding member with padding | kept
    · exact .inl padding
    · rw [trimWhere, List.mem_reverse]
      exact mem_dropWhile isNumeralPadding (List.mem_reverse.mpr kept)
  rcases inside with padding | kept
  · simp only [isNumeralPadding, Bool.and_eq_true] at padding
    exact isLower_of_isBlank padding.1
  · unfold readInteger? at read
    split at read
    · rename_i digits trimmed
      obtain ⟨_, lifted, _⟩ := Option.map_eq_some_iff.mp read
      obtain ⟨value, natural, _⟩ := Option.bind_eq_some_iff.mp lifted
      rw [trimmed] at kept
      rcases List.mem_cons.mp kept with rfl | later
      · rfl
      · exact isLower_of_mem_natural natural later
    · rename_i digits trimmed
      obtain ⟨_, lifted, _⟩ := Option.map_eq_some_iff.mp read
      obtain ⟨value, natural, _⟩ := Option.bind_eq_some_iff.mp lifted
      rw [trimmed] at kept
      rcases List.mem_cons.mp kept with rfl | later
      · rfl
      · exact isLower_of_mem_natural natural later
    · obtain ⟨_, lifted, _⟩ := Option.map_eq_some_iff.mp read
      obtain ⟨value, natural, _⟩ := Option.bind_eq_some_iff.mp lifted
      exact isLower_of_mem_natural natural kept

end Numerals

end Text

end Lamplighter
