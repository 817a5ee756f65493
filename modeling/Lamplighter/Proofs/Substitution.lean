import Lamplighter.Bindings
import Lamplighter.CallGraph.Scan
import Lamplighter.FunctionTable
import Lamplighter.Proofs.Forest
import Lamplighter.Proofs.Pieces
import Mathlib.Data.List.Find

/-! # What substitution keeps of a token

Parameters that are made of word characters are replaced piece by piece between the characters that are
none, and a piece in which no parameter stands as a whole word stays as it is. Where the parameters of a
function are plain names that stand only in the counts of loops and in the operands of calls, a token keeps
through every substitution the part that it plays, the function that it calls, and a count that could be
read before.
-/

namespace Lamplighter

namespace Bindings

variable {bindings : Bindings}

def Wordy (bindings : Bindings) : Prop := ∀ binding ∈ bindings, Text.Wordy binding.1

def Plain (bindings : Bindings) : Prop := ∀ binding ∈ bindings, binding.1.isPlainName = true

theorem Plain.wordy (plain : bindings.Plain) : bindings.Wordy :=
  fun binding member => .of_isPlainName (plain binding member)

/-- A parameter of word characters fits where it stands as a whole word. -/
theorem fits_eq_stands {param : Text} (wordy : param.Wordy) (before : Bool) (text : Text) :
    fits before text param = Text.stands param before text := by
  have ends : Text.endsWithWord before param = true := by
    obtain ⟨filled, chars⟩ := wordy
    induction param generalizing before with
    | nil => exact absurd rfl filled
    | cons c rest ih =>
      rw [Text.endsWithWord, chars c List.mem_cons_self]
      cases rest with
      | nil => rfl
      | cons d rest =>
        exact ih true (List.cons_ne_nil _ _) fun e member => chars e (List.mem_cons_of_mem c member)
  unfold fits Text.stands
  rw [ends]
  cases stands : param.isPrefixOf text with
  | false => simp
  | true =>
    obtain ⟨tail, rfl⟩ := List.isPrefixOf_iff_prefix.mp stands
    have starts : Text.startsWithWord (param ++ tail) = true := by
      cases param with
      | nil => exact absurd rfl wordy.ne_nil
      | cons c rest => exact wordy.chars c List.mem_cons_self
    rw [starts]
    cases before <;> simp

/-- Nothing is put in where the empty parameter is bound to the empty text, or to none. -/
theorem insertion_eq_nil (empty : ∀ arg, ([], arg) ∈ bindings → arg = []) (before : Bool) (text : Text) :
    bindings.insertion before text = [] := by
  unfold insertion
  split
  · rename_i arg found
    exact empty arg (List.mem_of_find?_eq_some found)
  · rfl

theorem insertion_of_wordy (wordy : bindings.Wordy) (before : Bool) (text : Text) :
    bindings.insertion before text = [] :=
  insertion_eq_nil (fun _ member => absurd rfl (wordy _ member).ne_nil) before text

theorem word?_eq_stands (wordy : bindings.Wordy) (before : Bool) (text : Text) :
    bindings.word? before text = bindings.find? fun binding => Text.stands binding.1 before text := by
  apply List.find?_congr
  intro binding member
  have filled : binding.1.isEmpty = false := List.isEmpty_eq_false_iff.mpr (wordy binding member).ne_nil
  rw [fits_eq_stands (wordy binding member), filled, Bool.not_false, Bool.true_and]

/-- Parameters are replaced on the two sides of a character that is no word character. -/
theorem applyFrom_append_cons (wordy : bindings.Wordy) {c : Char} (stop : Text.isWord c = false)
    (skip : Nat) (before : Bool) (front back : Text) (short : skip ≤ front.length) :
    bindings.applyFrom skip before (front ++ c :: back) =
      bindings.applyFrom skip before front ++ c :: bindings.apply back := by
  induction front generalizing skip before with
  | nil =>
    obtain rfl := Nat.le_zero.mp short
    have absent : bindings.word? before (c :: back) = none := by
      rw [word?_eq_stands wordy, List.find?_eq_none]
      intro binding member
      have same := Text.stands_append_cons (wordy binding member) stop before [] back
      rw [List.nil_append, (wordy binding member).stands_nil] at same
      simp [same]
    simp only [List.nil_append, applyFrom, insertion_of_wordy wordy, absent, stop, apply]
  | cons d rest ih =>
    cases skip with
    | succ skip => exact ih skip _ (Nat.le_of_succ_le_succ short)
    | zero =>
      have same : bindings.word? before (d :: (rest ++ c :: back)) = bindings.word? before (d :: rest) := by
        rw [word?_eq_stands wordy, word?_eq_stands wordy]
        apply List.find?_congr
        intro binding member
        exact Text.stands_append_cons (wordy binding member) stop before (d :: rest) back
      rw [List.cons_append, applyFrom, applyFrom, same, insertion_of_wordy wordy, insertion_of_wordy wordy]
      cases found : bindings.word? before (d :: rest) with
      | none => simp [ih 0 (Text.isWord d) (Nat.zero_le _)]
      | some binding =>
        have fits := List.find?_some found
        have within : binding.1.length - 1 ≤ rest.length := by
          simp only [Bindings.fits, Bool.and_eq_true] at fits
          have bound := (List.isPrefixOf_iff_prefix.mp fits.2.1.2).length_le
          rw [List.length_cons] at bound
          omega
        simp [ih (binding.1.length - 1) (Text.isWord d) within]

theorem apply_append_cons (wordy : bindings.Wordy) {c : Char} (stop : Text.isWord c = false)
    (front back : Text) :
    bindings.apply (front ++ c :: back) = bindings.apply front ++ c :: bindings.apply back :=
  applyFrom_append_cons wordy stop 0 false front back (Nat.zero_le _)

/-- A text in which no parameter occurs stays as it is. -/
theorem apply_of_absent (wordy : bindings.Wordy) {text : Text}
    (absent : ∀ binding ∈ bindings, Text.occurs binding.1 text = false) : bindings.apply text = text := by
  have passed (before : Bool) (text : Text)
      (absent : ∀ binding ∈ bindings, Text.occursFrom binding.1 before text = false) :
      bindings.applyFrom 0 before text = text := by
    induction text generalizing before with
    | nil => exact insertion_of_wordy wordy before []
    | cons c rest ih =>
      simp only [Text.occursFrom, Bool.or_eq_false_iff] at absent
      have none : bindings.word? before (c :: rest) = none := by
        rw [word?_eq_stands wordy, List.find?_eq_none]
        intro binding member
        simp [(absent binding member).1]
      rw [applyFrom, insertion_of_wordy wordy, none, List.nil_append,
        ih (Text.isWord c) fun binding member => (absent binding member).2]
  exact passed false text absent

end Bindings

namespace Token

/-- A token with a keyword is the keyword with no word character after it. -/
theorem eq_keyword_append {token : Token} (named : token.keyword ≠ []) :
    ∃ tail, token = token.keyword ++ tail ∧ Text.startsWithWord tail = false := by
  unfold keyword at named ⊢
  split_ifs at named ⊢ with longer
  · exact absurd rfl named
  · exact ⟨token.dropWhile Char.isUpper, List.takeWhile_append_dropWhile.symm, by simpa using longer⟩

/-- The keyword is decided before the first character that is no word character. -/
theorem keyword_append_cons {c : Char} (stop : Text.isWord c = false) (front back : Text) :
    keyword (front ++ c :: back) = keyword front := by
  have lower : c.isUpper = false := by
    rw [Bool.eq_false_iff]
    intro upper
    rw [Text.isWord_of_isUpper upper] at stop
    cases stop
  unfold keyword
  rw [Text.dropWhile_append_cons lower, Text.takeWhile_append_cons lower,
    Text.startsWithWord_append_cons stop]

private theorem isLower_of_mem_keyword {token : Token} {c : Char} (member : c ∈ token.keyword) :
    c.isLower = false := by
  unfold keyword at member
  split_ifs at member
  · cases member
  · have upper : c.isUpper = true := List.mem_takeWhile_imp member
    rw [Bool.eq_false_iff]
    intro lower
    have most := Text.isUpper_iff.mp upper
    have least := Text.isLower_iff.mp lower
    omega

/-- A keyword is no parameter. -/
theorem keyword_apply {bindings : Bindings} (plain : bindings.Plain) {token : Token}
    (named : token.keyword ≠ []) : keyword (bindings.apply token) = token.keyword := by
  have kept : bindings.apply token.keyword = token.keyword := by
    apply Bindings.apply_of_absent plain.wordy
    intro binding member
    exact Text.occursFrom_of_no_lower (plain binding member) (fun c => isLower_of_mem_keyword) false
  obtain ⟨tail, whole, stop⟩ := eq_keyword_append named
  cases tail with
  | nil =>
    rw [List.append_nil] at whole
    rw [whole, kept, ← whole]
  | cons c back =>
    have short : keyword token.keyword = token.keyword := by
      conv_rhs => rw [whole]
      exact (keyword_append_cons stop token.keyword back).symm
    calc keyword (bindings.apply token)
        = keyword (bindings.apply (token.keyword ++ c :: back)) := by rw [← whole]
      _ = keyword (token.keyword ++ c :: bindings.apply back) := by
          rw [Bindings.apply_append_cons plain.wordy stop, kept]
      _ = keyword token.keyword := keyword_append_cons stop _ _
      _ = token.keyword := short

end Token

/-- The name in a signature is decided before its first parenthesis. -/
theorem Signature.name_of_read {keyword front back : Text} {signature : Signature} (absent : '(' ∉ front)
    (covered : keyword.length ≤ front.length)
    (read : Signature.read keyword (front ++ '(' :: back) = .ok signature) :
    signature.name = Text.trim ((front.drop keyword.length).dropWhile Text.isBlank) := by
  have clear : '(' ∉ (front.drop keyword.length).dropWhile Text.isBlank := fun member =>
    absent (List.mem_of_mem_drop ((List.dropWhile_suffix _).subset member))
  unfold Signature.read Signature.parts? at read
  simp only [List.drop_append_of_le_length covered] at read
  rw [Text.trim_append_cons (by decide), Text.after?_append_cons clear, Text.before_append_cons clear] at read
  simp only at read
  split at read
  · cases read
  · rename_i parts whole
    obtain ⟨inner, _, rfl⟩ := Option.map_eq_some_iff.mp whole
    split_ifs at read
    cases read
    rfl

namespace Token

/-- What a token keeps when arguments are put in: the part that it plays, the function that it calls, and
a count that could be read. -/
structure Instance (written token : Token) : Prop where
  kind : token.kind = written.kind
  callee : written.kind = .call → ∀ signature other, Signature.read callWord written = .ok signature →
    Signature.read callWord token = .ok other → other.name = signature.name
  count : written.kind = .opens .loop → ∀ count other, written.readCount = .ok count →
    token.readCount = .ok other → other = count

theorem Instance.refl (token : Token) : Instance token token := by
  refine ⟨rfl, ?_, ?_⟩
  · intro _ signature other read again
    rw [read] at again
    cases again
    rfl
  · intro _ count other read again
    rw [read] at again
    cases again
    rfl

/-- A loop that cannot run as it is written does not run with arguments put in. -/
theorem Instance.count_nonpos {written token : Token} (follows : Instance written token)
    (opens : written.kind = .opens .loop) (idle : written.mayLoop = false) {count : Int}
    (read : token.readCount = .ok count) : count ≤ 0 := by
  unfold mayLoop at idle
  split at idle
  · rename_i original first
    rw [follows.count opens original count first read]
    simpa using idle
  · cases idle

end Token

namespace Token

theorem readCount_eq_ok {token : Token} {count : Int} (read : token.readCount = .ok count) :
    ∃ head operand, Text.words token = [head, operand] ∧ Text.readInteger? operand = some count := by
  unfold readCount at read
  split at read
  · rename_i head operand words
    split at read
    · rename_i value numeral
      cases read
      exact ⟨head, operand, words, numeral⟩
    · cases read
  · cases read

/-- A token with a keyword has no blank in front. -/
private theorem words_ne_nil {token : Token} (named : token.keyword ≠ []) : Text.words token ≠ [] := by
  obtain ⟨c, member⟩ := List.exists_mem_of_ne_nil _ named
  obtain ⟨tail, whole, _⟩ := eq_keyword_append named
  have inside : c ∈ token := by
    rw [whole]
    exact List.mem_append_left _ member
  have upper : c.isUpper = true := by
    unfold keyword at member
    split_ifs at member
    · cases member
    · exact List.mem_takeWhile_imp member
  rcases Text.isBlank_or_mem_words inside with blank | ⟨word, listed, _⟩
  · have solid := Text.isWord_of_isBlank blank
    rw [Text.isWord_of_isUpper upper] at solid
    cases solid
  · exact List.ne_nil_of_mem listed

/-- The first blank of a token with a keyword and two words stands after the first of them. -/
private theorem cut_of_words {token : Token} (named : token.keyword ≠ []) {head operand : Text}
    (words : Text.words token = [head, operand]) :
    ∃ c back, token = head ++ c :: back ∧ Text.isBlank c = true ∧ Text.words back = [operand] := by
  cases found : token.find? Text.isBlank with
  | none =>
    have solid : ∀ c ∈ token, Text.isBlank c = false := by simpa using found
    have filled : token ≠ [] := by
      rintro rfl
      exact named rfl
    rw [Text.words_of_solid filled solid] at words
    cases words
  | some c =>
    obtain ⟨blank, front, back, rfl, solid⟩ := List.find?_eq_some_iff_append.mp found
    have filled : front ≠ [] := by
      rintro rfl
      rw [keyword_append_cons (Text.isWord_of_isBlank blank)] at named
      exact named rfl
    rw [Text.words_append_cons blank, Text.words_of_solid filled (by simpa using solid)] at words
    obtain ⟨rfl, after⟩ := List.cons.inj words
    exact ⟨c, back, rfl, blank, after⟩

/-- A count that can be read holds no parameter. -/
theorem readCount_apply {bindings : Bindings} (plain : bindings.Plain) {token : Token}
    (named : token.keyword ≠ []) {count other : Int} (read : token.readCount = .ok count)
    (again : readCount (bindings.apply token) = .ok other) : other = count := by
  obtain ⟨head, operand, words, numeral⟩ := readCount_eq_ok read
  obtain ⟨c, back, rfl, blank, single⟩ := cut_of_words named words
  have stop := Text.isWord_of_isBlank blank
  have fixed : bindings.apply back = back := by
    apply Bindings.apply_of_absent plain.wordy
    intro binding member
    refine Text.occursFrom_of_no_lower (plain binding member) (fun d inside => ?_) false
    rcases Text.isBlank_or_mem_words inside with blank | ⟨word, listed, inside⟩
    · exact Text.isLower_of_isBlank blank
    · rw [single, List.mem_singleton] at listed
      exact Text.isLower_of_mem_integer numeral (listed ▸ inside)
  rw [keyword_append_cons stop] at named
  have filled : Text.words (bindings.apply head) ≠ [] :=
    words_ne_nil (by rwa [keyword_apply plain named])
  obtain ⟨first, others, start⟩ := List.exists_cons_of_ne_nil filled
  obtain ⟨_, shown, changed, value⟩ := readCount_eq_ok again
  rw [Bindings.apply_append_cons plain.wordy stop, fixed, Text.words_append_cons blank, single, start,
    List.cons_append] at changed
  have same : shown = operand := by
    cases others with
    | nil =>
      have second := (List.cons.inj changed).2
      exact (List.cons.inj second).1.symm
    | cons extra others => simp at changed
  rw [same, numeral] at value
  exact (Option.some.inj value).symm

/-- The name that is called stands in front of the operands. -/
theorem name_apply {bindings : Bindings} (plain : bindings.Plain) {token : Token}
    (calls : token.keyword = callWord)
    (absent : ∀ binding ∈ bindings, Text.occurs binding.1 (Text.before '(' token) = false)
    {signature other : Signature} (read : Signature.read callWord token = .ok signature)
    (again : Signature.read callWord (bindings.apply token) = .ok other) :
    other.name = signature.name := by
  have stop : Text.isWord '(' = false := by decide
  by_cases opened : '(' ∈ token
  · obtain ⟨front, back, rfl, clear⟩ := List.eq_append_cons_of_mem opened
    rw [Text.before_append_cons clear] at absent
    rw [keyword_append_cons stop] at calls
    have named : keyword front ≠ [] := by
      rw [calls]
      decide
    have covered : callWord.length ≤ front.length := by
      obtain ⟨tail, whole, _⟩ := eq_keyword_append named
      rw [whole, calls, List.length_append]
      exact Nat.le_add_right _ _
    rw [Bindings.apply_append_cons plain.wordy stop, Bindings.apply_of_absent plain.wordy absent] at again
    rw [Signature.name_of_read clear covered read, Signature.name_of_read clear covered again]
  · rw [Text.before_of_absent opened] at absent
    rw [Bindings.apply_of_absent plain.wordy absent, read] at again
    cases again
    rfl

end Token

/-- The parameters are plain names, and they stand as whole words only in the openers of loops and among
the operands of calls. -/
structure FunctionDef.OperandsOnly (function : FunctionDef) : Prop where
  plain : ∀ param ∈ function.params, param.isPlainName = true
  placed : ∀ token ∈ function.body, ∀ param ∈ function.params, Text.occurs param token = true →
    token.keyword = Scope.loop.opener ∨
      token.keyword = Token.callWord ∧ Text.occurs param (Text.before '(' token) = false

instance (function : FunctionDef) : Decidable function.OperandsOnly :=
  decidable_of_iff
    ((∀ param ∈ function.params, param.isPlainName = true) ∧
      ∀ token ∈ function.body, ∀ param ∈ function.params, Text.occurs param token = true →
        token.keyword = Scope.loop.opener ∨
          token.keyword = Token.callWord ∧ Text.occurs param (Text.before '(' token) = false)
    ⟨fun ⟨plain, placed⟩ => ⟨plain, placed⟩, fun ⟨plain, placed⟩ => ⟨plain, placed⟩⟩

namespace FunctionDef.OperandsOnly

variable {function : FunctionDef}

theorem bindings (operands : function.OperandsOnly) (args : List Text) :
    Bindings.Plain (function.params.zip args) := by
  intro binding member
  exact operands.plain binding.1 (List.of_mem_zip member).1

/-- Every token of the body keeps its part when arguments are put in. -/
theorem apply_instance (operands : function.OperandsOnly) (args : List Text) {token : Token}
    (member : token ∈ function.body) :
    Token.Instance token (Bindings.apply (function.params.zip args) token) := by
  have plain := operands.bindings args
  have placed (binding : Text × Text) (bound : binding ∈ function.params.zip args) :=
    operands.placed token member binding.1 (List.of_mem_zip bound).1
  by_cases loops : token.keyword = Scope.loop.opener
  · have named : token.keyword ≠ [] := by
      rw [loops]
      decide
    have opens := (Token.kind_eq_opens_iff token .loop).mpr loops
    refine ⟨?_, ?_, fun _ _ _ => Token.readCount_apply plain named⟩
    · rw [opens, Token.kind_eq_opens_iff, Token.keyword_apply plain named, loops]
    · intro calls
      rw [opens] at calls
      cases calls
  · by_cases calls : token.keyword = Token.callWord
    · have named : token.keyword ≠ [] := by
        rw [calls]
        decide
      have called := (Token.kind_eq_call_iff token).mpr calls
      have absent (binding : Text × Text) (bound : binding ∈ function.params.zip args) :
          Text.occurs binding.1 (Text.before '(' token) = false := by
        cases occurs : Text.occurs binding.1 token with
        | false => exact Text.occurs_before_of_absent (plain.wordy binding bound) (by decide) occurs
        | true => exact ((placed binding bound occurs).resolve_left loops).2
      refine ⟨?_, fun _ _ _ => Token.name_apply plain calls absent, ?_⟩
      · rw [called, Token.kind_eq_call_iff, Token.keyword_apply plain named, calls]
      · intro opens
        rw [called] at opens
        cases opens
    · have absent (binding : Text × Text) (bound : binding ∈ function.params.zip args) :
          Text.occurs binding.1 token = false := by
        rw [Bool.eq_false_iff]
        intro occurs
        rcases placed binding bound occurs with opens | ⟨called, _⟩
        · exact loops opens
        · exact calls called
      rw [Bindings.apply_of_absent plain.wordy absent]
      exact .refl token

end FunctionDef.OperandsOnly

end Lamplighter
