import Lamplighter.Proofs.Operands
import Mathlib.Data.List.DropRight

/-! # Signatures as they are written

A signature is written as its keyword, a blank, the name, and the operands between parentheses with a comma and
a blank between them. What is read from a token is always in normal form: nothing is left to take off the name
or an operand, and no character in them could end the name or the operand sooner. A signature in normal form is
read from its own writing.
-/

namespace Lamplighter

namespace Text

section Trimming

theorem mem_of_mem_trim {c : Char} {text : Text} (member : c ∈ trim text) : c ∈ text :=
  (List.dropWhile_suffix isBlank).subset (mem_of_mem_trimEnd member)

theorem trim_cons_blank {c : Char} (blank : isBlank c = true) (text : Text) : trim (c :: text) = trim text := by
  rw [trim_eq, trim_eq, List.dropWhile_cons_of_pos blank]

theorem trim_append_blank {c : Char} (blank : isBlank c = true) (text : Text) :
    trim (text ++ [c]) = trim text := by
  rw [trim_eq, trim_eq, List.dropWhile_append]
  split_ifs with empty
  · rw [List.isEmpty_iff.mp empty, List.dropWhile_cons_of_pos blank, List.dropWhile_nil]
  · exact trimEnd_append_blank blank _

theorem trim_dropWhile (text : Text) : trim (text.dropWhile isBlank) = trim text := by
  rw [trim_eq, trim_eq, List.dropWhile_idempotent]

theorem trim_trimEnd (text : Text) : trim (trimEnd text) = trim text := by
  induction text using List.reverseRecOn with
  | nil => rfl
  | append_singleton text c ih =>
    cases blank : isBlank c with
    | true => rw [trimEnd_append_blank blank, ih, trim_append_blank blank]
    | false =>
      rw [trimEnd_append_cons blank]
      rfl

theorem trim_trim (text : Text) : trim (trim text) = trim text := by
  rw [trim_eq text, trim_trimEnd, trim_dropWhile, trim_eq]

end Trimming

theorem not_mem_before (c : Char) (text : Text) : c ∉ before c text := by
  intro member
  have differs := List.mem_takeWhile_imp member
  simp at differs

theorem not_mem_of_after?_eq_none {c : Char} {text : Text} (none : after? c text = none) : c ∉ text := by
  intro member
  obtain ⟨front, back, rfl, absent⟩ := List.eq_append_cons_of_mem member
  rw [after?_append_cons absent] at none
  cases none

section Splitting

variable {separator : Char}

/-- What a text is split into holds no separator and nothing that is not in the text. -/
theorem mem_splitAt {piece text : Text} (member : piece ∈ splitAt separator text) :
    separator ∉ piece ∧ ∀ c ∈ piece, c ∈ text := by
  induction text using separated separator with
  | whole text absent =>
    rw [splitAt_of_absent absent, List.mem_singleton] at member
    rw [member]
    exact ⟨absent, fun _ inside => inside⟩
  | cut front back absent ih =>
    rw [splitAt_append_cons absent, List.mem_cons] at member
    rcases member with rfl | later
    · exact ⟨absent, fun c inside => List.mem_append_left _ inside⟩
    · obtain ⟨clear, within⟩ := ih later
      exact ⟨clear, fun c inside => List.mem_append_right _ (List.mem_cons_of_mem _ (within c inside))⟩

/-- What is split into one piece is that piece. -/
theorem eq_of_splitAt_eq_singleton {piece text : Text} (single : splitAt separator text = [piece]) :
    text = piece := by
  induction text using separated separator with
  | whole text absent =>
    rw [splitAt_of_absent absent] at single
    exact List.singleton_inj.mp single
  | cut front back absent ih =>
    rw [splitAt_append_cons absent] at single
    exact absurd (List.cons.inj single).2 (splitWhere_ne_nil _ back)

variable (solid : isBlank separator = false)

include solid

private theorem map_trim_splitAt_trimEnd (text : Text) :
    (splitAt separator (trimEnd text)).map trim = (splitAt separator text).map trim := by
  induction text using separated separator with
  | whole text absent =>
    have clear : separator ∉ trimEnd text := fun member => absent (mem_of_mem_trimEnd member)
    rw [splitAt_of_absent clear, splitAt_of_absent absent, List.map_singleton, List.map_singleton, trim_trimEnd]
  | cut front back absent ih =>
    rw [trimEnd_append_cons solid, splitAt_append_cons absent, splitAt_append_cons absent, List.map_cons,
      List.map_cons, ih]

private theorem map_trim_splitAt_dropWhile (text : Text) :
    (splitAt separator (text.dropWhile isBlank)).map trim = (splitAt separator text).map trim := by
  have kept {text : Text} (absent : separator ∉ text) : separator ∉ text.dropWhile isBlank := fun member =>
    absent ((List.dropWhile_suffix isBlank).subset member)
  induction text using separated separator with
  | whole text absent =>
    rw [splitAt_of_absent (kept absent), splitAt_of_absent absent, List.map_singleton, List.map_singleton,
      trim_dropWhile]
  | cut front back absent _ =>
    rw [dropWhile_append_cons solid, splitAt_append_cons (kept absent), splitAt_append_cons absent,
      List.map_cons, List.map_cons, trim_dropWhile]

/-- Blanks at the ends of a text are taken off with those at the ends of its pieces. -/
theorem map_trim_splitAt_trim (text : Text) :
    (splitAt separator (trim text)).map trim = (splitAt separator text).map trim := by
  rw [trim_eq, map_trim_splitAt_trimEnd solid, map_trim_splitAt_dropWhile solid]

theorem map_trim_splitAt_cons {c : Char} (blank : isBlank c = true) (text : Text) :
    (splitAt separator (c :: text)).map trim = (splitAt separator text).map trim := by
  rw [← map_trim_splitAt_trim solid, trim_cons_blank blank, map_trim_splitAt_trim solid]

end Splitting

end Text

namespace Signature

def writeOperands (operands : List Text) : Text := Text.join ", ".toList operands

/-- How a signature is written behind its keyword. -/
def write (keyword : Text) (signature : Signature) : Token :=
  keyword ++ ' ' :: signature.name ++ '(' :: (writeOperands signature.operands ++ [')'])

/-- The normal form of a signature: a name of at least one character and operands, none of them with a blank at
its ends; no parenthesis is opened in the name, no operand holds a comma, and one operand alone is not empty.
In a definition no operand holds a closing parenthesis. -/
structure Normal (keyword : Text) (signature : Signature) : Prop where
  named : signature.name ≠ []
  trimmed : Text.trim signature.name = signature.name
  unopened : '(' ∉ signature.name
  filled : signature.operands ≠ [[]]
  tidy : ∀ operand ∈ signature.operands, Text.trim operand = operand ∧ ',' ∉ operand
  unclosed : keyword = Scope.definition.opener → ∀ operand ∈ signature.operands, ')' ∉ operand

section Operands

variable {operands : List Text}

theorem writeOperands_singleton (operand : Text) : writeOperands [operand] = operand := by
  simp [writeOperands, Text.join]

theorem writeOperands_cons_cons (first second : Text) (rest : List Text) :
    writeOperands (first :: second :: rest) = first ++ ',' :: ' ' :: writeOperands (second :: rest) := by
  simp [writeOperands, Text.join, List.intercalate_cons_cons]

/-- Only commas and blanks stand between operands. -/
theorem mem_writeOperands {c : Char} (member : c ∈ writeOperands operands) :
    c = ',' ∨ c = ' ' ∨ ∃ operand ∈ operands, c ∈ operand := by
  induction operands with
  | nil => cases member
  | cons first rest ih =>
    cases rest with
    | nil =>
      rw [writeOperands_singleton] at member
      exact .inr (.inr ⟨first, List.mem_cons_self, member⟩)
    | cons second rest =>
      rw [writeOperands_cons_cons, List.mem_append, List.mem_cons, List.mem_cons] at member
      rcases member with here | comma | blank | later
      · exact .inr (.inr ⟨first, List.mem_cons_self, here⟩)
      · exact .inl comma
      · exact .inr (.inl blank)
      · refine (ih later).imp_right (Or.imp_right ?_)
        rintro ⟨operand, listed, inside⟩
        exact ⟨operand, List.mem_cons_of_mem first listed, inside⟩

theorem splitAt_writeOperands (some : operands ≠ []) (clear : ∀ operand ∈ operands, ',' ∉ operand) :
    (Text.splitAt ',' (writeOperands operands)).map Text.trim = operands.map Text.trim := by
  induction operands with
  | nil => exact absurd rfl some
  | cons first rest ih =>
    obtain ⟨here, later⟩ := List.forall_mem_cons.mp clear
    cases rest with
    | nil => rw [writeOperands_singleton, Text.splitAt_of_absent here]
    | cons second rest =>
      rw [writeOperands_cons_cons, Text.splitAt_append_cons here, List.map_cons,
        Text.map_trim_splitAt_cons (by decide) (by decide), ih (List.cons_ne_nil _ _) later]
      rfl

/-- Operands without commas and without blanks at their ends are read from their writing, unless there is just
one and it is empty. -/
theorem operandsOf_writeOperands (filled : operands ≠ [[]])
    (tidy : ∀ operand ∈ operands, Text.trim operand = operand ∧ ',' ∉ operand) :
    operandsOf (writeOperands operands) = operands := by
  by_cases none : operands = []
  · rw [none]
    rfl
  · have split : (Text.splitAt ',' (Text.trim (writeOperands operands))).map Text.trim = operands := by
      rw [Text.map_trim_splitAt_trim (by decide), splitAt_writeOperands none fun operand member =>
        (tidy operand member).2]
      exact (List.map_congr_left fun operand member => (tidy operand member).1).trans (List.map_id _)
    unfold operandsOf
    dsimp only
    split_ifs with empty
    · rw [List.isEmpty_iff.mp empty] at split
      exact absurd split.symm filled
    · exact split

end Operands

/-- The operands in a list are in normal form. -/
theorem operandsOf_normal (inner : Text) :
    operandsOf inner ≠ [[]] ∧ ∀ operand ∈ operandsOf inner, Text.trim operand = operand ∧ ',' ∉ operand ∧
      ∀ c ∈ operand, c ∈ inner := by
  unfold operandsOf
  dsimp only
  split_ifs with empty
  · exact ⟨nofun, nofun⟩
  · refine ⟨fun single => ?_, ?_⟩
    · obtain ⟨piece, split, blank⟩ := List.map_eq_singleton_iff.mp single
      rw [← Text.eq_of_splitAt_eq_singleton split, Text.trim_trim] at blank
      exact empty (List.isEmpty_iff.mpr blank)
    · rw [List.forall_mem_map]
      intro piece member
      obtain ⟨clear, within⟩ := Text.mem_splitAt member
      exact ⟨Text.trim_trim piece, fun comma => clear (Text.mem_of_mem_trim comma),
        fun c inside => Text.mem_of_mem_trim (within c (Text.mem_of_mem_trim inside))⟩

/-- What is read is in normal form. -/
theorem normal_of_read {keyword : Text} {token : Token} {signature : Signature}
    (read : Signature.read keyword token = .ok signature) :
    signature.Normal keyword := by
  unfold Signature.read at read
  split at read
  · cases read
  · rename_i parts whole
    split_ifs at read with empty
    cases read
    have named : signature.name ≠ [] := fun missing => empty (List.isEmpty_iff.mpr missing)
    unfold parts? at whole
    dsimp only at whole
    split at whole
    · rename_i unlisted
      cases whole
      exact ⟨named, Text.trim_trim _, Text.not_mem_of_after?_eq_none unlisted, nofun, nofun, nofun⟩
    · rename_i inside _
      obtain ⟨inner, listed, rfl⟩ := Option.map_eq_some_iff.mp whole
      obtain ⟨filled, tidy⟩ := operandsOf_normal inner
      refine ⟨named, Text.trim_trim _, fun opened => ?_, filled, fun operand member => ?_, ?_⟩
      · exact Text.not_mem_before _ _ (Text.mem_of_mem_trim opened)
      · exact ⟨(tidy operand member).1, (tidy operand member).2.1⟩
      · rintro rfl operand member closed
        unfold listBody? at listed
        split_ifs at listed with _ calls
        · exact absurd calls (by decide)
        · cases listed
          exact Text.not_mem_before _ _ ((tidy operand member).2.2 _ closed)

section Forms

variable {keyword : Text} (known : keyword = Scope.definition.opener ∨ keyword = Token.callWord)

include known

/-- A list ends at a parenthesis behind which there is nothing, unless one before it ends it. -/
theorem listBody?_close {inner : Text} (unclosed : keyword = Scope.definition.opener → ')' ∉ inner) :
    listBody? keyword (inner ++ [')']) = some inner := by
  rw [listBody?, if_pos (by simp)]
  rcases known with rfl | rfl
  · rw [if_neg (by decide), Text.before_append_cons (unclosed rfl)]
  · rw [if_pos rfl, Text.beforeLast_append_cons List.not_mem_nil]

variable {signature : Signature}

/-- A signature in normal form is read from its writing. -/
theorem read_write (normal : signature.Normal keyword) :
    Signature.read keyword (signature.write keyword) = .ok signature := by
  have dropped : (keyword ++ ' ' :: signature.name).drop keyword.length = ' ' :: signature.name :=
    List.drop_left
  have first : '(' ∉ (keyword ++ ' ' :: signature.name).drop keyword.length := by
    rw [dropped]
    simpa using normal.unopened
  have name : Text.trim ((' ' :: signature.name).dropWhile Text.isBlank) = signature.name := by
    rw [Text.trim_dropWhile, Text.trim_cons_blank (by decide), normal.trimmed]
  have ended : Text.trimEnd (writeOperands signature.operands ++ [')']) =
      writeOperands signature.operands ++ [')'] :=
    Text.trimEnd_append_cons (by decide) _ []
  have closed (definition : keyword = Scope.definition.opener) : ')' ∉ writeOperands signature.operands := by
    intro member
    rcases mem_writeOperands member with comma | blank | ⟨operand, listed, inside⟩
    · cases comma
    · cases blank
    · exact normal.unclosed definition operand listed inside
  have parted := parts?_opened (by simp) first (writeOperands signature.operands ++ [')'])
  rw [ended, listBody?_close known closed, Option.map_some, dropped, name,
    operandsOf_writeOperands normal.filled normal.tidy] at parted
  exact (read_eq_ok_iff parted).mpr ⟨normal.named, rfl⟩

end Forms

/-- Reading inverts writing, for definitions and for calls: a signature in normal form is read from its writing,
and what is read from any token is in normal form, so that it can be written and read again. -/
theorem read_inverts_write {keyword : Text}
    (known : keyword = Scope.definition.opener ∨ keyword = Token.callWord) (signature : Signature) :
    (signature.Normal keyword → Signature.read keyword (signature.write keyword) = .ok signature) ∧
      ∀ token, Signature.read keyword token = .ok signature →
        signature.Normal keyword ∧ Signature.read keyword (signature.write keyword) = .ok signature := by
  refine ⟨read_write known, fun token read => ?_⟩
  have normal := normal_of_read read
  exact ⟨normal, read_write known normal⟩

/-- A call with parentheses in its name and in an operand, between two empty operands, and a definition whose
list ends at the first parenthesis that is closed in it. -/
theorem read_inverts_write_of_parentheses :
    let call : Signature := ⟨"a) b".toList, [[], "g(x) y)".toList, []]⟩
    let definition : Signature := ⟨"a) b".toList, ["(x".toList, "y z".toList]⟩
    (Signature.read Token.callWord "CALL a) b (,g(x) y) ,) end".toList = .ok call ∧
      call.Normal Token.callWord ∧
      call.write Token.callWord = "CALL a) b(, g(x) y), )".toList ∧
      Signature.read Token.callWord (call.write Token.callWord) = .ok call) ∧
    Signature.read Scope.definition.opener "FUNCTION a) b((x,y z) (n)".toList = .ok definition ∧
      definition.Normal Scope.definition.opener ∧
      definition.write Scope.definition.opener = "FUNCTION a) b((x, y z)".toList ∧
      Signature.read Scope.definition.opener (definition.write Scope.definition.opener) = .ok definition := by
  intro call definition
  have called : Signature.read Token.callWord "CALL a) b (,g(x) y) ,) end".toList = .ok call := rfl
  have defined :
      Signature.read Scope.definition.opener "FUNCTION a) b((x,y z) (n)".toList = .ok definition := rfl
  obtain ⟨callNormal, _⟩ := (read_inverts_write (.inr rfl) call).2 _ called
  obtain ⟨definitionNormal, again⟩ := (read_inverts_write (.inl rfl) definition).2 _ defined
  exact ⟨⟨called, callNormal, rfl, (read_inverts_write (.inr rfl) call).1 callNormal⟩, defined,
    definitionNormal, rfl, again⟩

end Signature

end Lamplighter
