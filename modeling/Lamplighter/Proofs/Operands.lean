import Lamplighter.Proofs.Substitution
import Mathlib.Data.List.Forall2
import Mathlib.Data.List.Induction

/-! # Arguments in the operands of a call

A call is split at its first opening parenthesis, at its last closing one and at commas, and blanks are taken
off what lies between. None of these characters is a word character, so parameters are replaced on each side
of them alone. Arguments that hold no comma and have no blank at their ends put no new split between the
operands and leave nothing to take off. So a call with arguments put in has the operands that come from
putting the arguments into each operand.
-/

namespace Lamplighter

namespace Text

theorem Wordy.of_all {word : Text} (filled : word ≠ []) (chars : word.all isWord = true) : word.Wordy :=
  ⟨filled, List.all_eq_true.mp chars⟩

def trimEnd (text : Text) : Text := (text.reverse.dropWhile isBlank).reverse

theorem trim_eq (text : Text) : trim text = trimEnd (text.dropWhile isBlank) := rfl

def StartsSolid (text : Text) : Prop := ∀ c, text.head? = some c → isBlank c = false

def EndsSolid (text : Text) : Prop := ∀ c, text.getLast? = some c → isBlank c = false

section Ends

variable {text : Text}

theorem startsSolid_iff : text.StartsSolid ↔ text.dropWhile isBlank = text := by
  cases text with
  | nil => simp [StartsSolid]
  | cons c rest =>
    constructor
    · intro solid
      exact List.dropWhile_cons_of_neg (by simp [solid c rfl])
    · intro same d found
      cases found
      rw [Bool.eq_false_iff]
      intro blank
      rw [List.dropWhile_cons_of_pos blank] at same
      have shorter := (List.dropWhile_suffix isBlank (l := rest)).length_le
      rw [same, List.length_cons] at shorter
      omega

theorem endsSolid_iff : text.EndsSolid ↔ trimEnd text = text := by
  have reversed : text.EndsSolid ↔ StartsSolid text.reverse := by
    rw [EndsSolid, StartsSolid, List.head?_reverse]
  rw [reversed, startsSolid_iff, trimEnd, List.reverse_eq_iff]

theorem length_trimEnd_le (text : Text) : (trimEnd text).length ≤ text.length := by
  have shorter := (List.dropWhile_suffix isBlank (l := text.reverse)).length_le
  rwa [List.length_reverse, ← List.length_reverse] at shorter

theorem mem_of_mem_trimEnd {c : Char} (member : c ∈ trimEnd text) : c ∈ text :=
  List.mem_reverse.mp ((List.dropWhile_suffix isBlank).subset (List.mem_reverse.mp member))

theorem trimEnd_append_cons {c : Char} (solid : isBlank c = false) (front back : Text) :
    trimEnd (front ++ c :: back) = front ++ c :: trimEnd back := by
  rw [trimEnd, List.reverse_append, List.reverse_cons, List.append_assoc, List.singleton_append,
    dropWhile_append_cons solid, List.reverse_append, List.reverse_cons, List.reverse_reverse,
    List.append_assoc, List.singleton_append, trimEnd]

theorem trimEnd_append_blank {c : Char} (blank : isBlank c = true) (text : Text) :
    trimEnd (text ++ [c]) = trimEnd text := by
  rw [trimEnd, List.reverse_append, List.reverse_singleton, List.singleton_append,
    List.dropWhile_cons_of_pos blank, trimEnd]

/-- A text that trimming leaves as it is starts and ends with a character that is no blank. -/
theorem solid_of_trim_eq (trimmed : trim text = text) : text.StartsSolid ∧ text.EndsSolid := by
  rw [trim_eq] at trimmed
  have long : text.length ≤ (text.dropWhile isBlank).length := by
    have shorter := length_trimEnd_le (text.dropWhile isBlank)
    rwa [trimmed] at shorter
  have same : text.dropWhile isBlank = text := (List.dropWhile_suffix isBlank).eq_of_length_le long
  rw [same] at trimmed
  exact ⟨startsSolid_iff.mpr same, endsSolid_iff.mpr trimmed⟩

theorem EndsSolid.of_cons {c : Char} (solid : EndsSolid (c :: text)) : text.EndsSolid := by
  intro d last
  exact solid d (by rw [List.getLast?_cons, last, Option.getD_some])

theorem EndsSolid.append {back : Text} (front : text.EndsSolid) (solid : back.EndsSolid) :
    EndsSolid (text ++ back) := by
  intro c last
  rw [List.getLast?_append] at last
  cases found : back.getLast? with
  | none =>
    rw [found, Option.none_or] at last
    exact front c last
  | some d =>
    rw [found, Option.some_or] at last
    cases last
    exact solid c found

end Ends

def afterLast (c : Char) (text : Text) : Text := (text.reverse.takeWhile (· != c)).reverse

section Last

variable {c : Char} {back : Text} (absent : c ∉ back) (front : Text)

include absent

theorem afterLast_append_cons : afterLast c (front ++ c :: back) = back := by
  have clear : c ∉ back.reverse := by rwa [List.mem_reverse]
  rw [afterLast, List.reverse_append, List.reverse_cons, List.append_assoc, List.singleton_append]
  change (before c (back.reverse ++ c :: front.reverse)).reverse = back
  rw [before_append_cons clear, List.reverse_reverse]

theorem beforeLast_append_cons : beforeLast c (front ++ c :: back) = front := by
  have passed : back.reverse.dropWhile (· != c) = [] := by
    rw [List.dropWhile_eq_nil_iff]
    intro d member
    rw [bne_iff_ne]
    rintro rfl
    exact absent (List.mem_reverse.mp member)
  rw [beforeLast, List.reverse_append, List.reverse_cons, List.append_assoc, List.singleton_append,
    dropWhile_append_cons (by simp), passed, List.nil_append, List.drop_one, List.tail_cons,
    List.reverse_reverse]

end Last

/-- A text is parted at the last one of a character that it holds. -/
theorem exists_last {c : Char} {text : Text} (member : c ∈ text) :
    ∃ front back, text = front ++ c :: back ∧ c ∉ back := by
  obtain ⟨back, front, reversed, absent⟩ := List.eq_append_cons_of_mem (List.mem_reverse.mpr member)
  refine ⟨front.reverse, back.reverse, ?_, by rwa [List.mem_reverse]⟩
  rw [← List.reverse_reverse text, reversed, List.reverse_append, List.reverse_cons, List.append_assoc,
    List.singleton_append]

end Text

namespace Bindings

variable {bindings : Bindings}

/-- Each argument has at least one character and no comma, and no blank stands at its ends. -/
def Tidy (bindings : Bindings) : Prop :=
  ∀ binding ∈ bindings, binding.2 ≠ [] ∧ ',' ∉ binding.2 ∧ Text.trim binding.2 = binding.2

/-- What is put in at the next character, if a parameter is replaced there, is an argument. -/
theorem mem_of_word? {before : Bool} {text param arg : Text}
    (found : bindings.word? before text = some (param, arg)) : (param, arg) ∈ bindings :=
  List.mem_of_find?_eq_some found

/-- A character of a text with arguments put in comes from the text or from an argument. -/
theorem mem_applyFrom (wordy : bindings.Wordy) {skip : Nat} {before : Bool} {text : Text} {c : Char}
    (member : c ∈ bindings.applyFrom skip before text) : c ∈ text ∨ ∃ binding ∈ bindings, c ∈ binding.2 := by
  induction text generalizing skip before with
  | nil =>
    rw [applyFrom, insertion_of_wordy wordy] at member
    cases member
  | cons d rest ih =>
    cases skip with
    | succ skip => exact (ih member).imp_left (List.mem_cons_of_mem d)
    | zero =>
      rw [applyFrom, insertion_of_wordy wordy, List.nil_append] at member
      split at member
      · rename_i param arg found
        rcases List.mem_append.mp member with inside | later
        · exact .inr ⟨(param, arg), mem_of_word? found, inside⟩
        · exact (ih later).imp_left (List.mem_cons_of_mem d)
      · rcases List.mem_cons.mp member with rfl | later
        · exact .inl List.mem_cons_self
        · exact (ih later).imp_left (List.mem_cons_of_mem d)

section Tidy

variable (wordy : bindings.Wordy) (tidy : bindings.Tidy)

include wordy

theorem apply_empty : bindings.apply [] = [] := insertion_of_wordy wordy false []

include tidy

/-- Where a text starts with a character, putting arguments in leaves a character there, and no blank
unless one was there. -/
theorem exists_head_applyFrom (before : Bool) (c : Char) (rest : Text) :
    ∃ d tail, bindings.applyFrom 0 before (c :: rest) = d :: tail ∧
      (Text.isBlank c = false → Text.isBlank d = false) := by
  rw [applyFrom, insertion_of_wordy wordy, List.nil_append]
  split
  · rename_i param arg found
    obtain ⟨filled, _, trimmed⟩ := tidy _ (mem_of_word? found)
    obtain ⟨d, others, rfl⟩ := List.exists_cons_of_ne_nil filled
    exact ⟨d, _, List.cons_append, fun _ => (Text.solid_of_trim_eq trimmed).1 d rfl⟩
  · exact ⟨c, _, rfl, id⟩

theorem isEmpty_apply (text : Text) : (bindings.apply text).isEmpty = text.isEmpty := by
  cases text with
  | nil => rw [apply_empty wordy]
  | cons c rest =>
    obtain ⟨d, tail, starts, _⟩ := exists_head_applyFrom wordy tidy false c rest
    rw [apply, starts]
    rfl

theorem endsSolid_applyFrom (skip : Nat) (before : Bool) {text : Text} (solid : text.EndsSolid) :
    (bindings.applyFrom skip before text).EndsSolid := by
  induction text generalizing skip before with
  | nil =>
    rw [applyFrom, insertion_of_wordy wordy]
    exact solid
  | cons c rest ih =>
    have later := fun skip before => ih skip before solid.of_cons
    cases skip with
    | succ skip => exact later skip _
    | zero =>
      rw [applyFrom, insertion_of_wordy wordy, List.nil_append]
      split
      · rename_i param arg found
        obtain ⟨_, _, trimmed⟩ := tidy _ (mem_of_word? found)
        exact (Text.solid_of_trim_eq trimmed).2.append (later _ _)
      · cases rest with
        | nil =>
          rw [applyFrom, insertion_of_wordy wordy]
          exact solid
        | cons d rest =>
          have last := later 0 (Text.isWord c)
          obtain ⟨e, tail, starts, _⟩ := exists_head_applyFrom wordy tidy (Text.isWord c) d rest
          rw [starts] at last ⊢
          intro f found
          exact last f (by rwa [List.getLast?_cons_cons] at found)

/-- Blanks are taken off in front before or after arguments are put in. -/
theorem dropWhile_apply (text : Text) :
    (bindings.apply text).dropWhile Text.isBlank = bindings.apply (text.dropWhile Text.isBlank) := by
  induction text with
  | nil => rw [List.dropWhile_nil, apply_empty wordy, List.dropWhile_nil]
  | cons c rest ih =>
    cases blank : Text.isBlank c with
    | true =>
      have stop := Text.isWord_of_isBlank blank
      have parted := apply_append_cons wordy stop [] rest
      rw [List.nil_append, apply_empty wordy, List.nil_append] at parted
      rw [parted, List.dropWhile_cons_of_pos blank, List.dropWhile_cons_of_pos blank, ih]
    | false =>
      obtain ⟨d, tail, starts, solid⟩ := exists_head_applyFrom wordy tidy false c rest
      rw [List.dropWhile_cons_of_neg (by simp [blank]), apply, starts,
        List.dropWhile_cons_of_neg (by simp [solid blank])]

theorem trimEnd_apply (text : Text) :
    Text.trimEnd (bindings.apply text) = bindings.apply (Text.trimEnd text) := by
  induction text using List.reverseRecOn with
  | nil => rw [apply_empty wordy, Text.trimEnd, List.reverse_nil, List.dropWhile_nil, List.reverse_nil,
      apply_empty wordy]
  | append_singleton text c ih =>
    cases blank : Text.isBlank c with
    | true =>
      rw [apply_append_cons wordy (Text.isWord_of_isBlank blank), apply_empty wordy,
        Text.trimEnd_append_blank blank, Text.trimEnd_append_blank blank, ih]
    | false =>
      have solid : Text.EndsSolid (text ++ [c]) := by
        intro d last
        rw [List.getLast?_concat] at last
        cases last
        exact blank
      rw [Text.endsSolid_iff.mp solid]
      exact Text.endsSolid_iff.mp (endsSolid_applyFrom wordy tidy 0 false solid)

/-- Blanks are taken off before or after arguments are put in. -/
theorem trim_apply (text : Text) : Text.trim (bindings.apply text) = bindings.apply (Text.trim text) := by
  rw [Text.trim_eq, Text.trim_eq, dropWhile_apply wordy tidy, trimEnd_apply wordy tidy]

/-- Operands are split at commas before or after arguments are put in. -/
theorem splitAt_apply (text : Text) :
    Text.splitAt ',' (bindings.apply text) = (Text.splitAt ',' text).map bindings.apply := by
  have kept {text : Text} (absent : ',' ∉ text) : ',' ∉ bindings.apply text := by
    intro member
    rcases mem_applyFrom wordy member with inside | ⟨binding, listed, inside⟩
    · exact absent inside
    · exact (tidy binding listed).2.1 inside
  induction text using Text.separated ',' with
  | whole text absent =>
    rw [Text.splitAt_of_absent (kept absent), Text.splitAt_of_absent absent, List.map_singleton]
  | cut front back absent ih =>
    rw [apply_append_cons wordy (by decide), Text.splitAt_append_cons (kept absent),
      Text.splitAt_append_cons absent, ih, List.map_cons]

/-- The operands in a list with arguments put in are its operands with arguments put in. -/
theorem operandsOf_apply (inner : Text) :
    Signature.operandsOf (bindings.apply inner) = (Signature.operandsOf inner).map bindings.apply := by
  unfold Signature.operandsOf
  rw [trim_apply wordy tidy]
  simp only [isEmpty_apply wordy tidy]
  split_ifs
  · rfl
  · rw [splitAt_apply wordy tidy, List.map_map, List.map_map]
    exact List.map_congr_left fun piece _ => trim_apply wordy tidy piece

end Tidy

end Bindings

/-- As many arguments as parameters are put into each line by itself. -/
theorem substitute_of_paired {params args : List Text} (paired : args.length = params.length)
    (body : List Token) :
    substitute params args body = .ok (body.map (Bindings.apply (params.zip args))) := by
  unfold substitute
  split_ifs with empty fewer more
  · rw [List.isEmpty_iff.mp empty, List.zip_nil_left, funext Bindings.apply_nil]
    exact congrArg Except.ok (List.map_id body).symm
  · omega
  · omega
  · rfl

namespace Signature

theorem read_eq_ok_iff {keyword : Text} {token : Token} {parts signature : Signature}
    (parted : parts? keyword token = some parts) :
    Signature.read keyword token = .ok signature ↔ parts.name ≠ [] ∧ parts = signature := by
  rw [Signature.read, parted]
  by_cases empty : parts.name = []
  · simp [empty]
  · simp [empty]

/-- A token is parted at its first opening parenthesis behind the keyword. -/
theorem parts?_opened {keyword front : Text} (covered : keyword.length ≤ front.length)
    (first : '(' ∉ front.drop keyword.length) (back : Text) :
    parts? keyword (front ++ '(' :: back) =
      (listBody? keyword (Text.trimEnd back)).map fun inner =>
        ⟨Text.trim ((front.drop keyword.length).dropWhile Text.isBlank), operandsOf inner⟩ := by
  have clear : '(' ∉ (front.drop keyword.length).dropWhile Text.isBlank := fun member =>
    first ((List.dropWhile_suffix _).subset member)
  unfold parts?
  rw [List.drop_append_of_le_length covered, Text.trim_eq, Text.dropWhile_append_cons (by decide),
    Text.trimEnd_append_cons (by decide)]
  simp only [Text.after?_append_cons clear, Text.before_append_cons clear]

section Parts

variable {front : Text} (covered : Token.callWord.length ≤ front.length)
variable (first : '(' ∉ front.drop Token.callWord.length)

include covered first

/-- The operands of a call reach to its last closing parenthesis. -/
theorem parts?_call (inner : Text) {tail : Text} (last : ')' ∉ tail) :
    parts? Token.callWord (front ++ '(' :: (inner ++ ')' :: tail)) =
      some ⟨Text.trim ((front.drop Token.callWord.length).dropWhile Text.isBlank), operandsOf inner⟩ := by
  have closed : ')' ∉ Text.trimEnd tail := fun member => last (Text.mem_of_mem_trimEnd member)
  rw [parts?_opened covered first, Text.trimEnd_append_cons (by decide), listBody?, if_pos (by simp),
    if_pos rfl, Text.beforeLast_append_cons closed, Option.map_some]

/-- A call that can be read has a closing parenthesis in its operand list. -/
theorem closes_of_read {back : Text} {signature : Signature}
    (read : Signature.read Token.callWord (front ++ '(' :: back) = .ok signature) : ')' ∈ back := by
  by_contra unclosed
  have absent : (Text.trimEnd back).contains ')' = false := by
    rw [Bool.eq_false_iff, Ne, List.contains_iff_mem]
    exact fun member => unclosed (Text.mem_of_mem_trimEnd member)
  rw [Signature.read, parts?_opened covered first, listBody?, absent] at read
  cases read

end Parts

/-- A call with an operand list is parted at its first opening parenthesis behind the keyword and at its last
closing one. -/
theorem exists_parts_of_read {token : Token} {signature : Signature}
    (read : Signature.read Token.callWord token = .ok signature)
    (lists : '(' ∈ token.drop Token.callWord.length) :
    ∃ front inner tail, token = front ++ '(' :: (inner ++ ')' :: tail) ∧
      Token.callWord.length ≤ front.length ∧ '(' ∉ front.drop Token.callWord.length ∧ ')' ∉ tail := by
  obtain ⟨name, back, parted, first⟩ := List.eq_append_cons_of_mem lists
  have long : Token.callWord.length ≤ (token.take Token.callWord.length).length := by
    have filled := List.length_pos_of_mem lists
    rw [List.length_drop] at filled
    rw [List.length_take]
    omega
  have whole : token = token.take Token.callWord.length ++ name ++ '(' :: back := by
    rw [List.append_assoc, ← parted, List.take_append_drop]
  have covered : Token.callWord.length ≤ (token.take Token.callWord.length ++ name).length := by
    rw [List.length_append]
    omega
  have clear : '(' ∉ (token.take Token.callWord.length ++ name).drop Token.callWord.length := by
    rwa [List.drop_append_of_le_length long, List.drop_take_self, List.nil_append]
  rw [whole] at read
  obtain ⟨inner, tail, rfl, last⟩ := Text.exists_last (closes_of_read covered clear read)
  exact ⟨_, inner, tail, whole, covered, clear, last⟩

/-- What stands in a call before its operand list: all before the first opening parenthesis behind the
keyword. -/
def beforeList (token : Token) : Text :=
  token.take Token.callWord.length ++ Text.before '(' (token.drop Token.callWord.length)

/-- What stands in a call behind its operand list: all after the last closing parenthesis. -/
def afterList (token : Token) : Text := Text.afterLast ')' token

theorem beforeList_parts {front : Text} (covered : Token.callWord.length ≤ front.length)
    (first : '(' ∉ front.drop Token.callWord.length) (back : Text) :
    beforeList (front ++ '(' :: back) = front := by
  rw [beforeList, List.drop_append_of_le_length covered, Text.before_append_cons first,
    List.take_append_of_le_length covered, List.take_append_drop]

theorem afterList_parts {tail : Text} (last : ')' ∉ tail) (front inner : Text) :
    afterList (front ++ '(' :: (inner ++ ')' :: tail)) = tail := by
  rw [afterList, ← List.cons_append, ← List.append_assoc, Text.afterLast_append_cons last]

/-- Putting arguments into a call puts them into each of its operands. The parameters are words that occur
neither before nor behind the operand list, and each argument has at least one character, no comma, and no
blank at its ends. Then the call can still be read, with the same name and as many operands, each with the
arguments put into it by itself. -/
theorem read_substituted_call {token : Token} {signature : Signature} {params args : List Text}
    (read : Signature.read Token.callWord token = .ok signature)
    (lists : '(' ∈ token.drop Token.callWord.length) (wordy : ∀ param ∈ params, param.Wordy)
    (paired : args.length = params.length)
    (tidy : ∀ arg ∈ args, arg ≠ [] ∧ ',' ∉ arg ∧ Text.trim arg = arg)
    (absent : ∀ param ∈ params,
      Text.occurs param (beforeList token) = false ∧ Text.occurs param (afterList token) = false) :
    ∃ changed operands, substitute params args [token] = .ok [changed] ∧
      List.Forall₂ (fun operand put => substitute params args [operand] = .ok [put]) signature.operands
        operands ∧
      operands.length = signature.operands.length ∧
      Signature.read Token.callWord changed = .ok ⟨signature.name, operands⟩ := by
  have words : Bindings.Wordy (params.zip args) := fun binding member => wordy _ (List.of_mem_zip member).1
  have clean : Bindings.Tidy (params.zip args) := fun binding member => tidy _ (List.of_mem_zip member).2
  obtain ⟨front, inner, tail, rfl, covered, first, last⟩ := exists_parts_of_read read lists
  rw [beforeList_parts covered first, afterList_parts last] at absent
  have frontKept := Bindings.apply_of_absent words fun binding member =>
    (absent _ (List.of_mem_zip member).1).1
  have tailKept := Bindings.apply_of_absent words fun binding member =>
    (absent _ (List.of_mem_zip member).1).2
  obtain ⟨named, rfl⟩ := (read_eq_ok_iff (parts?_call covered first inner last)).mp read
  refine ⟨_, (operandsOf inner).map (Bindings.apply (params.zip args)), substitute_of_paired paired _, ?_,
    List.length_map _, ?_⟩
  · rw [List.forall₂_map_right_iff, List.forall₂_same]
    exact fun operand _ => substitute_of_paired paired [operand]
  · rw [Bindings.apply_append_cons words (by decide), Bindings.apply_append_cons words (by decide), frontKept,
      tailKept, read_eq_ok_iff (parts?_call covered first _ last)]
    exact ⟨named, by rw [Bindings.operandsOf_apply words clean]⟩

/-- A parenthesis that stands within the characters of the keyword, and before the name: the name is behind
the token's first opening parenthesis, and is replaced. -/
theorem read_substituted_within_keyword :
    let token := "CAL(G(a)".toList
    let param := "G".toList
    let arg := "H".toList
    (Signature.read Token.callWord token = .ok ⟨param, ["a".toList]⟩ ∧ '(' ∈ token) ∧ Text.Wordy param ∧
      (arg ≠ [] ∧ ',' ∉ arg ∧ Text.trim arg = arg) ∧
      (Text.occurs param (Text.before '(' token) = false ∧
        Text.occurs param (Text.afterLast ')' token) = false) ∧
      substitute [param] [arg] [token] = .ok ["CAL(H(a)".toList] ∧
      Signature.read Token.callWord "CAL(H(a)".toList = .ok ⟨arg, ["a".toList]⟩ :=
  ⟨⟨rfl, by decide⟩, .of_all (by decide) (by decide), ⟨by decide, by decide, by decide +kernel⟩,
    ⟨by decide +kernel, by decide +kernel⟩, by decide +kernel, rfl⟩

/-- Arguments with parentheses, blanks and the names of parameters, in an operand of its own, inside another
call and inside quotes. -/
theorem read_substituted_call_of_nested :
    let token := "CALL F( n, g(m) ,\"m n\" )".toList
    let params := ["n".toList, "m".toList]
    let args := ["(a) m".toList, "n n".toList]
    Signature.read Token.callWord token = .ok ⟨"F".toList, ["n".toList, "g(m)".toList, "\"m n\"".toList]⟩ ∧
      substitute params args [token] = .ok ["CALL F( (a) m, g(n n) ,\"n n (a) m\" )".toList] ∧
      ∃ changed operands, substitute params args [token] = .ok [changed] ∧
        List.Forall₂ (fun operand put => substitute params args [operand] = .ok [put])
          ["n".toList, "g(m)".toList, "\"m n\"".toList] operands ∧
        operands.length = 3 ∧ Signature.read Token.callWord changed = .ok ⟨"F".toList, operands⟩ := by
  intro token params args
  have read : Signature.read Token.callWord token =
      .ok ⟨"F".toList, ["n".toList, "g(m)".toList, "\"m n\"".toList]⟩ := rfl
  have wordy : ∀ param ∈ params, Text.Wordy param := by
    intro param member
    have chars : ∀ param ∈ params, param ≠ [] ∧ param.all Text.isWord = true := by decide +kernel
    exact .of_all (chars param member).1 (chars param member).2
  exact ⟨read, by decide +kernel, read_substituted_call read (by decide) wordy rfl (by decide +kernel)
    (by decide +kernel)⟩

end Signature

end Lamplighter
