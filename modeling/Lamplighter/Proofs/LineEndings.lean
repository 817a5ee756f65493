import Lamplighter.Proofs.Encoding
import Lamplighter.Proofs.Pieces
import Mathlib.Data.List.DropRight

/-! # Lines and what ends them

A line may end in eleven ways. A program reads the same whichever of them stands behind each of its lines:
a carriage return and the line feed of an empty line behind it are taken for one ending, so that the number
of empty lines may change, but an empty line is no instruction. The rows of a map count, blank ones too, so
a map has to end all its lines alike; only the blank lines behind its last row are dropped.
-/

namespace Lamplighter.Text

def terminators : List Text :=
  [['\n'], ['\r'], ['\r', '\n'], ['\x0b'], ['\x0c'], ['\x1c'], ['\x1d'], ['\x1e'], ['\u0085'],
    ['\u2028'], ['\u2029']]

/-- A line has no character of those that end one. -/
def Unbroken (line : Text) : Prop := ∀ terminator ∈ terminators, ∀ c ∈ terminator, c ∉ line

/-- Lines with what stands behind each of them: a terminator, or nothing behind the last one. -/
inductive Ended : List (Text × Text) → Prop
  | nil : Ended []
  | last {line : Text} (unbroken : line.Unbroken) : Ended [(line, [])]
  | cons {line stop : Text} {rest : List (Text × Text)} (unbroken : line.Unbroken)
      (listed : stop ∈ terminators) (ended : Ended rest) : Ended ((line, stop) :: rest)

/-- The text of lines with what stands behind them. -/
def written (lines : List (Text × Text)) : Text := lines.flatMap fun line => line.1 ++ line.2

theorem isLineBreak_iff {c : Char} :
    isLineBreak c = true ↔ ∃ terminator ∈ terminators, c ∈ terminator := by
  have ranged : isLineBreak c = true ↔ 0x0a ≤ c.toNat ∧ c.toNat ≤ 0x0d ∨ 0x1c ≤ c.toNat ∧ c.toNat ≤ 0x1e ∨
      0x85 ≤ c.toNat ∧ c.toNat ≤ 0x85 ∨ 0x2028 ≤ c.toNat ∧ c.toNat ≤ 0x2029 := by
    simp [isLineBreak, inRanges]
  rw [ranged]
  simp only [terminators, List.mem_cons, List.not_mem_nil, or_false, exists_eq_or_imp, exists_eq_left,
    ← Char.toNat_inj, Char.reduceToNat]
  omega

theorem Unbroken.isLineBreak {line : Text} (unbroken : line.Unbroken) :
    ∀ c ∈ line, isLineBreak c = false := by
  intro c member
  rw [Bool.eq_false_iff]
  intro breaks
  obtain ⟨terminator, listed, inside⟩ := isLineBreak_iff.mp breaks
  exact unbroken terminator listed c inside member

theorem unbroken_iff {line : Text} : line.Unbroken ↔ line.any isLineBreak = false := by
  rw [List.any_eq_false]
  constructor
  · exact fun unbroken c member => Bool.eq_false_iff.mp (unbroken.isLineBreak c member)
  · intro clear terminator listed c inside member
    exact clear c member (isLineBreak_iff.mpr ⟨terminator, listed, inside⟩)

instance (line : Text) : Decidable line.Unbroken := decidable_of_iff _ unbroken_iff.symm

theorem Unbroken.not_mem {line : Text} (unbroken : line.Unbroken) {c : Char}
    (breaks : Text.isLineBreak c = true) : c ∉ line := by
  intro member
  rw [unbroken.isLineBreak c member] at breaks
  cases breaks

/-! ## Line breaks made alike -/

theorem unifyNewlines_cons {c : Char} (other : c ≠ '\r') (rest : Text) :
    unifyNewlines (c :: rest) = c :: unifyNewlines rest := by
  rw [unifyNewlines]
  · exact fun _ same _ => other same
  · exact other

theorem unifyNewlines_append {front : Text} (clear : '\r' ∉ front) (back : Text) :
    unifyNewlines (front ++ back) = front ++ unifyNewlines back := by
  induction front with
  | nil => rfl
  | cons c rest ih =>
    obtain ⟨other, later⟩ := not_or.mp (mt List.mem_cons.mpr clear)
    rw [List.cons_append, unifyNewlines_cons (Ne.symm other), ih later, List.cons_append]

theorem unifyNewlines_of_clear {text : Text} (clear : '\r' ∉ text) : unifyNewlines text = text := by
  have same := unifyNewlines_append clear []
  rwa [List.append_nil, unifyNewlines, List.append_nil] at same

theorem unifyNewlines_return {rest : Text} (other : rest.head? ≠ some '\n') :
    unifyNewlines ('\r' :: rest) = '\n' :: unifyNewlines rest := by
  rw [unifyNewlines]
  rintro back rfl
  exact other rfl

/-- A terminator is made one line break, unless it is a return with a line feed somewhere behind it. -/
theorem exists_unifyNewlines_stop {stop : Text} (listed : stop ∈ terminators) {back : Text}
    (alone : stop = ['\r'] → '\n' ∉ back) :
    ∃ c, isLineBreak c = true ∧ unifyNewlines (stop ++ back) = c :: unifyNewlines back := by
  by_cases bare : stop = ['\r']
  · refine ⟨'\n', rfl, ?_⟩
    rw [bare, List.singleton_append, unifyNewlines_return]
    intro feed
    exact alone bare (List.mem_of_mem_head? feed)
  · by_cases both : stop = ['\r', '\n']
    · rw [both]
      exact ⟨'\n', rfl, rfl⟩
    · have others : ∀ stop ∈ terminators, stop ≠ ['\r'] → stop ≠ ['\r', '\n'] →
          stop.length = 1 ∧ '\r' ∉ stop := by decide
      obtain ⟨single, clear⟩ := others stop listed bare both
      obtain ⟨c, rfl⟩ := List.length_eq_one_iff.mp single
      have breaks := isLineBreak_iff.mpr ⟨[c], listed, List.mem_singleton_self c⟩
      exact ⟨c, breaks, unifyNewlines_append clear back⟩

/-! ## Pieces and lines -/

/-- A break at the end of a text opens no further line. -/
theorem splitWhere_cases (text : Text) :
    splitWhere isLineBreak text = lines text ∨ splitWhere isLineBreak text = lines text ++ [[]] := by
  unfold lines
  dsimp only
  split_ifs with closed
  · obtain ⟨front, parted⟩ := List.getLast?_eq_some_iff.mp closed
    refine .inr ?_
    rw [parted, List.dropLast_concat]
  · exact .inl rfl

theorem not_mem_join {c : Char} {stop : Text} {lines : List Text} (outside : ∀ line ∈ lines, c ∉ line)
    (other : c ∉ stop) : c ∉ join stop lines := by
  induction lines with
  | nil => exact List.not_mem_nil
  | cons line rest ih =>
    have first := outside line List.mem_cons_self
    cases rest with
    | nil => rwa [join, List.intercalate_singleton]
    | cons next rest =>
      have later := ih fun another member => outside another (List.mem_cons_of_mem line member)
      rw [join, List.intercalate_cons_cons, List.mem_append, List.mem_append]
      exact not_or.mpr ⟨not_or.mpr ⟨first, other⟩, later⟩

section Uniform

variable {stop : Text} (listed : stop ∈ terminators)

include listed

theorem splitWhere_unifyNewlines_stop {line back : Text} (unbroken : line.Unbroken)
    (alone : stop = ['\r'] → '\n' ∉ back) :
    splitWhere isLineBreak (unifyNewlines (line ++ (stop ++ back))) =
      line :: splitWhere isLineBreak (unifyNewlines back) := by
  obtain ⟨c, breaks, unified⟩ := exists_unifyNewlines_stop listed alone
  rw [unifyNewlines_append (unbroken.not_mem (by decide)), unified, splitWhere_append_cons breaks,
    splitWhere_of_uncut unbroken.isLineBreak, List.singleton_append]

/-- Lines that all end alike are the pieces of their text, with an empty piece behind them if the last one
has an ending too. -/
theorem splitWhere_unifyNewlines_join {lines : List Text} (filled : lines ≠ [])
    (unbroken : ∀ line ∈ lines, Unbroken line) {tail : Text} (closing : tail = stop ∨ tail = []) :
    ∃ rest, splitWhere isLineBreak (unifyNewlines (join stop lines ++ tail)) = lines ++ rest ∧
      ∀ line ∈ rest, line = [] := by
  induction lines with
  | nil => exact absurd rfl filled
  | cons line rest ih =>
    have first := unbroken line List.mem_cons_self
    have later : ∀ other ∈ rest, Unbroken other :=
      fun other member => unbroken other (List.mem_cons_of_mem line member)
    cases rest with
    | nil =>
      rw [join, List.intercalate_singleton]
      rcases closing with rfl | rfl
      · have cut := splitWhere_unifyNewlines_stop listed first fun _ => List.not_mem_nil
        rw [List.append_nil] at cut
        exact ⟨[[]], cut, by simp⟩
      · refine ⟨[], ?_, by simp⟩
        rw [List.append_nil, unifyNewlines_of_clear (first.not_mem (by decide)),
          splitWhere_of_uncut first.isLineBreak, List.append_nil]
    | cons next rest =>
      -- Where returns end the lines, no line feed is left to go with one of them.
      have alone : stop = ['\r'] → '\n' ∉ join stop (next :: rest) ++ tail := by
        rintro rfl feed
        rcases List.mem_append.mp feed with inside | behind
        · exact not_mem_join (fun other member => (later other member).not_mem (by decide))
            (by decide) inside
        · rcases closing with rfl | rfl <;> exact absurd behind (by decide)
      obtain ⟨pieces, split, empty⟩ := ih (List.cons_ne_nil _ _) later
      refine ⟨pieces, ?_, empty⟩
      rw [join, List.intercalate_cons_cons, List.append_assoc, List.append_assoc, ← join,
        splitWhere_unifyNewlines_stop listed first alone, split, List.cons_append]
      rfl

end Uniform

/-- Nothing is left of a line without the blanks around it exactly if it is blank. -/
theorem isEmpty_trim (line : Text) : (trim line).isEmpty = line.all isBlank := by
  by_cases solid : ∃ c ∈ line, isBlank c = false
  · obtain ⟨c, member, other⟩ := solid
    have mixed : line.all isBlank = false := List.all_eq_false.mpr ⟨c, member, by simp [other]⟩
    obtain ⟨front, back, rfl⟩ := List.append_of_mem member
    rw [mixed, trim_append_cons other]
    simp
  · have blank : ∀ c ∈ line, isBlank c = true := by simpa using solid
    rw [List.all_eq_true.mpr blank, trim, trimWhere, List.dropWhile_eq_nil_iff.mpr blank]
    rfl

end Lamplighter.Text

namespace Lamplighter.CommandLine

open Text

/-! ## Programs -/

theorem isInstruction_eq (line : Text) :
    isInstruction line = decide (line ≠ [] ∧ line.head? ≠ some '#') := by
  cases line <;> simp [isInstruction, bne, beq_eq_decide]

theorem instructions_append (lines others : List Text) :
    instructions (lines ++ others) = instructions lines ++ instructions others := by
  rw [instructions, List.map_append, List.filter_append]
  rfl

theorem instructions_empty : instructions [[]] = [] := rfl

/-- The instructions among the pieces between the line breaks of a text. -/
def instructionsIn (text : Text) : List Text := instructions (splitWhere isLineBreak text)

theorem instructions_lines (text : Text) : instructions (lines text) = instructionsIn text := by
  rcases splitWhere_cases text with same | opened
  · rw [instructionsIn, same]
  · rw [instructionsIn, opened, instructions_append, instructions_empty, List.append_nil]

theorem instructionsIn_append_cons {c : Char} (breaks : isLineBreak c = true) (front back : Text) :
    instructionsIn (front ++ c :: back) = instructionsIn front ++ instructionsIn back := by
  rw [instructionsIn, splitWhere_append_cons breaks, instructions_append]
  rfl

theorem instructionsIn_cons {c : Char} (breaks : isLineBreak c = true) (back : Text) :
    instructionsIn (c :: back) = instructionsIn back := instructionsIn_append_cons breaks [] back

theorem instructionsIn_of_unbroken {line : Text} (unbroken : line.Unbroken) :
    instructionsIn line = instructions [line] := by
  rw [instructionsIn, splitWhere_of_uncut unbroken.isLineBreak]

/-- Making the line breaks of a text alike takes away empty lines only. -/
theorem instructionsIn_unifyNewlines (text : Text) :
    instructionsIn (unifyNewlines text) = instructionsIn text := by
  induction text using separated '\r' with
  | whole text clear => rw [unifyNewlines_of_clear clear]
  | cut front back clear ih =>
    rw [unifyNewlines_append clear, instructionsIn_append_cons (by decide), ← ih]
    by_cases feed : back.head? = some '\n'
    · -- The line feed goes with the return, so the empty line between them is gone.
      obtain ⟨rest, rfl⟩ := List.head?_eq_some_iff.mp feed
      rw [unifyNewlines, instructionsIn_append_cons (by decide), unifyNewlines_cons (by decide),
        instructionsIn_cons (by decide)]
    · rw [unifyNewlines_return feed, instructionsIn_append_cons (by decide)]

theorem instructionsIn_breaks_append {stop : Text} (breaks : ∀ c ∈ stop, isLineBreak c = true)
    (back : Text) : instructionsIn (stop ++ back) = instructionsIn back := by
  induction stop with
  | nil => rfl
  | cons c rest ih =>
    rw [List.cons_append, instructionsIn_cons (breaks c List.mem_cons_self)]
    exact ih fun d member => breaks d (List.mem_cons_of_mem c member)

theorem instructionsIn_append_stop {stop : Text} (listed : stop ∈ terminators) (front back : Text) :
    instructionsIn (front ++ (stop ++ back)) = instructionsIn front ++ instructionsIn back := by
  have breaks : ∀ c ∈ stop, isLineBreak c = true :=
    fun c member => isLineBreak_iff.mpr ⟨stop, listed, member⟩
  cases stop with
  | nil => exact absurd listed (by decide)
  | cons c rest =>
    rw [List.cons_append, instructionsIn_append_cons (breaks c List.mem_cons_self),
      instructionsIn_breaks_append fun d member => breaks d (List.mem_cons_of_mem c member)]

theorem instructionsIn_written {lines : List (Text × Text)} (ended : Ended lines) :
    instructionsIn (written lines) = instructions (lines.map Prod.fst) := by
  induction ended with
  | nil => rfl
  | last unbroken =>
    rw [written, List.flatMap_singleton, List.append_nil, instructionsIn_of_unbroken unbroken]
    rfl
  | @cons line stop rest unbroken listed _ ih =>
    rw [written, List.flatMap_cons, ← written, List.append_assoc, instructionsIn_append_stop listed, ih,
      instructionsIn_of_unbroken unbroken, ← instructions_append]
    rfl

/-- A program has the instructions of its lines, whatever ends each of them: all that are neither empty nor
a comment without the blanks around them, in their order. -/
theorem program_of_written {files : Files} {path : Path} {lines : List (Text × Text)}
    (ended : Ended lines) (stored : Stores files path (written lines)) :
    (readLines files path).map instructions =
      .ok (((lines.map Prod.fst).map trim).filter fun line => line ≠ [] ∧ line.head? ≠ some '#') := by
  rw [stored.holds.readLines, Except.map, instructions_lines, instructionsIn_unifyNewlines,
    instructionsIn_written ended, instructions, funext isInstruction_eq]

/-- Lines with many endings; the return behind the first one and the feed behind the second are read as
one. -/
private def mixedLines : List (Text × Text) :=
  [("LEFT\t".toList, ['\r']), ([], ['\n']), ("\x1f LIGHT".toList, ['\u2028']), ("  # LEFT".toList, ['\x0b']),
    (" ".toList, ['\r', '\n']), ("RIGHT#".toList, [])]

theorem program_of_written_of_mixed :
    Ended mixedLines ∧ written mixedLines = "LEFT\t\r\n\x1f LIGHT\u2028  # LEFT\x0b \r\nRIGHT#".toList ∧
      (readLines (fun _ => .ok (Utf8.encode (written mixedLines))) (.ofText [])).map instructions =
        .ok ["LEFT".toList, "LIGHT".toList, "RIGHT#".toList] := by
  have ended : Ended mixedLines :=
    .cons (by decide) (by decide) <| .cons (by decide) (by decide) <| .cons (by decide) (by decide) <|
      .cons (by decide) (by decide) <| .cons (by decide) (by decide) <| .last (by decide)
  exact ⟨ended, by decide, program_of_written ended rfl⟩

/-! ## Maps -/

theorem mapRows_eq (lines : List Text) :
    mapRows lines = lines.rdropWhile fun line => (trim line).isEmpty := rfl

theorem mapRows_append {blanks : List Text} (blank : ∀ line ∈ blanks, ∀ c ∈ line, isBlank c = true)
    (rows : List Text) : mapRows (rows ++ blanks) = mapRows rows := by
  induction blanks using List.reverseRecOn with
  | nil => rw [List.append_nil]
  | append_singleton front line ih =>
    have empty : (trim line).isEmpty = true := by
      rw [isEmpty_trim, List.all_eq_true]
      exact blank line List.mem_concat_self
    rw [← List.append_assoc, mapRows_eq,
      List.rdropWhile_concat_pos (fun line => (trim line).isEmpty) _ _ empty]
    exact ih fun other member => blank other (List.mem_append_left _ member)

theorem mapRows_of_solid {rows : List Text} (filled : rows ≠ [])
    (solid : ∃ c ∈ rows.getLast filled, isBlank c = false) : mapRows rows = rows := by
  rw [mapRows_eq, List.rdropWhile_eq_self_iff]
  intro _ empty
  rw [isEmpty_trim, List.all_eq_true] at empty
  obtain ⟨c, member, other⟩ := solid
  rw [empty c member] at other
  cases other

theorem mapRows_lines (text : Text) : mapRows (lines text) = mapRows (splitWhere isLineBreak text) := by
  rcases splitWhere_cases text with same | opened
  · rw [same]
  · rw [opened, mapRows_append (by simp)]

/-- A map whose lines all end alike, the last one possibly not at all, has its rows as they are: blank ones
before the last row stay, and blank lines behind it are dropped. -/
theorem map_of_uniform {files : Files} {path : Path} {rows blanks : List Text} {stop tail : Text}
    (filled : rows ≠ []) (unbroken : ∀ line ∈ rows ++ blanks, Unbroken line)
    (solid : ∃ c ∈ rows.getLast filled, isBlank c = false)
    (blank : ∀ line ∈ blanks, ∀ c ∈ line, isBlank c = true) (listed : stop ∈ terminators)
    (closing : tail = stop ∨ tail = []) (stored : Stores files path (join stop (rows ++ blanks) ++ tail)) :
    (readLines files path).map mapRows = .ok rows := by
  have more : rows ++ blanks ≠ [] := List.append_ne_nil_of_left_ne_nil filled blanks
  obtain ⟨rest, split, empty⟩ := splitWhere_unifyNewlines_join listed more unbroken closing
  have dropped : ∀ line ∈ rest, ∀ c ∈ line, isBlank c = true := by
    intro line member c inside
    rw [empty line member] at inside
    cases inside
  rw [stored.holds.readLines, Except.map, mapRows_lines, split, mapRows_append dropped,
    mapRows_append blank, mapRows_of_solid filled solid]

/-- Rows with blanks at their ends and an empty row among them, and two blank lines behind them. -/
private def paddedRows : List Text × List Text :=
  ([" R.".toList, [], ".\t\x1f".toList], ["\x1f".toList, " ".toList])

theorem map_of_uniform_of_returns :
    join ['\r'] (paddedRows.1 ++ paddedRows.2) = " R.\r\r.\t\x1f\r\x1f\r ".toList ∧
      (readLines (fun _ => .ok (Utf8.encode (join ['\r'] (paddedRows.1 ++ paddedRows.2) ++ [])))
        (.ofText [])).map mapRows = .ok [" R.".toList, [], ".\t\x1f".toList] := by
  have blank : ∀ line ∈ paddedRows.2, line.all isBlank = true := by decide
  exact ⟨by decide, map_of_uniform (by decide) (by decide) ⟨'.', by decide, by decide⟩
    (fun line listed => List.all_eq_true.mp (blank line listed)) (by decide) (.inr rfl) rfl⟩

end Lamplighter.CommandLine
