import Lamplighter.Proofs.Operands
import Mathlib.Data.List.SplitBy

/-! # Whole words

A text is cut into pieces: its words, each as long as it can be, and every other character by itself. No
cut but this one has such pieces, so a text is read from the left, one piece at a time. Where parameters are
words, they are replaced piece by piece: a piece that is a parameter gives way to the argument of its first
occurrence among the parameters, and every other piece stays.
-/

namespace Lamplighter

namespace Text

instance (word : Text) : Decidable word.Wordy :=
  decidable_of_iff (word ≠ [] ∧ word.all isWord = true)
    ⟨fun ⟨filled, chars⟩ => ⟨filled, List.all_eq_true.mp chars⟩,
      fun ⟨filled, chars⟩ => ⟨filled, List.all_eq_true.mpr chars⟩⟩

/-- A word, or one character that is no word character. -/
inductive IsPiece : Text → Prop where
  | word {run : Text} (wordy : run.Wordy) : IsPiece run
  | mark {c : Char} (stop : isWord c = false) : IsPiece [c]

/-- Parts that a text is cut into: words and single other characters, and no word is cut. -/
structure CutInto (text : Text) (parts : List Text) : Prop where
  joined : parts.flatten = text
  isPiece : ∀ part ∈ parts, IsPiece part
  uncut : parts.IsChain fun part next => ¬ (part.Wordy ∧ next.Wordy)

/-- The longest words of a text and its other characters, from left to right. -/
def pieces (text : Text) : List Text := text.splitBy fun c d => isWord c && isWord d

section Runs

variable {run back : Text}

theorem Wordy.startsWithWord_append (wordy : run.Wordy) (back : Text) :
    startsWithWord (run ++ back) = true := by
  cases run with
  | nil => exact absurd rfl wordy.ne_nil
  | cons c rest => exact wordy.chars c List.mem_cons_self

theorem not_wordy_of_mark {c : Char} (stop : isWord c = false) (rest : Text) : ¬ Wordy (c :: rest) := by
  intro wordy
  rw [wordy.chars c List.mem_cons_self] at stop
  cases stop

/-- A word character starts a word that is as long as it can be. -/
theorem exists_run {c : Char} (solid : isWord c = true) (rest : Text) :
    ∃ run back : Text, c :: rest = run ++ back ∧ run.Wordy ∧ startsWithWord back = false := by
  have single : Wordy [c] := ⟨List.cons_ne_nil _ _, List.forall_mem_singleton.mpr solid⟩
  induction rest generalizing c with
  | nil => exact ⟨[c], [], rfl, single, rfl⟩
  | cons d rest ih =>
    cases next : isWord d with
    | false => exact ⟨[c], d :: rest, rfl, single, next⟩
    | true =>
      obtain ⟨run, back, split, wordy, stop⟩ :=
        ih next ⟨List.cons_ne_nil _ _, List.forall_mem_singleton.mpr next⟩
      refine ⟨c :: run, back, by rw [split, List.cons_append], ⟨List.cons_ne_nil _ _, ?_⟩, stop⟩
      exact List.forall_mem_cons.mpr ⟨solid, wordy.chars⟩

/-- A text is empty, or starts with a character that is no word character, or with a word that ends there;
what holds in each case if it holds of the rest holds of every text. -/
@[elab_as_elim]
theorem piecewise {motive : Text → Prop} (nil : motive [])
    (mark : ∀ c back, isWord c = false → motive back → motive (c :: back))
    (word : ∀ run back, Wordy run → startsWithWord back = false → motive back → motive (run ++ back))
    (text : Text) : motive text := by
  generalize bound : text.length = length
  induction length using Nat.strongRecOn generalizing text with
  | _ length ih =>
    cases text with
    | nil => exact nil
    | cons c rest =>
      cases solid : isWord c with
      | false => exact mark c rest solid (ih _ (by simp [← bound]) rest rfl)
      | true =>
        obtain ⟨run, back, split, wordy, stop⟩ := exists_run solid rest
        have filled := List.length_pos_iff.mpr wordy.ne_nil
        rw [split] at bound ⊢
        rw [List.length_append] at bound
        exact word run back wordy stop (ih _ (by omega) back rfl)

theorem pieces_mark {c : Char} (stop : isWord c = false) (back : Text) :
    pieces (c :: back) = [c] :: pieces back := by
  have parted := List.splitBy_append (r := fun c d => isWord c && isWord d) (l := [c]) (m := back)
    (by simp [stop])
  exact parted

theorem pieces_word (wordy : run.Wordy) (stop : startsWithWord back = false) :
    pieces (run ++ back) = run :: pieces back := by
  have whole : run.splitBy (fun c d => isWord c && isWord d) = [run] := by
    refine List.splitBy_of_isChain wordy.ne_nil (List.Pairwise.isChain ?_)
    refine List.pairwise_of_forall_mem_list fun c first d second => ?_
    rw [wordy.chars c first, wordy.chars d second]
    rfl
  have parted : pieces (run ++ back) = run.splitBy (fun c d => isWord c && isWord d) ++ pieces back := by
    refine List.splitBy_append fun c _ d first => ?_
    obtain ⟨rest, rfl⟩ := List.head?_eq_some_iff.mp first
    rw [show isWord d = false from stop, Bool.and_false]
  rw [parted, whole, List.singleton_append]

theorem cutInto_pieces (text : Text) : CutInto text (pieces text) := by
  induction text using piecewise with
  | nil => exact ⟨rfl, nofun, .nil⟩
  | mark c back stop ih =>
    rw [pieces_mark stop]
    refine ⟨by rw [List.flatten_cons, ih.joined, List.singleton_append], ?_, ?_⟩
    · exact List.forall_mem_cons.mpr ⟨.mark stop, ih.isPiece⟩
    · exact List.isChain_cons.mpr ⟨fun _ _ both => not_wordy_of_mark stop [] both.1, ih.uncut⟩
  | word run back wordy stop ih =>
    rw [pieces_word wordy stop]
    refine ⟨by rw [List.flatten_cons, ih.joined], ?_, ?_⟩
    · exact List.forall_mem_cons.mpr ⟨.word wordy, ih.isPiece⟩
    · refine List.isChain_cons.mpr ⟨fun next first both => ?_, ih.uncut⟩
      obtain ⟨others, cut⟩ := List.head?_eq_some_iff.mp first
      have starts := both.2.startsWithWord_append others.flatten
      rw [← List.flatten_cons, ← cut, ih.joined, stop] at starts
      cases starts

theorem CutInto.tail {text part : Text} {parts : List Text} (cut : CutInto text (part :: parts)) :
    CutInto parts.flatten parts :=
  ⟨rfl, fun other member => cut.isPiece other (List.mem_cons_of_mem part member), cut.uncut.tail⟩

/-- Behind a word the text goes on with another character. -/
theorem CutInto.startsWithWord_tail {text part : Text} {parts : List Text}
    (cut : CutInto text (part :: parts)) (wordy : part.Wordy) : startsWithWord parts.flatten = false := by
  cases parts with
  | nil => rfl
  | cons next parts =>
    cases cut.tail.isPiece next List.mem_cons_self with
    | word also => exact absurd ⟨wordy, also⟩ (List.isChain_cons_cons.mp cut.uncut).1
    | mark stop => exact stop

/-- There is one way to cut a text. -/
theorem cutInto_iff {text : Text} {parts : List Text} : CutInto text parts ↔ parts = pieces text := by
  constructor
  · intro cut
    induction parts generalizing text with
    | nil =>
      obtain rfl := cut.joined
      rfl
    | cons part parts ih =>
      have later := ih cut.tail
      rw [← cut.joined, List.flatten_cons]
      cases cut.isPiece part List.mem_cons_self with
      | word wordy => rw [pieces_word wordy (cut.startsWithWord_tail wordy), ← later]
      | mark stop => rw [List.singleton_append, pieces_mark stop, ← later]
  · rintro rfl
    exact cutInto_pieces text

/-- A word stands at the start of another one as a whole word only if the two are the same. -/
theorem Wordy.stands_eq (wordy : run.Wordy) (word : Text) : stands word false run = (word == run) := by
  cases fits : word.isPrefixOf run with
  | false =>
    have differs : word ≠ run := by
      rintro rfl
      rw [List.isPrefixOf_iff_prefix.mpr List.prefix_rfl] at fits
      cases fits
    simp [stands, fits, differs]
  | true =>
    obtain ⟨tail, rfl⟩ := List.isPrefixOf_iff_prefix.mp fits
    cases tail with
    | nil => simp [stands, startsWithWord]
    | cons c tail =>
      have solid := wordy.chars c (List.mem_append_right _ List.mem_cons_self)
      simp [stands, startsWithWord, solid]

/-- A word occurs in another one as a whole word only if the two are the same. -/
theorem Wordy.occurs_eq (wordy : run.Wordy) (word : Text) : occurs word run = (word == run) := by
  have inside {text : Text} (solid : ∀ c ∈ text, isWord c = true) : occursFrom word true text = false := by
    induction text with
    | nil => rfl
    | cons c rest ih =>
      obtain ⟨first, later⟩ := List.forall_mem_cons.mp solid
      rw [occursFrom, first, ih later]
      rfl
  have starts := wordy.stands_eq word
  obtain ⟨filled, chars⟩ := wordy
  cases run with
  | nil => exact absurd rfl filled
  | cons c rest =>
    obtain ⟨first, later⟩ := List.forall_mem_cons.mp chars
    rw [occurs, occursFrom, starts, first, inside later, Bool.or_false]

section Occurrences

variable {word : Text} (wordy : word.Wordy)

include wordy

theorem occurs_mark {c : Char} (stop : isWord c = false) (back : Text) :
    occurs word (c :: back) = occurs word back := by
  have parted := occursFrom_append_cons wordy stop false [] back
  rwa [List.nil_append, occursFrom, Bool.false_or] at parted

/-- A word occurs before the end of another word or behind it. -/
theorem occurs_append (stop : startsWithWord back = false) (front : Text) :
    occurs word (front ++ back) = (occurs word front || occurs word back) := by
  cases back with
  | nil => rw [List.append_nil, show occurs word [] = false from rfl, Bool.or_false]
  | cons c rest =>
    rw [occurs_mark wordy stop]
    exact occursFrom_append_cons wordy stop false front rest

/-- A word occurs in a text if it is one of its pieces. -/
theorem occurs_iff_mem_pieces (text : Text) : occurs word text = true ↔ word ∈ pieces text := by
  induction text using piecewise with
  | nil => exact ⟨nofun, nofun⟩
  | mark c back stop ih =>
    have differs : word ≠ [c] := by
      rintro rfl
      exact not_wordy_of_mark stop [] wordy
    rw [occurs_mark wordy stop, ih, pieces_mark stop, List.mem_cons, or_iff_right differs]
  | word run back solid stop ih =>
    rw [occurs_append wordy stop, solid.occurs_eq, Bool.or_eq_true, beq_iff_eq, ih, pieces_word solid stop,
      List.mem_cons]

end Occurrences

end Runs

/-- A piece with its argument put in if it is a parameter: the argument at the place where the parameter
stands first. -/
def exchange (params args : List Text) (piece : Text) : Text :=
  if params.contains piece then args.getD (params.idxOf piece) [] else piece

section Exchange

variable {params : List Text} {piece : Text}

theorem exchange_of_mem (member : piece ∈ params) (args : List Text) :
    exchange params args piece = args.getD (params.idxOf piece) [] :=
  if_pos (List.contains_iff_mem.mpr member)

theorem exchange_of_absent (absent : piece ∉ params) (args : List Text) : exchange params args piece = piece :=
  if_neg (mt List.contains_iff_mem.mp absent)

end Exchange

end Text

namespace Bindings

section Words

variable {bindings : Bindings} (wordy : bindings.Wordy)

include wordy

theorem apply_mark {c : Char} (stop : Text.isWord c = false) (back : Text) :
    bindings.apply (c :: back) = c :: bindings.apply back := by
  have parted := apply_append_cons wordy stop [] back
  rwa [List.nil_append, apply_empty wordy, List.nil_append] at parted

/-- Parameters are replaced before the end of a word and behind it. -/
theorem apply_append {back : Text} (stop : Text.startsWithWord back = false) (front : Text) :
    bindings.apply (front ++ back) = bindings.apply front ++ bindings.apply back := by
  cases back with
  | nil => rw [apply_empty wordy, List.append_nil, List.append_nil]
  | cons c back => rw [apply_append_cons wordy stop, apply_mark wordy stop]

theorem applyFrom_skipped (before : Bool) (text : Text) : bindings.applyFrom text.length before text = [] := by
  induction text generalizing before with
  | nil => exact insertion_of_wordy wordy before []
  | cons c rest ih => exact ih (Text.isWord c)

/-- A word is replaced as a whole or stays. -/
theorem apply_word {run : Text} (solid : run.Wordy) :
    bindings.apply run = ((bindings.find? fun binding => binding.1 == run).map Prod.snd).getD run := by
  cases found : bindings.find? fun binding => binding.1 == run with
  | none =>
    rw [List.find?_eq_none] at found
    apply apply_of_absent wordy
    intro binding member
    rw [solid.occurs_eq, Bool.eq_false_iff]
    exact found binding member
  | some binding =>
    have same : bindings.word? false run = some binding := by
      rw [word?_eq_stands wordy, ← found]
      exact List.find?_congr fun other _ => solid.stands_eq other.1
    obtain ⟨param, arg⟩ := binding
    obtain rfl : param = run := by simpa using List.find?_some found
    cases param with
    | nil => exact absurd rfl solid.ne_nil
    | cons c rest =>
      rw [apply, applyFrom, insertion_of_wordy wordy, same]
      simp [applyFrom_skipped wordy]

end Words

/-- The argument that is found for a piece is the one at the place where the piece stands first. -/
theorem getD_find?_zip {params args : List Text} (paired : args.length = params.length) (piece : Text) :
    (((params.zip args).find? fun binding => binding.1 == piece).map Prod.snd).getD piece =
      Text.exchange params args piece := by
  unfold Text.exchange
  induction params generalizing args with
  | nil => rfl
  | cons param params ih =>
    cases args with
    | nil => cases paired
    | cons arg args =>
      rw [List.zip_cons_cons, List.find?_cons]
      by_cases same : param = piece
      · simp [same]
      · rw [beq_eq_false_iff_ne.mpr same]
        simpa [Ne.symm same, List.idxOf_cons_ne _ same] using ih (Nat.succ.inj paired)

/-- Parameters that are words are replaced piece by piece. -/
theorem apply_eq_flatten {params args : List Text} (wordy : ∀ param ∈ params, param.Wordy)
    (paired : args.length = params.length) (text : Text) :
    apply (params.zip args) text = ((Text.pieces text).map (Text.exchange params args)).flatten := by
  have words : Wordy (params.zip args) := fun binding member => wordy _ (List.of_mem_zip member).1
  induction text using Text.piecewise with
  | nil => exact apply_empty words
  | mark c back stop ih =>
    have kept : Text.exchange params args [c] = [c] :=
      Text.exchange_of_absent (fun member => Text.not_wordy_of_mark stop [] (wordy _ member)) args
    rw [apply_mark words stop, ih, Text.pieces_mark stop, List.map_cons, List.flatten_cons, kept,
      List.singleton_append]
  | word run back solid stop ih =>
    rw [apply_append words stop, apply_word words solid, getD_find?_zip paired, ih,
      Text.pieces_word solid stop, List.map_cons, List.flatten_cons]

end Bindings

/-- Where the parameters are words, with repetition allowed, putting in as many arguments replaces whole words
and nothing else, all at once: of the only way to cut a token into its longest words and single other
characters, each part that is a parameter gives way to the argument at the place where that parameter stands
first, as it is, and every other part stays. -/
theorem substitute_exchanges_words {params args : List Text} (wordy : ∀ param ∈ params, param.Wordy)
    (paired : args.length = params.length) (body : List Token) :
    (∀ token parts, Text.CutInto token parts ↔ parts = Text.pieces token) ∧
      substitute params args body =
        .ok (body.map fun token => ((Text.pieces token).map (Text.exchange params args)).flatten) := by
  refine ⟨fun _ _ => Text.cutInto_iff, ?_⟩
  rw [substitute_of_paired paired, funext (Bindings.apply_eq_flatten wordy paired)]

/-- A parameter that starts another one, a parameter that stands twice, and words that only hold a parameter,
one of them with a numeral that is no digit; the arguments are spelled like parameters. -/
theorem substitute_exchanges_words_of_overlapping :
    let params := ["n".toList, "nm".toList, "n".toList]
    let args := ["nm +".toList, "n".toList, "z".toList]
    let token := "CALL nm(n-mn, n²)".toList
    let parts := ["CALL".toList, " ".toList, "nm".toList, "(".toList, "n".toList, "-".toList, "mn".toList,
      ",".toList, " ".toList, "n²".toList, ")".toList]
    Text.CutInto token parts ∧
      substitute params args [token] = .ok [(parts.map (Text.exchange params args)).flatten] ∧
      (parts.map (Text.exchange params args)).flatten = "CALL n(nm +-mn, n²)".toList := by
  intro params args token parts
  have wordy : ∀ param ∈ params, Text.Wordy param := by decide +kernel
  have cut : parts = Text.pieces token := by decide +kernel
  obtain ⟨only, replaced⟩ := @substitute_exchanges_words params args wordy rfl [token]
  refine ⟨(only token parts).mpr cut, ?_, by decide +kernel⟩
  rw [replaced, cut]
  rfl

end Lamplighter
