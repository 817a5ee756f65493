import Lamplighter.Proofs.Operands

/-! # Parameters that stand for themselves

A scan for parameters takes every character of a text once: a parameter that fits is put in for just the
characters that it is spelled with, and the empty one, which may fit once more at the same place, for none.
So where each parameter is bound to itself the text comes out as it went in, whatever the parameters are and
wherever they fit: they may be empty, stand twice, start one another or hold no word character. A single
parameter that is bound to anything else changes a text, since there is one that it fits in.
-/

namespace Lamplighter

namespace Bindings

/-- Every parameter is bound to itself. -/
def Fixed (bindings : Bindings) : Prop := ∀ binding ∈ bindings, binding.2 = binding.1

theorem fixed_zip_self (params : List Text) : Fixed (params.zip params) := by
  induction params with
  | nil => exact nofun
  | cons param params ih =>
    rw [List.zip_cons_cons]
    exact List.forall_mem_cons.mpr ⟨rfl, ih⟩

variable {bindings : Bindings}

/-- A parameter that is found has a character, and the text starts with it. -/
theorem eq_append_of_word? {before : Bool} {text : Text} {binding : Text × Text}
    (found : bindings.word? before text = some binding) :
    binding.1 ≠ [] ∧ text = binding.1 ++ text.drop binding.1.length := by
  have fits := List.find?_some found
  simp only [Bindings.fits, Bool.and_eq_true, Bool.not_eq_true', List.isEmpty_eq_false_iff] at fits
  obtain ⟨filled, ⟨_, stands⟩, _⟩ := fits
  obtain ⟨tail, rfl⟩ := List.isPrefixOf_iff_prefix.mp stands
  exact ⟨filled, by rw [List.drop_left]⟩

namespace Fixed

/-- The empty parameter puts in nothing. -/
theorem insertion_eq (fixed : bindings.Fixed) (before : Bool) (text : Text) :
    bindings.insertion before text = [] :=
  insertion_eq_nil (fun _ member => fixed _ member) before text

/-- What is left of a text behind the characters that are already replaced stays as it is. -/
theorem applyFrom_eq_drop (fixed : bindings.Fixed) (skip : Nat) (before : Bool) (text : Text) :
    bindings.applyFrom skip before text = text.drop skip := by
  induction text generalizing skip before with
  | nil => rw [applyFrom, fixed.insertion_eq, List.drop_nil]
  | cons c rest ih =>
    cases skip with
    | succ skip => rw [applyFrom, ih, List.drop_succ_cons]
    | zero =>
      rw [applyFrom, fixed.insertion_eq, List.nil_append, List.drop_zero]
      cases found : bindings.word? before (c :: rest) with
      | none => exact congrArg (c :: ·) (ih 0 (Text.isWord c))
      | some binding =>
        obtain ⟨filled, split⟩ := eq_append_of_word? found
        have own := fixed binding (List.mem_of_find?_eq_some found)
        -- The parameter covers `c` and the characters of the rest that are skipped next.
        obtain ⟨length, longer⟩ := Nat.exists_eq_succ_of_ne_zero (mt List.length_eq_zero_iff.mp filled)
        calc binding.2 ++ bindings.applyFrom (binding.1.length - 1) (Text.isWord c) rest
            = binding.1 ++ rest.drop (binding.1.length - 1) := by rw [own, ih]
          _ = binding.1 ++ (c :: rest).drop binding.1.length := by
              rw [longer, Nat.succ_eq_add_one, Nat.add_sub_cancel, List.drop_succ_cons]
          _ = c :: rest := split.symm

theorem apply_eq (fixed : bindings.Fixed) (text : Text) : bindings.apply text = text :=
  fixed.applyFrom_eq_drop 0 false text

end Fixed

/-- The scan goes on behind the characters that are already replaced. -/
theorem applyFrom_length_append (before : Bool) (front back : Text) :
    bindings.applyFrom front.length before (front ++ back) =
      bindings.applyFrom 0 (Text.endsWithWord before front) back := by
  induction front generalizing before with
  | nil => rfl
  | cons c rest ih => exact ih (Text.isWord c)

/-- A letter where a word boundary is missing at an end of a text. -/
def margin (solid : Bool) : Text := if solid then [] else ['x']

@[simp] theorem startsWithWord_margin (solid : Bool) : Text.startsWithWord (margin solid) = !solid := by
  cases solid <;> rfl

section Single

variable {param : Text} (filled : param ≠ []) (arg : Text)

include filled

private theorem insertion_single (before : Bool) (text : Text) : insertion [(param, arg)] before text = [] := by
  apply insertion_eq_nil
  intro other member
  exact absurd (congrArg Prod.fst (List.mem_singleton.mp member)).symm filled

/-- A parameter with a margin behind it fits where no word boundary is missing before it. -/
private theorem applyFrom_param :
    applyFrom [(param, arg)] 0 (!Text.startsWithWord param) (param ++ margin (Text.endsWithWord false param)) =
      arg ++ applyFrom [(param, arg)] 0 (Text.endsWithWord false param)
        (margin (Text.endsWithWord false param)) := by
  cases param with
  | nil => exact absurd rfl filled
  | cons c rest =>
    have fits : fits (!Text.isWord c) (c :: rest ++ margin (Text.endsWithWord false (c :: rest))) (c :: rest) =
        true := by
      have stands (back : Text) : (c :: rest).isPrefixOf (c :: rest ++ back) = true :=
        List.isPrefixOf_iff_prefix.mpr (List.prefix_append _ _)
      rw [Bindings.fits, stands, List.drop_left, startsWithWord_margin]
      simp [Text.startsWithWord, Text.endsWithWord]
    have found : word? [(c :: rest, arg)] (!Text.isWord c)
        (c :: (rest ++ margin (Text.endsWithWord false (c :: rest)))) = some (c :: rest, arg) := by
      rw [word?, List.find?_cons_of_pos]
      simpa using fits
    rw [List.cons_append, applyFrom, insertion_single filled, Text.startsWithWord, found]
    exact congrArg (arg ++ ·) (applyFrom_length_append _ rest _)

/-- A parameter is not found where a letter stands instead of its first character, or of its last. -/
private theorem applyFrom_letter (before : Bool) (rest : Text) (differs : ¬ param <+: 'x' :: rest) :
    applyFrom [(param, arg)] 0 before ('x' :: rest) = 'x' :: applyFrom [(param, arg)] 0 true rest := by
  have absent : word? [(param, arg)] before ('x' :: rest) = none := by
    rw [word?, List.find?_cons_of_neg]
    · rfl
    · intro stands
      simp only [Bindings.fits, Bool.and_eq_true] at stands
      exact differs (List.isPrefixOf_iff_prefix.mp stands.2.1.2)
  rw [applyFrom, insertion_single filled, absent]
  rfl

/-- Every parameter with a character fits somewhere, and gives way to its argument there. -/
theorem apply_between_margins :
    apply [(param, arg)]
        (margin (Text.startsWithWord param) ++ (param ++ margin (Text.endsWithWord false param))) =
      margin (Text.startsWithWord param) ++ (arg ++ margin (Text.endsWithWord false param)) := by
  have behind : applyFrom [(param, arg)] 0 (Text.endsWithWord false param)
      (margin (Text.endsWithWord false param)) = margin (Text.endsWithWord false param) := by
    cases ends : Text.endsWithWord false param with
    | true => exact insertion_single filled arg true []
    | false =>
      have differs : ¬ param <+: ['x'] := by
        intro stands
        rcases List.prefix_cons_iff.mp stands with empty | ⟨rest, rfl, short⟩
        · exact filled empty
        · rw [List.prefix_nil.mp short] at ends
          cases ends
      exact (applyFrom_letter filled arg false [] differs).trans
        (congrArg ('x' :: ·) (insertion_single filled arg true []))
  have fitting := applyFrom_param filled arg
  rw [behind] at fitting
  cases starts : Text.startsWithWord param with
  | true =>
    rw [starts] at fitting
    exact fitting
  | false =>
    have differs : ¬ param <+: 'x' :: (param ++ margin (Text.endsWithWord false param)) := by
      intro stands
      rcases List.prefix_cons_iff.mp stands with empty | ⟨rest, same, _⟩
      · exact filled empty
      · rw [same] at starts
        cases starts
    rw [starts] at fitting
    exact (applyFrom_letter filled arg false _ differs).trans (congrArg ('x' :: ·) fitting)

end Single

/-- The empty parameter fits at both ends of a word. -/
theorem apply_empty_param (arg : Text) : apply [([], arg)] ['x'] = arg ++ 'x' :: arg := rfl

/-- A single parameter that leaves every text as it is stands for itself. -/
theorem eq_of_apply_single {param arg : Text} (unchanged : ∀ text, apply [(param, arg)] text = text) :
    arg = param := by
  by_cases empty : param = []
  · subst empty
    have lengths := congrArg List.length ((apply_empty_param arg).symm.trans (unchanged ['x']))
    simp only [List.length_append, List.length_cons, List.length_nil] at lengths
    exact List.length_eq_zero_iff.mp (by omega)
  · have same := (apply_between_margins empty arg).symm.trans (unchanged _)
    exact List.append_cancel_right (List.append_cancel_left same)

end Bindings

theorem substitute_self (params : List Text) (body : List Token) :
    substitute params params body = .ok body := by
  rw [substitute_of_paired rfl, funext (Bindings.fixed_zip_self params).apply_eq]
  exact congrArg Except.ok (List.map_id body)

/-- Putting in the parameters for themselves leaves every body as it is, whatever the parameters are. Of the
arguments for a single parameter, no other one does. -/
theorem substitute_own_params (params : List Text) (body : List Token) :
    substitute params params body = .ok body ∧
      ∀ param arg, (∀ tokens, substitute [param] [arg] tokens = .ok tokens) ↔ arg = param := by
  refine ⟨substitute_self params body, fun param arg => ⟨fun unchanged => ?_, ?_⟩⟩
  · apply Bindings.eq_of_apply_single
    intro text
    have replaced : Except.ok [Bindings.apply [(param, arg)] text] = .ok [text] := unchanged [text]
    exact List.singleton_inj.mp (Except.ok.inj replaced)
  · rintro rfl
    exact substitute_self [arg]

/-- The empty parameter, one that starts another, and one without a word character, all of which fit next to
each other. -/
example :
    let params := ["a".toList, [], ".".toList, "a.".toList]
    let body := ["REPEAT a.a.".toList, "..a-".toList]
    substitute params params body = .ok body := by
  decide +kernel

end Lamplighter
