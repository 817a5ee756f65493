import Lamplighter.Machine
import Lamplighter.Proofs.Walk
import Lamplighter.Proofs.WholeWords
import Mathlib.Data.List.GetD
import Mathlib.Data.List.Nodup

/-! # Renaming of parameters

A function whose parameters get new names, in its signature and in its body alike, is the same function to
every caller. The new names are words that do not occur in the body, so in the renamed body they are exactly
the pieces that were parameters. An execution sees of a function only its name, the number of its arguments
and its body with arguments put in.
-/

namespace Lamplighter

namespace Text

section Exchange

variable {params names : List Text}

theorem exchange_eq_getElem {args : List Text} (paired : args.length = params.length) {piece : Text}
    (member : piece ∈ params) :
    ∃ bound : params.idxOf piece < args.length, exchange params args piece = args[params.idxOf piece] := by
  have bound : params.idxOf piece < args.length := by
    rw [paired]
    exact List.idxOf_lt_length_of_mem member
  exact ⟨bound, by rw [exchange_of_mem member, List.getD_eq_getElem _ _ bound]⟩

variable (paired : names.length = params.length)

include paired

/-- New names lead to the arguments of the parameters that they stand for. -/
theorem exchange_exchange (distinct : names.Nodup) {piece : Text} (fresh : piece ∉ names) (args : List Text) :
    exchange names args (exchange params names piece) = exchange params args piece := by
  by_cases member : piece ∈ params
  · obtain ⟨bound, put⟩ := exchange_eq_getElem paired member
    rw [put, exchange_of_mem (List.getElem_mem bound), distinct.idxOf_getElem _ bound, exchange_of_mem member]
  · rw [exchange_of_absent member, exchange_of_absent fresh, exchange_of_absent member]

variable (wordy : ∀ param ∈ params, param.Wordy) (solid : ∀ name ∈ names, name.Wordy)

include wordy solid

/-- What is put in for a word is a word, and nothing else becomes one. -/
theorem wordy_exchange_iff (piece : Text) : (exchange params names piece).Wordy ↔ piece.Wordy := by
  by_cases member : piece ∈ params
  · obtain ⟨bound, put⟩ := exchange_eq_getElem paired member
    rw [put]
    exact iff_of_true (solid _ (List.getElem_mem bound)) (wordy piece member)
  · rw [exchange_of_absent member]

/-- A text with words put in for words is cut where it was cut before. -/
theorem pieces_exchange (text : Text) :
    pieces ((pieces text).map (exchange params names)).flatten = (pieces text).map (exchange params names) := by
  have cut := cutInto_pieces text
  refine (cutInto_iff.mp ⟨rfl, ?_, ?_⟩).symm
  · rw [List.forall_mem_map]
    intro piece member
    cases cut.isPiece piece member with
    | word run => exact .word ((wordy_exchange_iff paired wordy solid piece).mpr run)
    | mark stop =>
      rw [exchange_of_absent fun param => not_wordy_of_mark stop [] (wordy _ param)]
      exact .mark stop
  · rw [List.isChain_map]
    simpa only [wordy_exchange_iff paired wordy solid] using cut.uncut

end Exchange

end Text

section Bodies

variable {params names : List Text} (wordy : ∀ param ∈ params, param.Wordy)
variable (solid : ∀ name ∈ names, name.Wordy) (distinct : names.Nodup)
variable (paired : names.length = params.length)

include wordy solid distinct paired

/-- Arguments that are put in for new names come to stand where they are put in for the parameters. -/
theorem Bindings.apply_renamed {args : List Text} (filled : args.length = params.length) {text : Text}
    (absent : ∀ name ∈ names, Text.occurs name text = false) :
    apply (names.zip args) (apply (params.zip names) text) = apply (params.zip args) text := by
  rw [apply_eq_flatten wordy paired, apply_eq_flatten solid (filled.trans paired.symm),
    apply_eq_flatten wordy filled, Text.pieces_exchange paired wordy solid, List.map_map]
  congr 1
  apply List.map_congr_left
  intro piece member
  apply Text.exchange_exchange paired distinct
  intro name
  have occurs := (Text.occurs_iff_mem_pieces (solid piece name) text).mpr member
  rw [absent piece name] at occurs
  cases occurs

theorem instantiate_renamed {args : List Text} (filled : args.length = params.length) {body : List Token}
    (absent : ∀ token ∈ body, ∀ name ∈ names, Text.occurs name token = false) :
    instantiate names args (instantiate params names body) = instantiate params args body := by
  unfold instantiate
  rw [List.map_map]
  apply List.map_congr_left
  intro token member
  exact Bindings.apply_renamed wordy solid distinct paired filled (absent token member)

/-- Also where the number of arguments is wrong, new names change nothing. -/
theorem substitute_renamed {body : List Token}
    (absent : ∀ token ∈ body, ∀ name ∈ names, Text.occurs name token = false) (args : List Text) :
    substitute names args (instantiate params names body) = substitute params args body := by
  have same : names.isEmpty = params.isEmpty := by
    rw [Bool.eq_iff_iff, List.isEmpty_iff_length_eq_zero, List.isEmpty_iff_length_eq_zero, paired]
  unfold substitute
  rw [same, paired]
  split_ifs with empty fewer more
  · rw [List.isEmpty_iff.mp empty, instantiate, List.zip_nil_left, funext Bindings.apply_nil]
    exact congrArg Except.ok (List.map_id body)
  · rfl
  · rfl
  · have filled : args.length = params.length := by omega
    rw [instantiate_renamed wordy solid distinct paired filled absent]

end Bodies

/-- Two functions that no call tells apart: the same name, as many parameters, and the same body once arguments
are put in. -/
structure FunctionDef.CalledAlike (function twin : FunctionDef) : Prop where
  name : twin.name = function.name
  arity : twin.arity = function.arity
  body : ∀ args : List Text, args.length = function.arity →
    instantiate twin.params args twin.body = instantiate function.params args function.body

theorem FunctionDef.CalledAlike.refl (function : FunctionDef) : CalledAlike function function :=
  ⟨rfl, rfl, fun _ _ => rfl⟩

/-- Two tables with the same names, whose functions no call tells apart. -/
def FunctionTable.CalledAlike (table twin : FunctionTable) : Prop :=
  ∀ name, Option.Rel FunctionDef.CalledAlike (table.find? name) (twin.find? name)

/-- A definition may be put in the place of one that no call tells apart from it. -/
theorem FunctionTable.CalledAlike.insert {table : FunctionTable} {function twin : FunctionDef}
    (found : table.find? function.name = some function) (alike : function.CalledAlike twin) :
    table.CalledAlike (table.insert twin) := by
  intro name
  rw [find?_insert, alike.name]
  split_ifs with same
  · rw [← same, found]
    exact .some alike
  · cases table.find? name with
    | none => exact .none
    | some other => exact .some (.refl other)

namespace Execution

variable {σ : Type} {env other : Env} (alike : env.functions.CalledAlike other.functions)

include alike

/-- A call is refused by both tables for the same fault, or enters the same body in both. -/
theorem resolve_alike (token : Token) (index : Nat) :
    (∃ fault, resolve env token index = .error fault ∧ resolve other token index = .error fault) ∨
      ∃ function twin args, resolve env token index = .ok (function, args) ∧
        resolve other token index = .ok (twin, args) ∧ twin.name = function.name ∧
        instantiate twin.params args twin.body = instantiate function.params args function.body := by
  unfold resolve
  cases Signature.readAt Token.callWord token index with
  | error malformed => exact .inl ⟨_, rfl, rfl⟩
  | ok signature =>
    have both := alike signature.name
    dsimp only
    generalize env.functions.find? signature.name = found at both ⊢
    generalize other.functions.find? signature.name = look at both ⊢
    cases both with
    | none => exact .inl ⟨_, rfl, rfl⟩
    | @some function twin same =>
      dsimp only
      rw [same.arity]
      split_ifs with fits
      · exact .inr ⟨function, twin, _, rfl, rfl, same.name, same.body _ fits⟩
      · exact .inl ⟨_, rfl, rfl⟩

theorem walk_alike (handle : Event → σ → Run σ) (enter : List Token → σ → Run σ)
    (depth index : Nat) (tokens : List Token) (state : σ) :
    walk handle other enter depth 0 index tokens state =
      walk handle env enter depth 0 index tokens state := by
  induction tokens using leapwise generalizing index state with
  | nil => rfl
  | cons token rest ih =>
    have later (passed ahead : Nat) : walk handle other enter depth 0 ahead (rest.drop passed) =
        walk handle env enter depth 0 ahead (rest.drop passed) := funext (ih passed ahead)
    cases step env index token with
    | act acts =>
      rw [walk_act _ _ _ _ _ _ _ acts, walk_act _ _ _ _ _ _ _ acts]
      exact congrArg _ (later 0 _)
    | cut closes => rw [walk_cut _ _ _ _ _ _ _ closes, walk_cut _ _ _ _ _ _ _ closes]
    | loop opens read =>
      rw [walk_loop_of_ok _ _ _ _ _ _ _ opens read, walk_loop_of_ok _ _ _ _ _ _ _ opens read, later]
    | unread opens unread =>
      rw [walk_loop_of_error _ _ _ _ _ _ _ opens unread, walk_loop_of_error _ _ _ _ _ _ _ opens unread]
    | definition opens =>
      rw [walk_definition _ _ _ _ _ _ _ opens, walk_definition _ _ _ _ _ _ _ opens, later]
    | call calls _ | unresolved calls _ =>
      rcases resolve_alike alike token index with
        ⟨fault, left, right⟩ | ⟨function, twin, args, left, right, name, body⟩
      · rw [walk_call_of_error _ _ _ _ _ _ _ calls right, walk_call_of_error _ _ _ _ _ _ _ calls left]
      · have same : call handle enter depth twin args = call handle enter depth function args := by
          funext state
          rw [call, call, name, body]
        rw [walk_call_of_ok _ _ _ _ _ _ _ calls right, walk_call_of_ok _ _ _ _ _ _ _ calls left, same]
        exact congrArg _ (later 0 _)
    | pass idle =>
      rw [walk_pass _ _ _ _ _ _ _ idle, walk_pass _ _ _ _ _ _ _ idle]
      exact ih 0 _ state

/-- An execution does not tell apart what calls do not tell apart. -/
theorem block_alike (limit : other.maxDepth = env.maxDepth) (handle : Event → σ → Run σ)
    (room depth : Nat) (tokens : List Token) (state : σ) :
    block handle other room depth tokens state = block handle env room depth tokens state := by
  induction room generalizing depth tokens state with
  | zero => rw [block, block, limit]
  | succ room ih =>
    have below : block handle other room (depth + 1) = block handle env room (depth + 1) :=
      funext fun tokens => funext fun state => ih (depth + 1) tokens state
    rw [block, block, below]
    exact walk_alike alike handle _ depth 0 tokens state

end Execution

namespace Machine

theorem run_alike {table twin : FunctionTable} (alike : table.CalledAlike twin) (maxDepth : Int)
    (stack : Nat) (budget : Option Int) (program : List Token) (machine : Machine) :
    machine.run ⟨twin, maxDepth, stack⟩ budget program =
      machine.run ⟨table, maxDepth, stack⟩ budget program := by
  have same : (⟨table, maxDepth, stack⟩ : Env).functions.CalledAlike
      (⟨twin, maxDepth, stack⟩ : Env).functions := alike
  exact Execution.block_alike same rfl (handle budget) _ 0 program machine

/-- The parameters of a function may be renamed to other words, all different, that do not occur in its body.
Putting arguments in for the new names gives what putting them in for the parameters gives, or the same fault,
and with the renamed function in the place of the old one every program runs as before: to the same world, the
same number of steps, the same log and the same fault if any. -/
theorem run_renamed_parameters {params names : List Text} {body : List Token}
    (wordy : ∀ param ∈ params, param.Wordy) (solid : ∀ name ∈ names, name.Wordy) (distinct : names.Nodup)
    (paired : names.length = params.length)
    (absent : ∀ token ∈ body, ∀ name ∈ names, Text.occurs name token = false) :
    ∃ renamed, substitute params names body = .ok renamed ∧
      (∀ args, substitute names args renamed = substitute params args body) ∧
      ∀ (table : FunctionTable) (name : Text), table.find? name = some ⟨name, params, body⟩ →
        ∀ (maxDepth : Int) (stack : Nat) (budget : Option Int) (program : List Token) (machine : Machine),
          machine.run ⟨table.insert ⟨name, names, renamed⟩, maxDepth, stack⟩ budget program =
            machine.run ⟨table, maxDepth, stack⟩ budget program := by
  refine ⟨instantiate params names body, substitute_of_paired paired body,
    substitute_renamed wordy solid distinct paired absent, ?_⟩
  intro table name found maxDepth stack budget program machine
  have alike : FunctionDef.CalledAlike ⟨name, params, body⟩ ⟨name, names, instantiate params names body⟩ :=
    ⟨rfl, paired, fun args filled => instantiate_renamed wordy solid distinct paired filled absent⟩
  exact run_alike (.insert found alike) maxDepth stack budget program machine

private def onDarkLamp : World := ⟨⟨[".".toList]⟩, 0, 0, .up⟩

/-- A function that hands its first parameter to a loop and to another function; the second one occurs only as
a part of words. -/
private def blink : FunctionDef :=
  ⟨"F".toList, ["n".toList, "m".toList], ["REPEAT n".toList, "LIGHT".toList, "ENDREPEAT".toList,
    "CALL nm(n, mm)".toList]⟩

/-- The first parameter takes the name that the second one had; both runs switch the lamp three times and stop
at the call of a function that does not exist. -/
theorem run_renamed_parameters_of_shifted :
    let table : FunctionTable := ⟨[blink]⟩
    let names : List Text := ["m".toList, "x".toList]
    let renamed := ["REPEAT m".toList, "LIGHT".toList, "ENDREPEAT".toList, "CALL nm(m, mm)".toList]
    let program := ["CALL F(3, m)".toList]
    substitute blink.params names blink.body = .ok renamed ∧
      (∀ args, substitute names args renamed = substitute blink.params args blink.body) ∧
      (start onDarkLamp).run ⟨table.insert ⟨"F".toList, names, renamed⟩, 5, 450⟩ none program =
        (start onDarkLamp).run ⟨table, 5, 450⟩ none program ∧
      ((start onDarkLamp).run ⟨table, 5, 450⟩ none program).state.world = ⟨⟨["x".toList]⟩, 0, 0, .up⟩ ∧
      ((start onDarkLamp).run ⟨table, 5, 450⟩ none program).fault = some (.undefined "nm".toList) := by
  intro table names renamed program
  have wordy : ∀ param ∈ blink.params, param.Wordy := by decide +kernel
  have solid : ∀ name ∈ names, name.Wordy := by decide +kernel
  have absent : ∀ token ∈ blink.body, ∀ name ∈ names, Text.occurs name token = false := by decide +kernel
  obtain ⟨result, put, filled, runs⟩ := run_renamed_parameters wordy solid (by decide) rfl absent
  have spelled : substitute blink.params names blink.body = .ok renamed := by decide +kernel
  obtain rfl : result = renamed := Except.ok.inj (put.symm.trans spelled)
  exact ⟨put, filled, runs table "F".toList rfl 5 450 none program _, by decide +kernel, by decide +kernel⟩

end Machine

end Lamplighter
