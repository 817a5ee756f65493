import Lamplighter.Nesting
import Lamplighter.Scope
import Mathlib.Tactic.SplitIfs

/-! # Forests of scopes

A program whose scopes are closed in order is the flat writing of a forest: a row of tokens and
scopes, where a scope holds a forest again. `Nesting.check` accepts exactly the flat forests, and a
scan for the end of a scope passes over a flat forest as a whole, whichever kind it counts.
-/

namespace Lamplighter

namespace Token

private theorem kindOfKeyword_ne_closes (word : Text) (scope : Scope) :
    kindOfKeyword word ≠ .closes scope := by
  unfold kindOfKeyword
  split_ifs
  · simp
  · split <;> simp

private theorem kindOfKeyword_eq_opens_iff (word : Text) (scope : Scope) :
    kindOfKeyword word = .opens scope ↔ word = scope.opener := by
  unfold kindOfKeyword Scope.ofOpener?
  constructor
  · intro opens
    split_ifs at opens with call definition loop
    · cases opens
      exact definition
    · cases opens
      exact loop
  · rintro rfl
    cases scope <;> decide

/-- Only the exact spelling of a closer closes a scope. -/
theorem kind_eq_closes_iff (token : Token) (scope : Scope) :
    token.kind = .closes scope ↔ token = scope.closer := by
  constructor
  · intro closes
    unfold kind at closes
    split at closes
    · cases closes
    · split_ifs at closes with loop definition
      · cases closes
        exact loop
      · cases closes
        exact definition
      · exact absurd closes (kindOfKeyword_ne_closes _ _)
  · rintro rfl
    cases scope <;> decide

private theorem kindOfKeyword_eq_call_iff (word : Text) : kindOfKeyword word = .call ↔ word = callWord := by
  unfold kindOfKeyword
  constructor
  · intro calls
    split_ifs at calls with call
    · exact call
    · split at calls <;> cases calls
  · rintro rfl
    rfl

/-- A token that starts with the keyword of an opener or of a call has no special spelling. -/
private theorem kind_eq_kindOfKeyword {token : Token}
    (named : token.keyword = callWord ∨ ∃ scope : Scope, token.keyword = scope.opener) :
    token.kind = kindOfKeyword token.keyword := by
  have spelled (word : Token) (call : word.keyword ≠ callWord)
      (definition : word.keyword ≠ Scope.definition.opener) (loop : word.keyword ≠ Scope.loop.opener) :
      token ≠ word := by
    rintro rfl
    rcases named with calls | ⟨scope, opens⟩
    · exact call calls
    · cases scope with
      | definition => exact definition opens
      | loop => exact loop opens
  have command : Primitive.ofWord? token = none := by
    have left := spelled "LEFT".toList (by decide) (by decide) (by decide)
    have right := spelled "RIGHT".toList (by decide) (by decide) (by decide)
    have forward := spelled "FORWARD".toList (by decide) (by decide) (by decide)
    have light := spelled "LIGHT".toList (by decide) (by decide) (by decide)
    rw [Primitive.ofWord?, if_neg left, if_neg right, if_neg forward, if_neg light]
  have loop := spelled Scope.loop.closer (by decide) (by decide) (by decide)
  have definition := spelled Scope.definition.closer (by decide) (by decide) (by decide)
  simp only [kind, command, if_neg loop, if_neg definition]

/-- A scope is opened by exactly the tokens that start with its keyword. -/
theorem kind_eq_opens_iff (token : Token) (scope : Scope) :
    token.kind = .opens scope ↔ token.keyword = scope.opener := by
  constructor
  · intro opens
    unfold kind at opens
    split at opens
    · cases opens
    · split_ifs at opens
      exact (kindOfKeyword_eq_opens_iff _ _).mp opens
  · intro keyword
    rw [kind_eq_kindOfKeyword (.inr ⟨scope, keyword⟩)]
    exact (kindOfKeyword_eq_opens_iff _ _).mpr keyword

/-- A function is called by exactly the tokens that start with the keyword of a call. -/
theorem kind_eq_call_iff (token : Token) : token.kind = .call ↔ token.keyword = callWord := by
  constructor
  · intro calls
    unfold kind at calls
    split at calls
    · cases calls
    · split_ifs at calls
      exact (kindOfKeyword_eq_call_iff _).mp calls
  · intro keyword
    rw [kind_eq_kindOfKeyword (.inl keyword)]
    exact (kindOfKeyword_eq_call_iff _).mpr keyword

@[simp] theorem kind_closer (scope : Scope) : kind scope.closer = .closes scope :=
  (kind_eq_closes_iff _ scope).mpr rfl

def IsLeaf (token : Token) : Prop :=
  ∀ scope, token.kind ≠ .opens scope ∧ token.kind ≠ .closes scope

/-- A leaf is a command, a call, or nothing that a program does. -/
theorem IsLeaf.kind_cases {token : Token} (plain : token.IsLeaf) :
    (∃ primitive, token.kind = .act primitive) ∨ token.kind = .call ∨ token.kind = .other := by
  cases kind : token.kind with
  | act primitive => exact .inl ⟨primitive, rfl⟩
  | opens scope => exact absurd kind (plain scope).1
  | closes scope => exact absurd kind (plain scope).2
  | call => exact .inr (.inl rfl)
  | other => exact .inr (.inr rfl)

end Token

/-- A row of tokens and scopes; each scope is followed by the rest of its row. -/
inductive Forest where
  | nil
  /-- A token that is neither an opener nor a closer. -/
  | leaf (token : Token) (plain : token.IsLeaf) (rest : Forest)
  /-- A scope with its opener and the forest inside it. -/
  | node (scope : Scope) (opener : Token) (opens : opener.kind = .opens scope) (body rest : Forest)

namespace Forest

/-- The tokens of a forest, with the closer of each scope after its body. -/
def flatten : Forest → List Token
  | nil => []
  | leaf token _ rest => token :: rest.flatten
  | node scope opener _ body rest => opener :: (body.flatten ++ scope.closer :: rest.flatten)

def size (forest : Forest) : Nat := forest.flatten.length

theorem size_leaf (token : Token) (plain : token.IsLeaf) (rest : Forest) :
    (leaf token plain rest).size = rest.size + 1 := rfl

theorem size_node (scope : Scope) (opener : Token) (opens : opener.kind = .opens scope)
    (body rest : Forest) : (node scope opener opens body rest).size = body.size + rest.size + 2 := by
  simp only [size, flatten, List.length_cons, List.length_append]
  omega

/-- The place after a scope and the rest of its row. -/
theorem add_size_node (index : Nat) (scope : Scope) (opener : Token) (opens : opener.kind = .opens scope)
    (body rest : Forest) :
    index + (node scope opener opens body rest).size = index + body.size + 2 + rest.size := by
  rw [size_node]
  omega

end Forest

namespace Scope

theorem sizeFrom_pass (scope : Scope) (inner : Nat) (token : Token) (tokens : List Token)
    (stays : token.kind ≠ .closes scope) (neutral : token.kind ≠ .opens scope) :
    scope.sizeFrom inner (token :: tokens) = scope.sizeFrom inner tokens + 1 := by
  rw [sizeFrom.eq_def]
  simp only [if_neg stays, if_neg neutral]

theorem sizeFrom_open (scope : Scope) (inner : Nat) (token : Token) (tokens : List Token)
    (opens : token.kind = .opens scope) :
    scope.sizeFrom inner (token :: tokens) = scope.sizeFrom (inner + 1) tokens + 1 := by
  rw [sizeFrom.eq_def]
  simp [opens]

theorem sizeFrom_close (scope : Scope) (inner : Nat) (tokens : List Token) :
    scope.sizeFrom (inner + 1) (scope.closer :: tokens) = scope.sizeFrom inner tokens + 1 := by
  rw [sizeFrom, if_pos (Token.kind_closer scope)]

theorem sizeFrom_end (scope : Scope) (tokens : List Token) :
    scope.sizeFrom 0 (scope.closer :: tokens) = 0 := by
  rw [sizeFrom, if_pos (Token.kind_closer scope)]

/-- A scan for a closer passes over a flat forest without a change of its level. -/
theorem sizeFrom_flatten (scope : Scope) (inner : Nat) (forest : Forest) (tokens : List Token) :
    scope.sizeFrom inner (forest.flatten ++ tokens) = forest.size + scope.sizeFrom inner tokens := by
  induction forest generalizing inner tokens with
  | nil => simp [Forest.flatten, Forest.size]
  | leaf token plain rest ih =>
    have head := scope.sizeFrom_pass inner token (rest.flatten ++ tokens) (plain scope).2 (plain scope).1
    simp only [Forest.flatten, Forest.size, List.cons_append, List.length_cons] at ih ⊢
    rw [head, ih]
    omega
  | node other opener opens body rest bodyIh restIh =>
    simp only [Forest.flatten, Forest.size, List.cons_append, List.append_assoc, List.length_cons,
      List.length_append] at bodyIh restIh ⊢
    by_cases same : other = scope
    · subst same
      rw [sizeFrom_open _ _ _ _ opens, bodyIh, sizeFrom_close, restIh]
      omega
    · have opener_neutral : opener.kind ≠ .opens scope := by
        rw [opens]
        simpa using same
      have closer_stays : Token.kind other.closer ≠ .closes scope := by
        rw [Token.kind_closer]
        simpa using same
      rw [sizeFrom_pass _ _ _ _ (by simp [opens]) opener_neutral, bodyIh,
        sizeFrom_pass _ _ _ _ closer_stays (by simp), restIh]
      omega

/-- The closer after a flat forest balances the opener before it. -/
theorem size_flatten (scope : Scope) (forest : Forest) (tokens : List Token) :
    scope.size (forest.flatten ++ scope.closer :: tokens) = forest.size := by
  rw [size, sizeFrom_flatten, sizeFrom_end, Nat.add_zero]

theorem body_flatten (scope : Scope) (forest : Forest) (tokens : List Token) :
    scope.body (forest.flatten ++ scope.closer :: tokens) = forest.flatten := by
  rw [body, size_flatten, Forest.size, List.take_left]

theorem drop_size_flatten (scope : Scope) (forest : Forest) (tokens : List Token) :
    (forest.flatten ++ scope.closer :: tokens).drop
      (scope.size (forest.flatten ++ scope.closer :: tokens) + 1) = tokens := by
  rw [size_flatten, Forest.size, ← List.drop_drop, List.drop_left, List.drop_one, List.tail_cons]

end Scope

namespace Nesting

theorem checkFrom_leaf (opened : List Opened) (index : Nat) (token : Token) (tokens : List Token)
    (plain : token.IsLeaf) :
    checkFrom opened index (token :: tokens) = checkFrom opened (index + 1) tokens := by
  rw [checkFrom]
  split
  · exact absurd ‹_› (plain _).1
  · exact absurd ‹_› (plain _).2
  · rfl

theorem checkFrom_open (opened : List Opened) (index : Nat) (scope : Scope) (token : Token)
    (tokens : List Token) (opens : token.kind = .opens scope) :
    checkFrom opened index (token :: tokens) =
      checkFrom (⟨scope, index⟩ :: opened) (index + 1) tokens := by
  rw [checkFrom]
  simp only [opens]

theorem checkFrom_close (opened : Opened) (outer : List Opened) (index : Nat) (tokens : List Token) :
    checkFrom (opened :: outer) index (opened.scope.closer :: tokens) =
      checkFrom outer (index + 1) tokens := by
  rw [checkFrom]
  simp only [Token.kind_closer, if_true]

/-- A flat forest leaves the open scopes as they are. -/
theorem checkFrom_flatten (opened : List Opened) (index : Nat) (forest : Forest) (tokens : List Token) :
    checkFrom opened index (forest.flatten ++ tokens) = checkFrom opened (index + forest.size) tokens := by
  induction forest generalizing opened index tokens with
  | nil => simp [Forest.flatten, Forest.size]
  | leaf token plain rest ih =>
    simp only [Forest.flatten, Forest.size, List.cons_append, List.length_cons] at ih ⊢
    rw [checkFrom_leaf _ _ _ _ plain, ih]
    congr 1
    omega
  | node scope opener opens body rest bodyIh restIh =>
    simp only [Forest.flatten, Forest.size, List.cons_append, List.append_assoc, List.length_cons,
      List.length_append] at bodyIh restIh ⊢
    rw [checkFrom_open _ _ _ _ _ opens, bodyIh, checkFrom_close ⟨scope, index⟩, restIh]
    congr 1
    omega

/-- Tokens that close the given open scopes, innermost first, with a flat forest before each closer
and after the last. -/
private def Completes : List Opened → List Token → Prop
  | [], tokens => ∃ forest : Forest, forest.flatten = tokens
  | innermost :: outer, tokens =>
    ∃ (forest : Forest) (rest : List Token),
      forest.flatten ++ innermost.scope.closer :: rest = tokens ∧ Completes outer rest

private theorem Completes.leaf {opened : List Opened} {tokens : List Token} (token : Token)
    (plain : token.IsLeaf) (completes : Completes opened tokens) : Completes opened (token :: tokens) := by
  cases opened with
  | nil =>
    obtain ⟨forest, rfl⟩ := completes
    exact ⟨.leaf token plain forest, rfl⟩
  | cons innermost outer =>
    obtain ⟨forest, rest, rfl, closed⟩ := completes
    exact ⟨.leaf token plain forest, rest, rfl, closed⟩

private theorem Completes.node {opened : List Opened} {tokens : List Token} {scope : Scope} (token : Token)
    (opens : token.kind = .opens scope) (body : Forest) (completes : Completes opened tokens) :
    Completes opened (token :: (body.flatten ++ scope.closer :: tokens)) := by
  cases opened with
  | nil =>
    obtain ⟨forest, rfl⟩ := completes
    exact ⟨.node scope token opens body forest, rfl⟩
  | cons innermost outer =>
    obtain ⟨forest, rest, rfl, closed⟩ := completes
    exact ⟨.node scope token opens body forest, rest, by simp [Forest.flatten], closed⟩

private theorem completes_of_checkFrom {opened : List Opened} {index : Nat} {tokens : List Token}
    (accepted : checkFrom opened index tokens = .ok ()) : Completes opened tokens := by
  induction tokens generalizing opened index with
  | nil =>
    cases opened with
    | nil => exact ⟨.nil, rfl⟩
    | cons innermost outer => simp [checkFrom] at accepted
  | cons token rest ih =>
    rw [checkFrom] at accepted
    split at accepted
    · rename_i scope opens
      obtain ⟨body, outside, rfl, completes⟩ := ih accepted
      exact completes.node token opens body
    · rename_i scope closes
      split at accepted
      · cases accepted
      · rename_i innermost outer
        split_ifs at accepted with same
        refine ⟨.nil, rest, ?_, ih accepted⟩
        rw [(Token.kind_eq_closes_iff token scope).mp closes, same]
        rfl
    · rename_i neutral closes
      exact (ih accepted).leaf token (fun scope => ⟨neutral scope, closes scope⟩)

/-- The nesting check accepts exactly the flat forests. -/
theorem check_eq_ok_iff (program : List Token) :
    check program = .ok () ↔ ∃ forest : Forest, forest.flatten = program := by
  constructor
  · exact completes_of_checkFrom
  · rintro ⟨forest, rfl⟩
    have passed := checkFrom_flatten [] 0 forest []
    rw [List.append_nil] at passed
    rw [check, passed]
    rfl

end Nesting

/-- Induction along a scan that goes on right behind the next token, or further behind where a scope ends. -/
@[elab_as_elim]
theorem leapwise {motive : List Token → Prop} (nil : motive [])
    (cons : ∀ token rest, (∀ passed, motive (rest.drop passed)) → motive (token :: rest))
    (tokens : List Token) : motive tokens := by
  generalize bound : tokens.length = length
  induction length using Nat.strongRecOn generalizing tokens with
  | _ length ih =>
    cases tokens with
    | nil => exact nil
    | cons token rest =>
      refine cons token rest fun passed => ih _ ?_ _ rfl
      rw [List.length_cons] at bound
      rw [List.length_drop]
      omega

end Lamplighter
