import Lamplighter.Proofs.LiveCalls

/-! # Definitions moved to the front

Counting the definitions that are open tells which tokens of a program belong to definitions. Of a flat
forest these are its outermost definitions, one after the other, and what is left over is the forest without
definitions, so the definitions followed by the others are a flat forest again. It has the same outermost
definitions in the same order, and the same live calls.
-/

namespace Lamplighter

namespace Token

/-- The number of open definitions after a token. -/
def levelAfter (inside : Nat) (token : Token) : Nat :=
  match token.kind with
  | .opens .definition => inside + 1
  | .closes .definition => inside - 1
  | _ => inside

/-- The tokens of definitions, with their openers and closers, and all other tokens, each in their order;
`inside` is the number of definitions that are open before them. -/
def separate : (inside : Nat) → List Token → List Token × List Token
  | _, [] => ([], [])
  | inside, token :: rest =>
    let (definitions, others) := separate (token.levelAfter inside) rest
    if 0 < inside ∨ token.kind = .opens .definition then (token :: definitions, others)
    else (definitions, token :: others)

/-- A program with its definitions moved to the front. -/
def definitionsFirst (program : List Token) : List Token := (separate 0 program).1 ++ (separate 0 program).2

theorem separate_cons_of_inside {inside : Nat} {token : Token} (rest : List Token)
    (belongs : 0 < inside ∨ token.kind = .opens .definition) :
    separate inside (token :: rest) =
      (token :: (separate (token.levelAfter inside) rest).1,
        (separate (token.levelAfter inside) rest).2) := by
  rw [separate]
  exact if_pos belongs

theorem separate_cons_of_outside {token : Token} (rest : List Token)
    (stays : token.kind ≠ .opens .definition) :
    separate 0 (token :: rest) =
      ((separate (token.levelAfter 0) rest).1, token :: (separate (token.levelAfter 0) rest).2) := by
  rw [separate]
  exact if_neg fun belongs => belongs.elim (Nat.lt_irrefl 0) stays

theorem separate_perm (inside : Nat) (tokens : List Token) :
    ((separate inside tokens).1 ++ (separate inside tokens).2).Perm tokens := by
  induction tokens generalizing inside with
  | nil => exact .refl _
  | cons token rest ih =>
    by_cases belongs : 0 < inside ∨ token.kind = .opens .definition
    · rw [separate_cons_of_inside rest belongs]
      exact (ih _).cons token
    · obtain ⟨outside, stays⟩ := not_or.mp belongs
      obtain rfl := Nat.eq_zero_of_not_pos outside
      rw [separate_cons_of_outside rest stays]
      exact List.perm_middle.trans ((ih _).cons token)

/-- Moving definitions brings no blanks. -/
theorem normalize_definitionsFirst {program : List Text} (normal : normalize program = program) :
    normalize (definitionsFirst program) = definitionsFirst program := by
  have trimmed : ∀ token ∈ program, Text.trim token = id token :=
    List.map_inj_left.mp (normal.trans (List.map_id program).symm)
  have members (token : Token) (member : token ∈ definitionsFirst program) : Text.trim token = id token :=
    trimmed token ((separate_perm 0 program).mem_iff.mp member)
  exact (List.map_congr_left members).trans (List.map_id _)

theorem IsLeaf.levelAfter {token : Token} (plain : token.IsLeaf) (inside : Nat) :
    token.levelAfter inside = inside := by
  rw [Token.levelAfter]
  split
  · exact absurd ‹_› (plain _).1
  · exact absurd ‹_› (plain _).2
  · rfl

theorem levelAfter_definition {token : Token} (opens : token.kind = .opens .definition) (inside : Nat) :
    token.levelAfter inside = inside + 1 := by
  rw [levelAfter, opens]

theorem levelAfter_loop {token : Token} (opens : token.kind = .opens .loop) (inside : Nat) :
    token.levelAfter inside = inside := by
  rw [levelAfter, opens]

theorem levelAfter_definition_closer (inside : Nat) :
    levelAfter (inside + 1) Scope.definition.closer = inside := by
  rw [levelAfter, kind_closer]
  exact Nat.add_sub_cancel inside 1

theorem levelAfter_loop_closer (inside : Nat) : levelAfter inside Scope.loop.closer = inside := by
  rw [levelAfter, kind_closer]

end Token

namespace Forest

/-- The definitions that stand inside no other one: their openers, and their bodies as they are written. -/
def outermost : Forest → List (Token × List Token)
  | nil => []
  | leaf _ _ rest => rest.outermost
  | node .definition opener _ body rest => (opener, body.flatten) :: rest.outermost
  | node .loop _ _ body rest => body.outermost ++ rest.outermost

/-- The forest without its definitions. -/
def bare : Forest → Forest
  | nil => nil
  | leaf token plain rest => leaf token plain rest.bare
  | node .definition _ _ _ rest => rest.bare
  | node .loop opener opens body rest => node .loop opener opens body.bare rest.bare

/-- The outermost definitions of a forest in front of another one. -/
def hoist : Forest → Forest → Forest
  | nil, after => after
  | leaf _ _ rest, after => rest.hoist after
  | node .definition opener opens body rest, after => node .definition opener opens body (rest.hoist after)
  | node .loop _ _ body rest, after => body.hoist (rest.hoist after)

/-- A definition as it is written. -/
def segment (definition : Token × List Token) : List Token :=
  definition.1 :: (definition.2 ++ [Scope.definition.closer])

theorem flatten_hoist (forest after : Forest) :
    (forest.hoist after).flatten = forest.outermost.flatMap segment ++ after.flatten := by
  induction forest generalizing after with
  | nil => rfl
  | leaf token plain rest ih => exact ih after
  | node scope opener opens body rest bodyIh restIh =>
    cases scope with
    | definition =>
      rw [hoist, flatten, restIh, outermost, List.flatMap_cons, segment]
      simp only [List.cons_append, List.append_assoc, List.nil_append]
    | loop => rw [hoist, bodyIh, restIh, outermost, List.flatMap_append, List.append_assoc]

@[simp] theorem outermost_bare (forest : Forest) : forest.bare.outermost = [] := by
  induction forest with
  | nil => rfl
  | leaf token plain rest ih => exact ih
  | node scope opener opens body rest bodyIh restIh =>
    cases scope with
    | definition => exact restIh
    | loop => rw [bare, outermost, bodyIh, restIh, List.append_nil]

@[simp] theorem outermost_hoist (forest after : Forest) :
    (forest.hoist after).outermost = forest.outermost ++ after.outermost := by
  induction forest generalizing after with
  | nil => rfl
  | leaf token plain rest ih => exact ih after
  | node scope opener opens body rest bodyIh restIh =>
    cases scope with
    | definition => rw [hoist, outermost, restIh, outermost, List.cons_append]
    | loop => rw [hoist, bodyIh, restIh, outermost, List.append_assoc]

@[simp] theorem liveCalls_bare (forest : Forest) : forest.bare.liveCalls = forest.liveCalls := by
  induction forest with
  | nil => rfl
  | leaf token plain rest ih => rw [bare, liveCalls, liveCalls, ih]
  | node scope opener opens body rest bodyIh restIh =>
    cases scope with
    | definition => rw [bare, liveCalls, restIh]
    | loop => rw [bare, liveCalls, liveCalls, bodyIh, restIh]

@[simp] theorem liveCalls_hoist (forest after : Forest) :
    (forest.hoist after).liveCalls = after.liveCalls := by
  induction forest generalizing after with
  | nil => rfl
  | leaf token plain rest ih => exact ih after
  | node scope opener opens body rest bodyIh restIh =>
    cases scope with
    | definition => rw [hoist, liveCalls, restIh]
    | loop => rw [hoist, bodyIh, restIh]

open Token (separate separate_cons_of_inside separate_cons_of_outside levelAfter_definition
  levelAfter_definition_closer levelAfter_loop levelAfter_loop_closer)

/-- A flat forest inside a definition belongs to it. -/
theorem separate_flatten_inside (inside : Nat) (forest : Forest) (tokens : List Token) :
    separate (inside + 1) (forest.flatten ++ tokens) =
      (forest.flatten ++ (separate (inside + 1) tokens).1, (separate (inside + 1) tokens).2) := by
  induction forest generalizing inside tokens with
  | nil => rfl
  | leaf token plain rest ih =>
    rw [flatten, List.cons_append, separate_cons_of_inside _ (.inl inside.succ_pos), plain.levelAfter, ih]
    rfl
  | node scope opener opens body rest bodyIh restIh =>
    simp only [flatten, List.cons_append, List.append_assoc]
    rw [separate_cons_of_inside _ (.inl inside.succ_pos)]
    cases scope with
    | definition =>
      rw [levelAfter_definition opens, bodyIh, separate_cons_of_inside _ (.inl (Nat.succ_pos _)),
        levelAfter_definition_closer, restIh]
    | loop =>
      rw [levelAfter_loop opens, bodyIh, separate_cons_of_inside _ (.inl (Nat.succ_pos _)),
        levelAfter_loop_closer, restIh]

/-- Outside all definitions, the outermost ones of a forest are taken out. -/
theorem separate_flatten (forest : Forest) (tokens : List Token) :
    separate 0 (forest.flatten ++ tokens) =
      (forest.outermost.flatMap segment ++ (separate 0 tokens).1,
        forest.bare.flatten ++ (separate 0 tokens).2) := by
  induction forest generalizing tokens with
  | nil => rfl
  | leaf token plain rest ih =>
    rw [flatten, List.cons_append, separate_cons_of_outside _ (plain _).1, plain.levelAfter, ih]
    rfl
  | node scope opener opens body rest bodyIh restIh =>
    simp only [flatten, List.cons_append, List.append_assoc]
    cases scope with
    | definition =>
      rw [separate_cons_of_inside _ (.inr opens), levelAfter_definition opens, separate_flatten_inside,
        separate_cons_of_inside _ (.inl Nat.one_pos), levelAfter_definition_closer, restIh, outermost,
        List.flatMap_cons, segment]
      simp only [List.cons_append, List.append_assoc, List.nil_append, bare]
    | loop =>
      rw [separate_cons_of_outside _ (by simp [opens]), levelAfter_loop opens, bodyIh,
        separate_cons_of_outside _ (by simp), levelAfter_loop_closer, restIh, outermost,
        List.flatMap_append, bare, flatten]
      simp only [List.cons_append, List.append_assoc]

/-- With the definitions first, a flat forest is a flat forest again. -/
theorem definitionsFirst_flatten (forest : Forest) :
    Token.definitionsFirst forest.flatten = (forest.hoist forest.bare).flatten := by
  have parts := forest.separate_flatten []
  rw [List.append_nil] at parts
  rw [Token.definitionsFirst, parts, flatten_hoist, separate, List.append_nil, List.append_nil]

end Forest

end Lamplighter
