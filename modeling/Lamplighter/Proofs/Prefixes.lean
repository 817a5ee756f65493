import Lamplighter.Proofs.Forest
import Mathlib.Data.List.Induction
import Mathlib.Tactic.ByContra

/-! # Prefixes of nested programs

Tokens that some nested program starts with leave scopes open: behind each open scope's opener, and before
the first of them, stands a flat forest. The nesting check has come to exactly these open scopes after such
tokens. So a program breaks off at its first closer that does not fit the innermost open scope, and no
program with that closer there is nested. Where nothing breaks off, the innermost open scope at the end is
the last one whose opener has no closer.
-/

namespace Lamplighter

section Behind

variable (front : List Token) (token : Token) (back : List Token) (ahead : Nat)

private theorem getElem?_behind : (front ++ token :: back)[front.length + ahead + 1]? = back[ahead]? := by
  rw [List.getElem?_append_right (by omega), Nat.add_assoc, Nat.add_sub_cancel_left, List.getElem?_cons_succ]

private theorem drop_behind : (front ++ token :: back).drop (front.length + ahead + 1) = back.drop ahead := by
  rw [Nat.add_assoc, List.drop_length_add_append, List.drop_succ_cons]

end Behind

namespace Forest

def append : Forest → Forest → Forest
  | nil, after => after
  | leaf token plain rest, after => leaf token plain (rest.append after)
  | node scope opener opens body rest, after => node scope opener opens body (rest.append after)

theorem flatten_append (forest after : Forest) :
    (forest.append after).flatten = forest.flatten ++ after.flatten := by
  induction forest with
  | nil => rfl
  | leaf token plain rest ih => rw [append, flatten, flatten, ih, List.cons_append]
  | node scope opener opens body rest _ ih =>
    rw [append, flatten, flatten, ih, List.cons_append, List.append_assoc, List.cons_append]

/-- Every opener of a flat forest has its closer in it, behind another flat forest, and without the whole
scope a flat forest is left. -/
theorem exists_around (forest : Forest) {index : Nat} {opener : Token} {scope : Scope}
    (stands : forest.flatten[index]? = some opener) (opens : opener.kind = .opens scope) :
    ∃ (front back : List Token) (inside around : Forest), front.length = index ∧
      forest.flatten = front ++ opener :: (inside.flatten ++ scope.closer :: back) ∧
      around.flatten = front ++ back := by
  induction forest generalizing index with
  | nil => cases stands
  | leaf token plain rest ih =>
    cases index with
    | zero =>
      cases stands
      exact absurd opens (plain scope).1
    | succ index =>
      obtain ⟨front, back, inside, around, rfl, split, joined⟩ := ih stands
      exact ⟨token :: front, back, inside, .leaf token plain around, rfl, congrArg (token :: ·) split,
        congrArg (token :: ·) joined⟩
  | node other first opened body rest bodyIh restIh =>
    cases index with
    | zero =>
      cases stands
      rw [opens] at opened
      cases opened
      exact ⟨[], rest.flatten, body, rest, rfl, rfl, rfl⟩
    | succ index =>
      rw [flatten, List.getElem?_cons_succ] at stands
      rcases Nat.lt_trichotomy index body.flatten.length with within | rfl | beyond
      · rw [List.getElem?_append_left within] at stands
        obtain ⟨front, back, inside, around, rfl, split, joined⟩ := bodyIh stands
        refine ⟨first :: front, back ++ other.closer :: rest.flatten, inside,
          .node other first opened around rest, rfl, ?_, ?_⟩
        · simp [flatten, split]
        · simp [flatten, joined]
      · rw [List.getElem?_append_right (Nat.le_refl _), Nat.sub_self] at stands
        cases stands
        rw [Token.kind_closer] at opens
        cases opens
      · obtain ⟨ahead, rfl⟩ := Nat.exists_eq_add_of_lt beyond
        rw [getElem?_behind] at stands
        obtain ⟨front, back, inside, around, rfl, split, joined⟩ := restIh stands
        refine ⟨first :: (body.flatten ++ other.closer :: front), back, inside,
          .node other first opened body around, ?_, ?_, ?_⟩
        · simp [Nat.add_assoc]
        · simp [flatten, split]
        · simp [flatten, joined]

/-- The tokens behind an opener start with a flat forest and the closer. -/
theorem exists_closed (forest : Forest) {index : Nat} {opener : Token} {scope : Scope}
    (stands : forest.flatten[index]? = some opener) (opens : opener.kind = .opens scope) :
    ∃ inside : Forest, inside.flatten ++ [scope.closer] <+: forest.flatten.drop (index + 1) := by
  obtain ⟨front, back, inside, _, rfl, split, _⟩ := forest.exists_around stands opens
  exact ⟨inside, back, by simp [split]⟩

end Forest

namespace Nesting

/-- Some nested program starts with the tokens. -/
def Extendable (tokens : List Token) : Prop :=
  ∃ (rest : List Token) (forest : Forest), forest.flatten = tokens ++ rest

/-- The shortest start of a program that no nested program has ends at an index. -/
def BreaksAt (program : List Token) (index : Nat) : Prop :=
  index < program.length ∧ ¬ Extendable (program.take (index + 1)) ∧
    ∀ length ≤ index, Extendable (program.take length)

/-- An opener stands at an index, and no flat forest behind it is followed by its closer. -/
def Unclosed (program : List Token) (index : Nat) : Prop :=
  ∃ opener scope, program[index]? = some opener ∧ opener.kind = .opens scope ∧
    ∀ inside : Forest, ¬ inside.flatten ++ [scope.closer] <+: program.drop (index + 1)

theorem Extendable.of_isPrefix {tokens longer : List Token} (extendable : Extendable longer)
    (shorter : tokens <+: longer) : Extendable tokens := by
  obtain ⟨rest, forest, flat⟩ := extendable
  obtain ⟨left, rfl⟩ := shorter
  exact ⟨left ++ rest, forest, by rw [flat, List.append_assoc]⟩

/-- The tokens leave the given scopes open, innermost first, with a flat forest before the first of their
openers and behind each. -/
inductive Leaves : List Opened → List Token → Prop where
  | nested (forest : Forest) : Leaves [] forest.flatten
  | opened {outer : List Opened} {tokens : List Token} {scope : Scope} {opener : Token}
      (before : Leaves outer tokens) (opens : opener.kind = .opens scope) (inside : Forest) :
      Leaves (⟨scope, tokens.length⟩ :: outer) (tokens ++ opener :: inside.flatten)

namespace Leaves

variable {opened : List Opened} {tokens : List Token}

theorem append (leaves : Leaves opened tokens) (forest : Forest) : Leaves opened (tokens ++ forest.flatten) := by
  cases leaves with
  | nested row =>
    rw [← Forest.flatten_append]
    exact .nested _
  | opened before opens inside =>
    rw [List.append_assoc, List.cons_append, ← Forest.flatten_append]
    exact .opened before opens _

theorem close {innermost : Opened} {outer : List Opened} (leaves : Leaves (innermost :: outer) tokens) :
    Leaves outer (tokens ++ [innermost.scope.closer]) := by
  cases leaves with
  | opened before opens inside =>
    rw [List.append_assoc]
    exact before.append (.node _ _ opens inside .nil)

/-- The check has come to the scopes that are left open. -/
theorem check_append (leaves : Leaves opened tokens) (rest : List Token) :
    check (tokens ++ rest) = checkFrom opened tokens.length rest := by
  induction leaves generalizing rest with
  | nested forest =>
    have passed := checkFrom_flatten [] 0 forest rest
    rwa [Nat.zero_add] at passed
  | @opened outer tokens scope opener before opens inside ih =>
    rw [List.append_assoc, List.cons_append, ih, checkFrom_open _ _ _ _ _ opens, checkFrom_flatten]
    congr 1
    simp only [Forest.size, List.length_append, List.length_cons]
    omega

/-- What leaves scopes open can be continued by closing them. -/
theorem extendable (leaves : Leaves opened tokens) : Extendable tokens := by
  induction opened generalizing tokens with
  | nil =>
    cases leaves with
    | nested forest => exact ⟨[], forest, (List.append_nil _).symm⟩
  | cons innermost outer ih => exact (ih leaves.close).of_isPrefix (List.prefix_append _ _)

theorem check_of_open {innermost : Opened} {outer : List Opened} (leaves : Leaves (innermost :: outer) tokens) :
    check tokens = .error ⟨.unclosed innermost.scope, some innermost.index⟩ := by
  have checked := leaves.check_append []
  rwa [List.append_nil] at checked

/-- Nothing behind the opener of the innermost open scope closes it. -/
theorem unclosed {innermost : Opened} {outer : List Opened} (leaves : Leaves (innermost :: outer) tokens) :
    Unclosed tokens innermost.index := by
  cases leaves with
  | @opened _ front scope opener before opens inside =>
    refine ⟨opener, scope, by simp, opens, fun forest closed => ?_⟩
    obtain ⟨back, split⟩ := closed
    have behind : (front ++ opener :: inside.flatten).drop (front.length + 1) = inside.flatten := by simp
    -- The forest behind the opener would have a closer too many.
    have accepted : check inside.flatten = .ok () := (check_eq_ok_iff _).mpr ⟨inside, rfl⟩
    rw [← behind, ← split, List.append_assoc, (nested forest).check_append] at accepted
    simp [checkFrom] at accepted

/-- The openers behind that one are all closed. -/
theorem le_of_unclosed {innermost : Opened} {outer : List Opened} (leaves : Leaves (innermost :: outer) tokens)
    {index : Nat} (unclosed : Unclosed tokens index) : index ≤ innermost.index := by
  cases leaves with
  | @opened _ front scope first before _ inside =>
    obtain ⟨opener, other, stands, opens, stays⟩ := unclosed
    by_contra later
    obtain ⟨ahead, rfl⟩ := Nat.exists_eq_add_of_lt (Nat.not_le.mp later)
    rw [getElem?_behind] at stands
    rw [Nat.add_assoc _ ahead, drop_behind] at stays
    obtain ⟨closing, closed⟩ := inside.exists_closed stands opens
    exact stays closing closed

end Leaves

/-- A closer of the given kind does not fit the innermost open scope, or there is none. -/
def Misfits (opened : List Opened) (scope : Scope) : Prop :=
  ∀ innermost ∈ opened.head?, innermost.scope ≠ scope

/-- A program leaves scopes open, or it has a first closer that does not fit. -/
theorem leaves_or_misfits (program : List Token) :
    (∃ opened, Leaves opened program) ∨
      ∃ front token back opened scope, program = front ++ token :: back ∧ Leaves opened front ∧
        token.kind = .closes scope ∧ Misfits opened scope := by
  induction program using List.reverseRecOn with
  | nil => exact .inl ⟨[], .nested .nil⟩
  | append_singleton program token ih =>
    rcases ih with ⟨opened, leaves⟩ | ⟨front, closer, back, opened, scope, rfl, leaves, closes, misfits⟩
    · cases kind : token.kind with
      | opens scope => exact .inl ⟨_, .opened leaves kind .nil⟩
      | closes scope =>
        by_cases misfits : Misfits opened scope
        · exact .inr ⟨program, token, [], opened, scope, rfl, leaves, kind, misfits⟩
        · obtain ⟨innermost, first, same⟩ : ∃ innermost ∈ opened.head?, innermost.scope = scope := by
            simpa [Misfits] using misfits
          obtain ⟨outer, rfl⟩ := List.head?_eq_some_iff.mp first
          rw [(Token.kind_eq_closes_iff token scope).mp kind, ← same]
          exact .inl ⟨outer, leaves.close⟩
      | _ =>
        have plain : token.IsLeaf := fun scope => by simp [kind]
        exact .inl ⟨opened, leaves.append (.leaf token plain .nil)⟩
    · exact .inr ⟨front, closer, back ++ [token], opened, scope, by simp, leaves, closes, misfits⟩

/-- A closer that does not fit is at fault, whatever comes after it. -/
theorem Leaves.check_of_misfits {opened : List Opened} {front : List Token} {token : Token} {scope : Scope}
    (leaves : Leaves opened front) (closes : token.kind = .closes scope) (misfits : Misfits opened scope)
    (back : List Token) : ∃ problem, check (front ++ token :: back) = .error ⟨problem, some front.length⟩ := by
  rw [leaves.check_append, checkFrom]
  simp only [closes]
  cases opened with
  | nil => exact ⟨_, rfl⟩
  | cons innermost outer =>
    dsimp only
    rw [if_neg (misfits innermost rfl)]
    exact ⟨_, rfl⟩

/-- A program breaks off at its first closer that does not fit. -/
theorem Leaves.breaksAt {opened : List Opened} {front : List Token} {token : Token} {scope : Scope}
    (leaves : Leaves opened front) (closes : token.kind = .closes scope) (misfits : Misfits opened scope)
    (back : List Token) : BreaksAt (front ++ token :: back) front.length := by
  refine ⟨by simp, ?_, fun length short => ?_⟩
  · rintro ⟨rest, forest, flat⟩
    obtain ⟨problem, refused⟩ := leaves.check_of_misfits closes misfits rest
    have accepted : check forest.flatten = .ok () := (check_eq_ok_iff _).mpr ⟨forest, rfl⟩
    rw [flat, List.take_length_add_append, List.take_succ_cons, List.take_zero, List.append_assoc,
      List.singleton_append, refused] at accepted
    cases accepted
  · refine leaves.extendable.of_isPrefix ?_
    rw [List.take_append_of_le_length short]
    exact List.take_prefix _ _

/-- The check accepts exactly the flat forests, where openers are known by their keywords, closers by their
exact spelling, and all other tokens are neutral. If no nested program starts as a program does, the end of
the shortest such start is at fault, and otherwise the last opener that has no closer. -/
theorem check_finds_first_fault (program : List Token) :
    (∀ (token : Token) (scope : Scope), (token.kind = .opens scope ↔ token.keyword = scope.opener) ∧
      (token.kind = .closes scope ↔ token = scope.closer)) ∧
    (check program = .ok () ↔ ∃ forest : Forest, forest.flatten = program) ∧
    ((∃ front, front <+: program ∧ ¬ Extendable front) → ∃ index problem,
      BreaksAt program index ∧ check program = .error ⟨problem, some index⟩) ∧
    ((∀ front, front <+: program → Extendable front) → (¬ ∃ forest : Forest, forest.flatten = program) →
      ∃ index scope, (Unclosed program index ∧ ∀ other, Unclosed program other → other ≤ index) ∧
        check program = .error ⟨.unclosed scope, some index⟩) := by
  refine ⟨fun token scope => ⟨token.kind_eq_opens_iff scope, token.kind_eq_closes_iff scope⟩,
    check_eq_ok_iff program, ?_, ?_⟩
  · rintro ⟨front, first, broken⟩
    rcases leaves_or_misfits program with ⟨opened, leaves⟩ |
      ⟨front, token, back, opened, scope, rfl, leaves, closes, misfits⟩
    · exact absurd (leaves.extendable.of_isPrefix first) broken
    · obtain ⟨problem, refused⟩ := leaves.check_of_misfits closes misfits back
      exact ⟨front.length, problem, leaves.breaksAt closes misfits back, refused⟩
  · intro extendable unnested
    rcases leaves_or_misfits program with ⟨opened, leaves⟩ |
      ⟨front, token, back, opened, scope, rfl, leaves, closes, misfits⟩
    · cases opened with
      | nil =>
        cases leaves with
        | nested forest => exact absurd ⟨forest, rfl⟩ unnested
      | cons innermost outer =>
        exact ⟨innermost.index, innermost.scope, ⟨leaves.unclosed, fun _ => leaves.le_of_unclosed⟩,
          leaves.check_of_open⟩
    · exact absurd (extendable _ (List.take_prefix _ _)) (leaves.breaksAt closes misfits back).2.1

/-- A loop that is closed while a definition inside it is open, which breaks the program off there, and two
scopes that are left open, of which the inner one is at fault although a closed loop comes after its
opener. -/
theorem check_finds_first_fault_of_crossed :
    let crossed := ["REPEAT 2".toList, "FUNCTION F".toList, "ENDREPEAT".toList, "ENDFUNCTION".toList]
    let left := ["REPEAT 2".toList, "FUNCTION F".toList, "REPEAT 3".toList, "ENDREPEAT".toList]
    (∃ index problem, BreaksAt crossed index ∧ check crossed = .error ⟨problem, some index⟩) ∧
      check crossed = .error ⟨.crossed .loop .definition 1, some 2⟩ ∧
      (∃ index scope, (Unclosed left index ∧ ∀ other, Unclosed left other → other ≤ index) ∧
        check left = .error ⟨.unclosed scope, some index⟩) ∧
      check left = .error ⟨.unclosed .definition, some 1⟩ := by
  intro crossed left
  have refused (rest : List Token) :
      check (crossed.take 3 ++ rest) = .error ⟨.crossed .loop .definition 1, some 2⟩ := rfl
  have broken : ¬ Extendable (crossed.take 3) := by
    rintro ⟨rest, forest, flat⟩
    have accepted : check forest.flatten = .ok () := (check_eq_ok_iff _).mpr ⟨forest, rfl⟩
    rw [flat, refused] at accepted
    cases accepted
  have extendable : Extendable left := by
    have accepted : check (left ++ ["ENDFUNCTION".toList, "ENDREPEAT".toList]) = .ok () := rfl
    exact ⟨_, (check_eq_ok_iff _).mp accepted⟩
  have unnested : ¬ ∃ forest : Forest, forest.flatten = left := by
    rw [← check_eq_ok_iff]
    exact nofun
  obtain ⟨_, _, breaks, _⟩ := check_finds_first_fault crossed
  obtain ⟨_, _, _, stays⟩ := check_finds_first_fault left
  exact ⟨breaks ⟨crossed.take 3, List.take_prefix _ _, broken⟩, refused ["ENDFUNCTION".toList],
    stays (fun _ first => extendable.of_isPrefix first) unnested, rfl⟩

end Nesting

end Lamplighter
