import Lamplighter.Proofs.Extents
import Lamplighter.Proofs.Prefixes

/-! # Closers and the scopes they close

The nesting check keeps the open scopes of both kinds in one list, and a scan for the end of a scope counts
the scopes of its own kind alone. Where the check takes a scope off its list, a flat forest stands between
the opener and the closer, in every program; a scan passes over that forest and stops at the same closer. In a
nested program every opener has such a closer, and what stands inside the scope and around it is nested too.
-/

namespace Lamplighter

namespace Nesting

/-- The scopes that are open behind one more token, with its index, or the fault of a closer that does not
fit. -/
def step (opened : List Opened) (entry : Token × Nat) : Except Malformed (List Opened) :=
  match entry.1.kind with
  | .opens scope => .ok (⟨scope, entry.2⟩ :: opened)
  | .closes scope =>
    match opened with
    | [] => .error ⟨.unopened scope, some entry.2⟩
    | innermost :: outer =>
      if innermost.scope = scope then .ok outer
      else .error ⟨.crossed scope innermost.scope innermost.index, some entry.2⟩
  | _ => .ok opened

/-- The verdict at the end: the innermost scope that is still open is at fault. -/
def finish : List Opened → Except Malformed Unit
  | [] => .ok ()
  | innermost :: _ => .error ⟨.unclosed innermost.scope, some innermost.index⟩

/-- The check goes from token to token, and then looks at what has stayed open. -/
theorem checkFrom_eq_foldlM (opened : List Opened) (index : Nat) (tokens : List Token) :
    checkFrom opened index tokens = (tokens.zipIdx index).foldlM step opened >>= finish := by
  induction tokens generalizing opened index with
  | nil => cases opened <;> rfl
  | cons token rest ih =>
    rw [checkFrom, List.zipIdx_cons, List.foldlM_cons]
    simp only [step]
    cases token.kind with
    | closes scope =>
      cases opened with
      | nil => rfl
      | cons innermost outer =>
        dsimp only
        split_ifs
        · exact ih _ _
        · rfl
    | _ => exact ih _ _

theorem step_leaf {token : Token} (plain : token.IsLeaf) (opened : List Opened) (index : Nat) :
    step opened (token, index) = .ok opened := by
  unfold step
  split
  · exact absurd ‹_› (plain _).1
  · exact absurd ‹_› (plain _).2
  · rfl

theorem step_open {token : Token} {scope : Scope} (opens : token.kind = .opens scope) (opened : List Opened)
    (index : Nat) : step opened (token, index) = .ok (⟨scope, index⟩ :: opened) := by
  simp only [step, opens]

theorem step_close (innermost : Opened) (outer : List Opened) (index : Nat) :
    step (innermost :: outer) (innermost.scope.closer, index) = .ok outer := by
  simp only [step, Token.kind_closer, if_true]

/-- One token opens a scope, closes the innermost one, or leaves the open scopes as they are. -/
theorem step_eq_ok_iff {opened next : List Opened} {token : Token} {index : Nat} :
    step opened (token, index) = .ok next ↔
      (∃ scope, token.kind = .opens scope ∧ next = ⟨scope, index⟩ :: opened) ∨
      (∃ innermost, token = innermost.scope.closer ∧ opened = innermost :: next) ∨
      token.IsLeaf ∧ next = opened := by
  constructor
  · intro goes
    unfold step at goes
    split at goes
    · rename_i scope opens
      cases goes
      exact .inl ⟨scope, opens, rfl⟩
    · rename_i scope closes
      split at goes
      · cases goes
      · rename_i innermost outer
        split_ifs at goes with same
        cases goes
        rw [same.symm] at closes
        exact .inr (.inl ⟨innermost, (Token.kind_eq_closes_iff token _).mp closes, rfl⟩)
    · rename_i neutral stays
      cases goes
      exact .inr (.inr ⟨fun scope => ⟨neutral scope, stays scope⟩, rfl⟩)
  · rintro (⟨scope, opens, rfl⟩ | ⟨innermost, rfl, rfl⟩ | ⟨plain, rfl⟩)
    · exact step_open opens opened index
    · exact step_close innermost next index
    · exact step_leaf plain next index

/-- A flat forest leaves the open scopes as they are. -/
theorem foldlM_step_flatten (forest : Forest) (opened : List Opened) (index : Nat) :
    (forest.flatten.zipIdx index).foldlM step opened = .ok opened := by
  induction forest generalizing opened index with
  | nil => rfl
  | leaf token plain rest ih =>
    rw [Forest.flatten, List.zipIdx_cons, List.foldlM_cons, step_leaf plain]
    exact ih opened (index + 1)
  | node scope opener opens body rest bodyIh restIh =>
    calc (((Forest.node scope opener opens body rest).flatten.zipIdx index).foldlM step opened)
        = ((body.flatten ++ scope.closer :: rest.flatten).zipIdx (index + 1)).foldlM step
            (⟨scope, index⟩ :: opened) := by
          rw [Forest.flatten, List.zipIdx_cons, List.foldlM_cons, step_open opens]
          rfl
      _ = ((scope.closer :: rest.flatten).zipIdx (index + 1 + body.flatten.length)).foldlM step
            (⟨scope, index⟩ :: opened) := by
          rw [List.zipIdx_append, List.foldlM_append, bodyIh]
          rfl
      _ = .ok opened := by
          rw [List.zipIdx_cons, List.foldlM_cons, step_close ⟨scope, index⟩]
          exact restIh opened _

/-- The scopes that the check has open when it comes to a place, innermost first. -/
def openBefore (program : List Token) (place : Nat) : Except Malformed (List Opened) :=
  (program.take place).zipIdx.foldlM step []

section Places

variable {program : List Token} {place : Nat} {opened : List Opened}

/-- What is open behind a token comes from what is open before it. -/
theorem openBefore_succ {token : Token} (stands : program[place]? = some token) :
    openBefore program (place + 1) = openBefore program place >>= (step · (token, place)) := by
  have within := (List.getElem?_eq_some_iff.mp stands).1
  unfold openBefore
  rw [List.take_add_one, stands, Option.toList_some, List.zipIdx_append, List.foldlM_append,
    List.length_take_of_le (Nat.le_of_lt within), Nat.zero_add]
  simp

/-- Behind the last token nothing changes any more. -/
theorem openBefore_of_length_le (beyond : program.length ≤ place) :
    openBefore program (place + 1) = openBefore program place := by
  unfold openBefore
  rw [List.take_of_length_le beyond, List.take_of_length_le (Nat.le_succ_of_le beyond)]

/-- From every place the check goes on with the scopes that are open there. -/
theorem check_eq_openBefore_bind (program : List Token) (place : Nat) :
    check program = openBefore program place >>= (checkFrom · place (program.drop place)) := by
  rcases Nat.le_total place program.length with within | beyond
  · have rest (opened : List Opened) := checkFrom_eq_foldlM opened place (program.drop place)
    calc check program
        = (program.take place ++ program.drop place).zipIdx.foldlM step [] >>= finish := by
          rw [List.take_append_drop, check, checkFrom_eq_foldlM]
      _ = openBefore program place >>= (checkFrom · place (program.drop place)) := by
          rw [List.zipIdx_append, List.foldlM_append, bind_assoc, List.length_take_of_le within, Nat.zero_add,
            openBefore]
          simp only [rest]
  · rw [List.drop_of_length_le beyond, openBefore, List.take_of_length_le beyond, check, checkFrom_eq_foldlM]
    rfl

/-- What the check has open at a place is what the tokens before it leave open. -/
theorem leaves_of_openBefore (reached : openBefore program place = .ok opened) :
    Leaves opened (program.take place) := by
  induction place generalizing opened with
  | zero =>
    cases reached
    exact .nested .nil
  | succ place ih =>
    cases stands : program[place]? with
    | none =>
      have beyond := List.getElem?_eq_none_iff.mp stands
      rw [openBefore_of_length_le beyond] at reached
      rw [List.take_of_length_le (Nat.le_succ_of_le beyond), ← List.take_of_length_le beyond]
      exact ih reached
    | some token =>
      have within := (List.getElem?_eq_some_iff.mp stands).1
      have length := List.length_take_of_le (Nat.le_of_lt within)
      rw [openBefore_succ stands] at reached
      rw [List.take_add_one, stands, Option.toList_some]
      cases before : openBefore program place with
      | error fault =>
        rw [before] at reached
        cases reached
      | ok outer =>
        rw [before] at reached
        -- Each of the three things that a token can do extends the forests before the place.
        rcases step_eq_ok_iff.mp reached with ⟨scope, opens, rfl⟩ | ⟨innermost, rfl, rfl⟩ | ⟨plain, rfl⟩
        · have opened := (ih before).opened opens .nil
          rwa [length] at opened
        · exact (ih before).close
        · exact (ih before).append (.leaf token plain .nil)

theorem Leaves.openBefore_append {tokens : List Token} (leaves : Leaves opened tokens) (rest : List Token) :
    openBefore (tokens ++ rest) tokens.length = .ok opened := by
  rw [openBefore, List.take_left]
  induction leaves with
  | nested forest => exact foldlM_step_flatten forest [] 0
  | @opened outer tokens scope opener before opens inside ih =>
    rw [List.zipIdx_append, List.foldlM_append, ih, Nat.zero_add, List.zipIdx_cons]
    change List.foldlM step outer _ = _
    rw [List.foldlM_cons, step_open opens]
    exact foldlM_step_flatten inside _ _

end Places

/-- At a place the check takes the scope that was opened at an index off the open ones. -/
def ClosesAt (program : List Token) (index place : Nat) : Prop :=
  ∃ innermost outer, innermost.index = index ∧ openBefore program place = .ok (innermost :: outer) ∧
    openBefore program (place + 1) = .ok outer

/-- Where the innermost scope is taken off, its closer stands. -/
private theorem closer_of_openBefore {program : List Token} {place : Nat} {innermost : Opened}
    {outer : List Opened} (before : openBefore program place = .ok (innermost :: outer))
    (behind : openBefore program (place + 1) = .ok outer) :
    program[place]? = some innermost.scope.closer := by
  cases stands : program[place]? with
  | none =>
    rw [openBefore_of_length_le (List.getElem?_eq_none_iff.mp stands), before] at behind
    simp at behind
  | some token =>
    rw [openBefore_succ stands, before] at behind
    rcases step_eq_ok_iff.mp behind with ⟨scope, _, longer⟩ | ⟨_, rfl, same⟩ | ⟨_, same⟩
    · have lengths := congrArg List.length longer
      simp only [List.length_cons] at lengths
      omega
    · cases same
      rfl
    · simp at same

/-- A scope is closed behind a flat forest, in every program. -/
theorem closesAt_iff {program : List Token} {index place : Nat} :
    ClosesAt program index place ↔
      ∃ (front back : List Token) (opener : Token) (scope : Scope) (inside : Forest) (outer : List Opened),
        program = front ++ opener :: (inside.flatten ++ scope.closer :: back) ∧ front.length = index ∧
        index + inside.size + 1 = place ∧ opener.kind = .opens scope ∧ Leaves outer front := by
  constructor
  · rintro ⟨innermost, outer, rfl, before, behind⟩
    have stands := closer_of_openBefore before behind
    obtain ⟨within, closer⟩ := List.getElem?_eq_some_iff.mp stands
    have whole := List.take_append_drop place program
    rw [List.drop_eq_getElem_cons within, closer] at whole
    have length := List.length_take_of_le (Nat.le_of_lt within)
    have leaves := leaves_of_openBefore before
    generalize program.take place = tokens at leaves whole length
    cases leaves with
    | @opened _ front scope opener inner opens inside =>
      refine ⟨front, program.drop (place + 1), opener, scope, inside, outer, ?_, rfl, ?_, opens, inner⟩
      · rwa [List.append_assoc, List.cons_append, eq_comm] at whole
      · rw [List.length_append, List.length_cons] at length
        rw [Forest.size]
        omega
  · rintro ⟨front, back, opener, scope, inside, outer, rfl, rfl, rfl, opens, leaves⟩
    have inner := leaves.opened opens inside
    have length : (front ++ opener :: inside.flatten).length = front.length + inside.size + 1 := by
      simp [Forest.size, Nat.add_assoc]
    have before := inner.openBefore_append (scope.closer :: back)
    have behind := inner.close.openBefore_append back
    rw [List.length_append, length] at behind
    rw [length, List.append_assoc, List.cons_append] at before
    rw [List.append_assoc, List.append_assoc, List.cons_append] at behind
    exact ⟨⟨scope, front.length⟩, outer, rfl, before, behind⟩

end Nesting

/-- The scan for a closer stops behind the flat forest. -/
theorem Scope.endIndex_flatten (scope : Scope) (front : List Token) (opener : Token) (inside : Forest)
    (back : List Token) :
    scope.endIndex (front ++ opener :: (inside.flatten ++ scope.closer :: back)) front.length =
      front.length + inside.size + 1 := by
  have behind : (front ++ opener :: (inside.flatten ++ scope.closer :: back)).drop (front.length + 1) =
      inside.flatten ++ scope.closer :: back := by simp
  have ends := scope.endAt_of_lt (front ++ opener :: (inside.flatten ++ scope.closer :: back)) front.length
    (by simp)
  rw [behind, size_flatten] at ends
  rw [← endAt, ends]
  omega

namespace Nesting

/-- A scan from an opener ends where the check takes its scope off, also in a program that is refused. -/
theorem ClosesAt.endIndex_eq {program : List Token} {index place : Nat} {opener : Token} {scope : Scope}
    (closes : ClosesAt program index place) (stands : program[index]? = some opener)
    (opens : opener.kind = .opens scope) : scope.endIndex program index = place := by
  obtain ⟨front, back, first, other, inside, outer, rfl, rfl, rfl, opened, _⟩ := closesAt_iff.mp closes
  obtain rfl : first = opener := by simpa using stands
  rw [opens] at opened
  cases opened
  exact scope.endIndex_flatten front first inside back

/-- An accepted program meets no fault on the way. -/
theorem exists_openBefore {program : List Token} (accepted : check program = .ok ()) (place : Nat) :
    ∃ opened, openBefore program place = .ok opened := by
  rw [check_eq_openBefore_bind program place] at accepted
  cases reached : openBefore program place with
  | error fault =>
    rw [reached] at accepted
    cases accepted
  | ok opened => exact ⟨opened, rfl⟩

/-- Each scope of an accepted program is closed behind a flat forest, and without the scope the program is a
flat forest still. -/
theorem exists_closesAt {program : List Token} {index : Nat} {opener : Token} {scope : Scope}
    (accepted : check program = .ok ()) (stands : program[index]? = some opener)
    (opens : opener.kind = .opens scope) :
    ∃ (front back : List Token) (inside around : Forest), front.length = index ∧
      program = front ++ opener :: (inside.flatten ++ scope.closer :: back) ∧
      around.flatten = front ++ back ∧ ClosesAt program index (index + inside.size + 1) := by
  obtain ⟨forest, flat⟩ := (check_eq_ok_iff program).mp accepted
  obtain ⟨front, back, inside, around, rfl, split, joined⟩ := forest.exists_around (flat ▸ stands) opens
  rw [flat] at split
  obtain ⟨outer, reached⟩ := exists_openBefore accepted front.length
  have leaves := leaves_of_openBefore reached
  rw [split, List.take_left] at leaves
  refine ⟨front, back, inside, around, rfl, split, joined, closesAt_iff.mpr ?_⟩
  exact ⟨front, back, opener, scope, inside, outer, split, rfl, rfl, opens, leaves⟩

section Cut

variable (front inner back : List Token) (opener closer : Token)

private theorem getElem?_cut :
    (front ++ opener :: (inner ++ closer :: back))[front.length + inner.length + 1]? = some closer := by
  rw [List.getElem?_append_right (by omega), Nat.add_assoc, Nat.add_sub_cancel_left, List.getElem?_cons_succ]
  simp

private theorem inside_cut : ((front ++ opener :: (inner ++ closer :: back)).take
    (front.length + inner.length + 1)).drop (front.length + 1) = inner := by
  rw [Nat.add_assoc, List.take_length_add_append, List.take_succ_cons, List.take_left]
  simp

private theorem around_cut : (front ++ opener :: (inner ++ closer :: back)).take front.length ++
    (front ++ opener :: (inner ++ closer :: back)).drop (front.length + inner.length + 1 + 1) =
      front ++ back := by
  rw [List.take_left, Nat.add_assoc, Nat.add_assoc, List.drop_length_add_append, ← Nat.add_assoc,
    List.drop_succ_cons, ← List.drop_drop, List.drop_left, List.drop_one, List.tail_cons]

end Cut

/-- In an accepted program the scan for the end of a scope, which counts openers and closers of one kind,
finds the closer at which the check takes the scope off its open ones, and no other. The tokens inside the
scope are accepted, and so is the program without the scope. What the check has open at a place is all that
it goes on with from there. -/
theorem endIndex_closes_opener {program : List Token} {index : Nat} {opener : Token} {scope : Scope}
    (accepted : check program = .ok ()) (stands : program[index]? = some opener)
    (named : opener.keyword = scope.opener) :
    Scope.ofOpener opener.keyword = .ok scope ∧
    ∃ closing, scope.endIndex program index = closing ∧ index < closing ∧ closing < program.length ∧
      program[closing]? = some scope.closer ∧
      check ((program.take closing).drop (index + 1)) = .ok () ∧
      check (program.take index ++ program.drop (closing + 1)) = .ok () ∧
      (∀ place, check program = openBefore program place >>= (checkFrom · place (program.drop place))) ∧
      ∀ place, ClosesAt program index place ↔ place = closing := by
  have opens := (opener.kind_eq_opens_iff scope).mpr named
  obtain ⟨front, back, inside, around, rfl, split, joined, closes⟩ := exists_closesAt accepted stands opens
  have ends := closes.endIndex_eq stands opens
  have closer : program[front.length + inside.size + 1]? = some scope.closer := by
    rw [split]
    exact getElem?_cut front inside.flatten back opener scope.closer
  refine ⟨by rw [named, Scope.ofOpener, Scope.ofOpener?_opener], _, ends, by omega,
    (List.getElem?_eq_some_iff.mp closer).1, closer, ?_, ?_, check_eq_openBefore_bind program, ?_⟩
  · rw [split, Forest.size, inside_cut]
    exact (check_eq_ok_iff _).mpr ⟨inside, rfl⟩
  · rw [split, Forest.size, around_cut, ← joined]
    exact (check_eq_ok_iff _).mpr ⟨around, rfl⟩
  · intro place
    constructor
    · intro also
      rw [← also.endIndex_eq stands opens, ends]
    · rintro rfl
      exact closes

/-- A definition in a loop, with a loop of its own inside it and a token that only looks like the opener of
one; the closer of the inner loop is passed over. -/
theorem endIndex_closes_opener_of_mixed :
    let program := ["REPEAT 2".toList, "FUNCTION F(x)".toList, "REPEAT x".toList, "REPEAT2".toList,
      "ENDREPEAT".toList, "ENDFUNCTION".toList, "CALL F(3)".toList, "ENDREPEAT".toList]
    check program = .ok () ∧ program[1]? = some "FUNCTION F(x)".toList ∧
      Token.keyword "FUNCTION F(x)".toList = Scope.definition.opener ∧
      Scope.definition.endIndex program 1 = 5 ∧ check [program[2], program[3], program[4]] = .ok () ∧
      check [program[0], program[6], program[7]] = .ok () ∧
      ∀ place, ClosesAt program 1 place ↔ place = 5 := by
  intro program
  have accepted : check program = .ok () := by decide +kernel
  have named : Token.keyword "FUNCTION F(x)".toList = Scope.definition.opener := by decide +kernel
  obtain ⟨_, closing, ends, _, _, _, inside, around, _, closes⟩ :=
    @endIndex_closes_opener program 1 _ .definition accepted rfl named
  obtain rfl : closing = 5 := ends.symm.trans (by decide +kernel)
  exact ⟨accepted, rfl, named, ends, inside, around, closes⟩

end Nesting

end Lamplighter
