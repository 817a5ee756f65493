import Lamplighter.CallGraph.Scan
import Lamplighter.Proofs.Forest

/-! # Extents of scopes in any token list

A scope reaches from its opener to the closer that balances it, and only scopes of one kind are counted for
that. So two scopes of one kind are nested or apart in every token list, while a definition and a loop may
cross: a definition that is opened in a loop may be closed behind it.

An execution and a scan for calls pass through a token list in different ways. The execution takes the body
of a loop by itself and goes on behind the loop. The scan reads on into a loop that may run, and passes over
a definition in it as far as that reaches. They part only where a definition crosses a loop.
-/

namespace Lamplighter

namespace Scope

/-- Scopes that are open inside only push the end further away. -/
theorem sizeFrom_le_succ (scope : Scope) (inner : Nat) (tokens : List Token) :
    scope.sizeFrom inner tokens ≤ scope.sizeFrom (inner + 1) tokens := by
  induction tokens generalizing inner with
  | nil => exact Nat.le_refl _
  | cons token rest ih =>
    simp only [sizeFrom]
    split_ifs
    · cases inner with
      | zero => exact Nat.zero_le _
      | succ inner => exact Nat.succ_le_succ (ih inner)
    · exact Nat.succ_le_succ (ih (inner + 1))
    · exact Nat.succ_le_succ (ih inner)

theorem size_le_sizeFrom (scope : Scope) (inner : Nat) (tokens : List Token) :
    scope.size tokens ≤ scope.sizeFrom inner tokens := by
  induction inner with
  | zero => exact Nat.le_refl _
  | succ inner ih => exact Nat.le_trans ih (sizeFrom_le_succ scope inner tokens)

/-- In a part of the tokens a scope ends where it does in all of them, or with the part. -/
theorem sizeFrom_take (scope : Scope) (inner count : Nat) (tokens : List Token) :
    scope.sizeFrom inner (tokens.take count) = min count (scope.sizeFrom inner tokens) := by
  induction tokens generalizing inner count with
  | nil => simp [sizeFrom]
  | cons token rest ih =>
    cases count with
    | zero => simp [sizeFrom]
    | succ count =>
      rw [List.take_succ_cons]
      simp only [sizeFrom, ih]
      split_ifs
      · cases inner with
        | zero => exact (Nat.min_zero _).symm
        | succ inner => exact (Nat.succ_min_succ _ _).symm
      · exact (Nat.succ_min_succ _ _).symm
      · exact (Nat.succ_min_succ _ _).symm

/-- The place where the scope that is opened at a place ends. -/
def endAt (scope : Scope) (tokens : List Token) (place : Nat) : Nat := scope.endIndex tokens place

section Places

variable (scope : Scope) (token : Token) (tokens : List Token) (place : Nat)

@[simp] theorem endAt_nil : scope.endAt [] place = 0 := by
  simp [endAt, endIndex, size, sizeFrom]

@[simp] theorem endAt_cons_zero : scope.endAt (token :: tokens) 0 = scope.size tokens + 1 := by
  simp [endAt, endIndex, Nat.add_comm]

@[simp] theorem endAt_cons_succ :
    scope.endAt (token :: tokens) (place + 1) = scope.endAt tokens place + 1 := by
  have here : ((place : Nat) + 1 : Int).toNat = place + 1 := by omega
  have next : ((place + 1 : Nat) + 1 : Int).toNat = place + 1 + 1 := by omega
  simp only [endAt, endIndex, here, next, List.drop_succ_cons, List.length_cons, List.length_drop]
  omega

theorem endAt_of_lt (within : place < tokens.length) :
    scope.endAt tokens place = scope.size (tokens.drop (place + 1)) + (place + 1) := by
  have here : ((place : Nat) + 1 : Int).toNat = place + 1 := by omega
  simp only [endAt, endIndex, here, List.length_drop]
  omega

theorem endAt_take (count : Nat) :
    scope.endAt (tokens.take count) place = min count (scope.endAt tokens place) := by
  induction tokens generalizing count place with
  | nil => simp
  | cons token rest ih =>
    cases count with
    | zero => simp
    | succ count =>
      rw [List.take_succ_cons]
      cases place with
      | zero => rw [endAt_cons_zero, endAt_cons_zero, size, sizeFrom_take, Nat.succ_min_succ, size]
      | succ place => rw [endAt_cons_succ, endAt_cons_succ, ih, Nat.succ_min_succ]

theorem endAt_drop {count : Nat} (within : count ≤ tokens.length) :
    scope.endAt tokens (place + count) = scope.endAt (tokens.drop count) place + count := by
  induction tokens generalizing count with
  | nil =>
    obtain rfl := Nat.le_zero.mp within
    rfl
  | cons token rest ih =>
    cases count with
    | zero => rfl
    | succ count =>
      rw [← Nat.add_assoc, endAt_cons_succ, ih (Nat.le_of_succ_le_succ within), List.drop_succ_cons,
        Nat.add_assoc]

end Places

def OpenedAt (scope : Scope) (tokens : List Token) (place : Nat) : Prop :=
  ∃ opener, tokens[place]? = some opener ∧ opener.kind = .opens scope

/-- A scope with nothing to run in it is opened at a place: a definition, or a loop that cannot run. -/
def IdleAt (scope : Scope) (tokens : List Token) (place : Nat) : Prop :=
  ∃ opener, tokens[place]? = some opener ∧ opener.kind = .opens scope ∧
    (scope = .definition ∨ opener.mayLoop = false)

section Openers

variable {scope other : Scope} {tokens : List Token} {place : Nat}

theorem IdleAt.openedAt (idle : scope.IdleAt tokens place) : scope.OpenedAt tokens place := by
  obtain ⟨opener, stands, opens, _⟩ := idle
  exact ⟨opener, stands, opens⟩

theorem OpenedAt.idleAt (opened : definition.OpenedAt tokens place) : definition.IdleAt tokens place := by
  obtain ⟨opener, stands, opens⟩ := opened
  exact ⟨opener, stands, opens, .inl rfl⟩

theorem OpenedAt.lt_length (opened : scope.OpenedAt tokens place) : place < tokens.length := by
  obtain ⟨opener, stands, _⟩ := opened
  exact (List.getElem?_eq_some_iff.mp stands).1

theorem OpenedAt.unique (opened : scope.OpenedAt tokens place) (again : other.OpenedAt tokens place) :
    scope = other := by
  obtain ⟨opener, stands, opens⟩ := opened
  obtain ⟨_, same, opensOther⟩ := again
  rw [stands] at same
  cases same
  rw [opens] at opensOther
  cases opensOther
  rfl

private theorem OpenedAt.endAt_le_sizeFrom {inner : Nat} (opened : scope.OpenedAt tokens place)
    (before : place ≤ scope.sizeFrom inner tokens) :
    scope.endAt tokens place ≤ scope.sizeFrom inner tokens := by
  obtain ⟨opener, stands, opens⟩ := opened
  induction tokens generalizing inner place with
  | nil => cases stands
  | cons token rest ih =>
    cases place with
    | zero =>
      cases stands
      rw [endAt_cons_zero, sizeFrom_open _ _ _ _ opens]
      exact Nat.succ_le_succ (size_le_sizeFrom scope (inner + 1) rest)
    | succ place =>
      rw [List.getElem?_cons_succ] at stands
      rw [endAt_cons_succ]
      simp only [sizeFrom] at before ⊢
      split_ifs at before ⊢
      · cases inner with
        | zero => exact absurd before (Nat.not_succ_le_zero place)
        | succ inner => exact Nat.succ_le_succ (ih (Nat.le_of_succ_le_succ before) stands)
      · exact Nat.succ_le_succ (ih (Nat.le_of_succ_le_succ before) stands)
      · exact Nat.succ_le_succ (ih (Nat.le_of_succ_le_succ before) stands)

/-- A scope that is opened in one of the same kind ends there as well. -/
theorem OpenedAt.endAt_le {around : Nat} (opened : scope.OpenedAt tokens place) (after : around < place)
    (before : place ≤ scope.endAt tokens around) :
    scope.endAt tokens place ≤ scope.endAt tokens around := by
  induction tokens generalizing around place with
  | nil => simp
  | cons token rest ih =>
    obtain ⟨place, rfl⟩ := Nat.exists_eq_succ_of_ne_zero (Nat.ne_zero_of_lt after)
    have later : scope.OpenedAt rest place := opened
    rw [Nat.succ_eq_add_one, endAt_cons_succ]
    cases around with
    | zero =>
      rw [endAt_cons_zero] at before ⊢
      exact Nat.succ_le_succ (later.endAt_le_sizeFrom (Nat.le_of_succ_le_succ before))
    | succ around =>
      rw [endAt_cons_succ] at before ⊢
      exact Nat.succ_le_succ (ih later (Nat.lt_of_succ_lt_succ after) (Nat.le_of_succ_le_succ before))

end Openers

end Scope

/-- A part of a token list that stands in it without a gap, behind a number of tokens. -/
def Slice (part whole : List Token) (offset : Nat) : Prop := ∃ count, part = (whole.drop offset).take count

namespace Slice

variable {part whole : List Token} {offset place : Nat} {scope : Scope}

theorem drop (whole : List Token) (offset : Nat) : Slice (whole.drop offset) whole offset :=
  ⟨(whole.drop offset).length, List.take_length.symm⟩

theorem getElem?_eq (slice : Slice part whole offset) (within : place < part.length) :
    part[place]? = whole[place + offset]? := by
  obtain ⟨count, rfl⟩ := slice
  rw [List.length_take] at within
  rw [List.getElem?_take_of_lt (by omega), List.getElem?_drop, Nat.add_comm]

/-- A scope that ends in the part ends at the same token of the whole. -/
theorem endAt_eq (slice : Slice part whole offset) (ends : scope.endAt part place < part.length) :
    scope.endAt whole (place + offset) = scope.endAt part place + offset := by
  obtain ⟨count, rfl⟩ := slice
  rw [List.length_take, List.length_drop, Scope.endAt_take] at ends
  rw [Scope.endAt_take, Scope.endAt_drop _ _ _ (by omega)]
  omega

theorem openedAt_iff (slice : Slice part whole offset) (within : place < part.length) :
    scope.OpenedAt part place ↔ scope.OpenedAt whole (place + offset) := by
  rw [Scope.OpenedAt, Scope.OpenedAt, slice.getElem?_eq within]

theorem idleAt_iff (slice : Slice part whole offset) (within : place < part.length) :
    scope.IdleAt part place ↔ scope.IdleAt whole (place + offset) := by
  rw [Scope.IdleAt, Scope.IdleAt, slice.getElem?_eq within]

end Slice

namespace Execution

/-- The places of a token list that an execution may come to, in the list itself and in the bodies of its
loops. -/
inductive MayReach : List Token → Nat → Prop where
  | here (token : Token) (tokens : List Token) : MayReach (token :: tokens) 0
  | pass {token : Token} {tokens : List Token} {place : Nat} (plain : ∀ scope, token.kind ≠ .opens scope)
      (later : MayReach tokens place) : MayReach (token :: tokens) (place + 1)
  | inside {token : Token} {tokens : List Token} {place : Nat} (opens : token.kind = .opens .loop)
      (runs : token.mayLoop = true) (within : MayReach (Scope.loop.body tokens) place) :
      MayReach (token :: tokens) (place + 1)
  | after {token : Token} {tokens : List Token} {place : Nat} {scope : Scope}
      (opens : token.kind = .opens scope) (later : MayReach (tokens.drop (scope.size tokens + 1)) place) :
      MayReach (token :: tokens) (place + (scope.size tokens + 2))

theorem MayReach.lt_length {tokens : List Token} {place : Nat} (reached : MayReach tokens place) :
    place < tokens.length := by
  induction reached with
  | here token tokens => exact Nat.zero_lt_succ _
  | pass plain later ih => exact Nat.succ_lt_succ ih
  | @inside token tokens place opens runs within ih =>
    rw [Scope.length_body] at ih
    exact Nat.succ_lt_succ (Nat.lt_of_lt_of_le ih (Scope.loop.sizeFrom_le_length 0 tokens))
  | after opens later ih =>
    rw [List.length_drop] at ih
    rw [List.length_cons]
    omega

/-- Before it comes to a place, an execution has left out another one, in a scope around it. -/
def LeavesOut (tokens : List Token) (spot place : Nat) : Prop :=
  ∃ around scope, MayReach tokens around ∧ Scope.OpenedAt scope tokens around ∧ around < spot ∧
    spot ≤ scope.endAt tokens around ∧ scope.endAt tokens around < place

/-- An idle scope has ended before a place, or its opener was left out. -/
private def Cleared (scope : Scope) (tokens : List Token) (spot place : Nat) : Prop :=
  scope.endAt tokens spot < place ∨ LeavesOut tokens spot place

private theorem Cleared.of_slice {part whole : List Token} {offset spot place : Nat} {scope : Scope}
    (slice : Slice part whole offset)
    (reaches : ∀ place, MayReach part place → MayReach whole (place + offset)) (within : place < part.length)
    (cleared : Cleared scope part spot place) : Cleared scope whole (spot + offset) (place + offset) := by
  rcases cleared with ended | ⟨around, other, reached, opened, first, covers, ended⟩
  · refine .inl ?_
    rw [slice.endAt_eq (Nat.lt_trans ended within)]
    exact Nat.add_lt_add_right ended offset
  · have moved := slice.endAt_eq (Nat.lt_trans ended within)
    refine .inr ⟨around + offset, other, reaches around reached,
      (slice.openedAt_iff reached.lt_length).mp opened, Nat.add_lt_add_right first offset, ?_, ?_⟩
    · rw [moved]
      exact Nat.add_le_add_right covers offset
    · rw [moved]
      exact Nat.add_lt_add_right ended offset

/-- What an execution comes to does not stand in an idle scope, unless the opener of that was left out. -/
private theorem MayReach.cleared {tokens : List Token} {place spot : Nat} {scope : Scope}
    (reached : MayReach tokens place) (idle : scope.IdleAt tokens spot) (before : spot < place) :
    Cleared scope tokens spot place := by
  induction reached generalizing spot with
  | here token tokens => exact absurd before (Nat.not_lt_zero spot)
  | @pass token tokens place plain later ih =>
    cases spot with
    | zero =>
      obtain ⟨opener, stands, opens, _⟩ := idle
      cases stands
      exact absurd opens (plain scope)
    | succ spot =>
      exact (ih idle (Nat.lt_of_succ_lt_succ before)).of_slice (.drop _ 1) (fun _ => .pass plain)
        later.lt_length
  | @inside token tokens place opens runs within ih =>
    have slice : Slice (Scope.loop.body tokens) (token :: tokens) 1 := ⟨Scope.loop.size tokens, rfl⟩
    cases spot with
    | zero =>
      obtain ⟨opener, stands, same, idles⟩ := idle
      cases stands
      rw [opens] at same
      cases same
      simp [runs] at idles
    | succ spot =>
      have earlier := Nat.lt_of_succ_lt_succ before
      have inBody := (slice.idleAt_iff (Nat.lt_trans earlier within.lt_length)).mpr idle
      exact (ih inBody earlier).of_slice slice (fun _ => .inside opens runs) within.lt_length
  | @after token tokens place other opens later ih =>
    have slice := Slice.drop (token :: tokens) (other.size tokens + 2)
    rcases Nat.lt_or_ge spot (other.size tokens + 2) with early | late
    · have opened : other.OpenedAt (token :: tokens) 0 := ⟨token, rfl, opens⟩
      rcases Nat.eq_zero_or_pos spot with rfl | behind
      · rw [← opened.unique idle.openedAt]
        refine .inl ?_
        rw [Scope.endAt_cons_zero]
        omega
      · -- The opener stands in the scope at the front, which the execution passes over or takes by itself.
        refine .inr ⟨0, other, .here token tokens, opened, behind, ?_, ?_⟩
        · rw [Scope.endAt_cons_zero]
          omega
        · rw [Scope.endAt_cons_zero]
          omega
    · obtain ⟨spot, rfl⟩ := Nat.exists_eq_add_of_le' late
      have earlier := Nat.lt_of_add_lt_add_right before
      have idles := (slice.idleAt_iff (Nat.lt_trans earlier later.lt_length)).mpr idle
      exact (ih idles earlier).of_slice slice (fun _ => .after opens) later.lt_length

end Execution

namespace CallScan

/-- The places of a token list that the scan for calls comes to. -/
inductive Visits : List Token → Nat → Prop where
  | here (token : Token) (tokens : List Token) : Visits (token :: tokens) 0
  | pass {token : Token} {tokens : List Token} {place : Nat}
      (busy : ∀ scope, ¬ Scope.IdleAt scope (token :: tokens) 0) (later : Visits tokens place) :
      Visits (token :: tokens) (place + 1)
  | jump {token : Token} {tokens : List Token} {place : Nat} {scope : Scope}
      (idle : scope.IdleAt (token :: tokens) 0) (later : Visits (tokens.drop (scope.size tokens + 1)) place) :
      Visits (token :: tokens) (place + (scope.size tokens + 2))

theorem Visits.lt_length {tokens : List Token} {place : Nat} (visits : Visits tokens place) :
    place < tokens.length := by
  induction visits with
  | here token tokens => exact Nat.zero_lt_succ _
  | pass busy later ih => exact Nat.succ_lt_succ ih
  | jump idle later ih =>
    rw [List.length_drop] at ih
    rw [List.length_cons]
    omega

/-- The scan passes over a place in an idle scope that it comes to. -/
def Jumps (tokens : List Token) (place : Nat) : Prop :=
  ∃ spot scope, Visits tokens spot ∧ Scope.IdleAt scope tokens spot ∧ spot < place ∧
    place ≤ scope.endAt tokens spot

private theorem Jumps.of_drop {tokens : List Token} {offset place : Nat}
    (visits : ∀ place, Visits (tokens.drop offset) place → Visits tokens (place + offset))
    (jumps : Jumps (tokens.drop offset) place) : Jumps tokens (place + offset) := by
  obtain ⟨spot, scope, visited, idle, before, covers⟩ := jumps
  have bound := idle.openedAt.lt_length
  refine ⟨spot + offset, scope, visits spot visited, ((Slice.drop tokens offset).idleAt_iff bound).mp idle,
    Nat.add_lt_add_right before offset, ?_⟩
  rw [List.length_drop] at bound
  rw [Scope.endAt_drop _ _ _ (by omega)]
  exact Nat.add_le_add_right covers offset

/-- The scan comes to every place that it does not pass over. -/
theorem visits_or_jumps {tokens : List Token} {place : Nat} (within : place < tokens.length) :
    Visits tokens place ∨ Jumps tokens place := by
  induction tokens using leapwise generalizing place with
  | nil => exact absurd within (Nat.not_lt_zero place)
  | cons token rest ih =>
    have later (passed : Nat) {ahead : Nat} (fits : ahead + (passed + 1) < (token :: rest).length)
        (visits : ∀ place, Visits (rest.drop passed) place → Visits (token :: rest) (place + (passed + 1))) :
        Visits (token :: rest) (ahead + (passed + 1)) ∨ Jumps (token :: rest) (ahead + (passed + 1)) := by
      have inside : ahead < (rest.drop passed).length := by
        rw [List.length_cons] at fits
        rw [List.length_drop]
        omega
      exact (ih passed inside).imp (visits ahead) (.of_drop visits)
    rcases Nat.eq_zero_or_pos place with rfl | behind
    · exact .inl (.here token rest)
    · by_cases idle : ∃ scope, Scope.IdleAt scope (token :: rest) 0
      · obtain ⟨scope, idle⟩ := idle
        rcases Nat.lt_or_ge place (scope.size rest + 2) with early | late
        · refine .inr ⟨0, scope, .here token rest, idle, behind, ?_⟩
          rw [Scope.endAt_cons_zero]
          omega
        · obtain ⟨ahead, rfl⟩ := Nat.exists_eq_add_of_le' late
          exact later (scope.size rest + 1) within fun _ => .jump idle
      · obtain ⟨ahead, rfl⟩ := Nat.exists_eq_add_of_le' behind
        exact later 0 within fun _ => .pass fun scope idles => idle ⟨scope, idles⟩

/-- Behind an idle scope that it comes to, the scan goes on after the end of that scope. -/
theorem Visits.endAt_lt {tokens : List Token} {spot place : Nat} {scope : Scope} (first : Visits tokens spot)
    (idle : scope.IdleAt tokens spot) (second : Visits tokens place) (before : spot < place) :
    scope.endAt tokens spot < place := by
  induction first generalizing place with
  | here token tokens =>
    cases second with
    | here => exact absurd before (Nat.lt_irrefl 0)
    | pass busy later => exact absurd idle (busy scope)
    | jump jumped later =>
      rw [jumped.openedAt.unique idle.openedAt, Scope.endAt_cons_zero]
      omega
  | pass busy visited ih =>
    cases second with
    | here => exact absurd before (Nat.not_lt_zero _)
    | pass _ later =>
      rw [Scope.endAt_cons_succ]
      exact Nat.succ_lt_succ (ih idle later (Nat.lt_of_succ_lt_succ before))
    | jump jumped later => exact absurd jumped (busy _)
  | @jump token tokens spot other jumped visited ih =>
    cases second with
    | here => exact absurd before (Nat.not_lt_zero _)
    | pass busy later => exact absurd jumped (busy _)
    | jump again later =>
      obtain rfl := jumped.openedAt.unique again.openedAt
      have bound := idle.openedAt.lt_length
      rw [List.length_cons] at bound
      have within : spot < (tokens.drop (other.size tokens + 1)).length := by
        rw [List.length_drop]
        omega
      have slice := Slice.drop (token :: tokens) (other.size tokens + 2)
      have ended := ih ((slice.idleAt_iff within).mpr idle) later (Nat.lt_of_add_lt_add_right before)
      rw [Scope.endAt_drop _ _ _ (by rw [List.length_cons]; omega)]
      exact Nat.add_lt_add_right ended _

/-- A place stands behind a loop, inside a definition that is opened in that loop and that the scan passes
over. -/
def Swallowed (tokens : List Token) (place : Nat) : Prop :=
  ∃ loop definition, Scope.loop.OpenedAt tokens loop ∧ Scope.definition.OpenedAt tokens definition ∧
    Visits tokens definition ∧ loop < definition ∧ definition ≤ Scope.loop.endAt tokens loop ∧
    Scope.loop.endAt tokens loop < place ∧ place ≤ Scope.definition.endAt tokens definition

theorem Swallowed.not_visits {tokens : List Token} {place : Nat} (swallowed : Swallowed tokens place) :
    ¬ Visits tokens place := by
  obtain ⟨loop, definition, _, opened, visited, _, inside, behind, covers⟩ := swallowed
  intro visits
  have ended := visited.endAt_lt opened.idleAt visits (by omega)
  omega

end CallScan

namespace Execution

open CallScan

/-- The scan comes to no loop that cannot run in a definition that an execution may come to. -/
private theorem MayReach.no_loop_inside {tokens : List Token} {definition loop : Nat}
    (reached : MayReach tokens definition) (opened : Scope.definition.OpenedAt tokens definition)
    (visited : Visits tokens loop) (idle : Scope.loop.IdleAt tokens loop) (after : definition < loop) :
    Scope.definition.endAt tokens definition < loop := by
  induction definition using Nat.strongRecOn generalizing loop with
  | _ definition ih =>
    rcases visits_or_jumps reached.lt_length with visits | ⟨spot, scope, visits, jumped, before, covers⟩
    · exact visits.endAt_lt opened.idleAt visited after
    · have ended := visits.endAt_lt jumped visited (by omega)
      cases scope with
      | definition =>
        have nested := opened.endAt_le before covers
        omega
      | loop =>
        -- The scan passes over the definition in a loop, whose opener the execution has left out.
        rcases reached.cleared jumped before with past | ⟨around, scope, reaches, opens, first, inside, past⟩
        · omega
        · cases scope with
          | definition =>
            have gone := ih around (by omega) reaches opens visits jumped first
            omega
          | loop =>
            have nested := jumped.openedAt.endAt_le first inside
            omega

/-- The scan comes to what an execution may come to, unless that is swallowed by a definition that crosses a
loop. -/
theorem MayReach.visits_or_swallowed {tokens : List Token} {place : Nat} (reached : MayReach tokens place) :
    Visits tokens place ∨ Swallowed tokens place := by
  refine (visits_or_jumps reached.lt_length).imp_right ?_
  rintro ⟨spot, scope, visits, jumped, before, covers⟩
  rcases reached.cleared jumped before with past | ⟨around, other, reaches, opens, first, inside, past⟩
  · omega
  · cases scope with
    | definition =>
      cases other with
      | definition =>
        have nested := jumped.openedAt.endAt_le first inside
        omega
      | loop => exact ⟨around, spot, opens, jumped.openedAt, visits, first, inside, past, covers⟩
    | loop =>
      cases other with
      | definition =>
        have gone := reaches.no_loop_inside opens visits jumped first
        omega
      | loop =>
        have nested := jumped.openedAt.endAt_le first inside
        omega

end Execution

end Lamplighter
