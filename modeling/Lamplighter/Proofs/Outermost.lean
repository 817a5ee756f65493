import Lamplighter.FunctionTable
import Lamplighter.Proofs.Extents
import Lamplighter.Proofs.Prefixes
import Mathlib.Data.List.Forall2
import Mathlib.Data.List.Induction

/-! # Outermost definitions

In a nested program every scope reaches to its own closer, with a nested program between the two. The scan for
functions looks for closers of definitions only, and goes on behind the closer of each definition that it comes
to. So it comes to the definitions that stand in no other definition, whatever loops they stand in, and takes
each with what stands up to its closer.
-/

namespace Lamplighter

namespace Scope

def inside (program : List Token) (start stop : Nat) : List Token := (program.take stop).drop (start + 1)

/-- A scope reaches from its opener at one place to its closer at another: what stands between is nested. -/
structure Spans (scope : Scope) (program : List Token) (start stop : Nat) : Prop where
  opened : scope.OpenedAt program start
  closed : program[stop]? = some scope.closer
  lt : start < stop
  nested : Nesting.check (inside program start stop) = .ok ()

section Spans

variable {scope : Scope} {program : List Token} {start stop : Nat}

theorem inside_of_drop {front rest : List Token} (split : program.drop (start + 1) = front ++ rest) :
    inside program start (start + 1 + front.length) = front := by
  rw [inside, List.drop_take, split, Nat.add_sub_cancel_left, List.take_left]

/-- Behind its opener, a scope is a flat forest and the closer. -/
theorem spans_iff : scope.Spans program start stop ↔
    scope.OpenedAt program start ∧ ∃ (forest : Forest) (rest : List Token),
      program.drop (start + 1) = forest.flatten ++ scope.closer :: rest ∧ stop = start + 1 + forest.size := by
  constructor
  · rintro ⟨opened, closed, lt, nested⟩
    obtain ⟨forest, flat⟩ := (Nesting.check_eq_ok_iff _).mp nested
    obtain ⟨bound, stands⟩ := List.getElem?_eq_some_iff.mp closed
    have size : forest.size = stop - (start + 1) := by
      rw [Forest.size, flat, inside, List.length_drop, List.length_take, Nat.min_eq_left (Nat.le_of_lt bound)]
    refine ⟨opened, forest, program.drop (stop + 1), ?_, by omega⟩
    have long : start + 1 ≤ (program.take stop).length := by
      rw [List.length_take]
      omega
    rw [flat, inside, ← stands, ← List.drop_eq_getElem_cons bound, ← List.drop_append_of_le_length long,
      List.take_append_drop]
  · rintro ⟨opened, forest, rest, split, rfl⟩
    refine ⟨opened, ?_, by omega, ?_⟩
    · rw [← List.getElem?_drop, split, Forest.size, List.getElem?_append_right (Nat.le_refl _), Nat.sub_self,
        List.getElem?_cons_zero]
    · rw [Forest.size, inside_of_drop split]
      exact (Nesting.check_eq_ok_iff _).mpr ⟨forest, rfl⟩

/-- A scope ends where the scan for its closer ends, and has the same tokens inside. -/
theorem Spans.eq_endAt (spans : scope.Spans program start stop) :
    stop = scope.endAt program start ∧ inside program start stop = scope.body (program.drop (start + 1)) := by
  obtain ⟨opened, forest, rest, split, rfl⟩ := spans_iff.mp spans
  refine ⟨?_, ?_⟩
  · rw [endAt_of_lt _ _ _ opened.lt_length, split, size_flatten, Nat.add_comm]
  · rw [Forest.size, inside_of_drop split, split, body_flatten]

/-- In a nested program every scope reaches to the end that the scan for its closer finds. -/
theorem OpenedAt.spans (opened : scope.OpenedAt program start) (nested : Nesting.check program = .ok ()) :
    scope.Spans program start (scope.endAt program start) := by
  obtain ⟨forest, rfl⟩ := (Nesting.check_eq_ok_iff program).mp nested
  obtain ⟨opener, stands, opens⟩ := opened
  obtain ⟨body, rest, split⟩ := forest.exists_closed stands opens
  rw [List.append_assoc, List.singleton_append] at split
  have spans := spans_iff.mpr ⟨⟨opener, stands, opens⟩, body, rest, split.symm, rfl⟩
  rwa [spans.eq_endAt.1] at spans

end Spans

/-- A definition is opened at a place and stands in no other definition. -/
def OutermostAt (program : List Token) (place : Nat) : Prop :=
  definition.OpenedAt program place ∧
    ∀ start stop, definition.Spans program start stop → ¬ (start < place ∧ place < stop)

/-- A definition is opened at a place, and no definition before it reaches there. -/
def FreeAt (tokens : List Token) (place : Nat) : Prop :=
  definition.OpenedAt tokens place ∧
    ∀ around < place, definition.OpenedAt tokens around → definition.endAt tokens around < place

/-- In a nested program the scans for closers tell which definitions are outermost. -/
theorem outermostAt_iff {program : List Token} (nested : Nesting.check program = .ok ()) (place : Nat) :
    OutermostAt program place ↔ FreeAt program place := by
  refine and_congr_right fun opened => ⟨fun apart around before opens => ?_, fun apart start stop spans => ?_⟩
  · have spans := opens.spans nested
    have passed := apart around _ spans
    -- The definition around ends with a closer, and an opener stands here.
    have differs : definition.endAt program around ≠ place := by
      rintro rfl
      obtain ⟨opener, stands, opens⟩ := opened
      rw [spans.closed] at stands
      cases stands
      rw [Token.kind_closer] at opens
      cases opens
    omega
  · rintro ⟨before, after⟩
    have ends := apart start before spans.opened
    rw [← spans.eq_endAt.1] at ends
    omega

section Free

variable {tokens : List Token} {place : Nat}

theorem openedAt_drop {scope : Scope} {offset : Nat} :
    scope.OpenedAt (tokens.drop offset) place ↔ scope.OpenedAt tokens (place + offset) := by
  rw [OpenedAt, OpenedAt, List.getElem?_drop, Nat.add_comm]

/-- Tokens in front make no difference to what is free behind them, if their definitions end among them. -/
theorem freeAt_drop {offset : Nat}
    (apart : ∀ around < offset, definition.OpenedAt tokens around → definition.endAt tokens around < offset) :
    FreeAt (tokens.drop offset) place ↔ FreeAt tokens (place + offset) := by
  rw [FreeAt, FreeAt, openedAt_drop]
  refine and_congr_right fun opened => ?_
  have within : offset ≤ tokens.length := by
    have bound := opened.lt_length
    omega
  refine ⟨fun free around before opens => ?_, fun free around before opens => ?_⟩
  · rcases Nat.lt_or_ge around offset with early | late
    · have ends := apart around early opens
      omega
    · obtain ⟨around, rfl⟩ := Nat.exists_eq_add_of_le' late
      have ends := free around (Nat.lt_of_add_lt_add_right before) (openedAt_drop.mpr opens)
      rw [endAt_drop _ _ _ within]
      exact Nat.add_lt_add_right ends offset
  · have ends := free (around + offset) (Nat.add_lt_add_right before offset) (openedAt_drop.mp opens)
    rw [endAt_drop _ _ _ within] at ends
    exact Nat.lt_of_add_lt_add_right ends

variable {token : Token}

theorem freeAt_cons_zero : FreeAt (token :: tokens) 0 ↔ token.kind = .opens .definition := by
  simp [FreeAt, OpenedAt]

theorem freeAt_cons_succ (neutral : token.kind ≠ .opens .definition) :
    FreeAt (token :: tokens) (place + 1) ↔ FreeAt tokens place := by
  refine (freeAt_drop fun around before opened => ?_).symm
  obtain rfl := Nat.lt_one_iff.mp before
  obtain ⟨opener, stands, opens⟩ := opened
  cases stands
  exact absurd opens neutral

/-- Nothing inside a definition is free. -/
theorem not_freeAt_inside (opens : token.kind = .opens .definition) (behind : 0 < place)
    (within : place < definition.size tokens + 2) : ¬ FreeAt (token :: tokens) place := by
  intro free
  have ends := free.2 0 behind ⟨token, rfl, opens⟩
  rw [endAt_cons_zero] at ends
  omega

/-- A definition makes no difference to what is free behind it. -/
theorem freeAt_behind : FreeAt (token :: tokens) (place + (definition.size tokens + 2)) ↔
    FreeAt (tokens.drop (definition.size tokens + 1)) place := by
  refine (freeAt_drop fun around before opened => ?_).symm
  have first : definition.endAt (token :: tokens) 0 = definition.size tokens + 1 := endAt_cons_zero _ _ _
  rcases Nat.eq_zero_or_pos around with rfl | behind
  · omega
  · -- Scopes of one kind do not cross.
    have ends := opened.endAt_le behind (by omega)
    omega

end Free

/-- Induction along a scan that goes on behind each definition that it comes to. -/
@[elab_as_elim]
theorem definitionwise {motive : List Token → Prop} (nil : motive [])
    (pass : ∀ token rest, token.kind ≠ .opens .definition → motive rest → motive (token :: rest))
    (jump : ∀ token rest, token.kind = .opens .definition → motive (rest.drop (definition.size rest + 1)) →
      motive (token :: rest)) (tokens : List Token) : motive tokens := by
  induction tokens using leapwise with
  | nil => exact nil
  | cons token rest ih =>
    by_cases opens : token.kind = .opens .definition
    · exact jump token rest opens (ih (definition.size rest + 1))
    · exact pass token rest opens (ih 0)

end Scope

section Results

theorem exists_of_forall₂ {α β : Type} {relation : α → β → Prop} {items : List α} {results : List β}
    (related : List.Forall₂ relation items results) {item : α} (member : item ∈ items) :
    ∃ result, relation item result := by
  induction related with
  | nil => cases member
  | cons holds _ ih =>
    cases member with
    | head => exact ⟨_, holds⟩
    | tail _ later => exact ih later

/-- Steps along a list all succeed, or the first one that fails decides. -/
theorem mapM_cases {α β ε : Type} (step : α → Except ε β) (items : List α) :
    (∃ results, items.mapM step = .ok results ∧
      List.Forall₂ (fun item result => step item = .ok result) items results) ∨
    ∃ problem front item back, items.mapM step = .error problem ∧ items = front ++ item :: back ∧
      (∀ other ∈ front, ∃ result, step other = .ok result) ∧ step item = .error problem := by
  induction items with
  | nil => exact .inl ⟨[], rfl, .nil⟩
  | cons item rest ih =>
    rw [List.mapM_cons]
    cases here : step item with
    | error problem => exact .inr ⟨problem, [], item, rest, rfl, rfl, by simp, here⟩
    | ok result =>
      rcases ih with ⟨results, all, given⟩ | ⟨problem, front, last, back, failed, rfl, fine, fails⟩
      · rw [all]
        exact .inl ⟨result :: results, rfl, .cons here given⟩
      · rw [failed]
        refine .inr ⟨problem, item :: front, last, back, rfl, rfl, fun other member => ?_, fails⟩
        rcases List.mem_cons.mp member with rfl | later
        · exact ⟨result, here⟩
        · exact fine other later

end Results

namespace FunctionTable

/-- A definition in a program: the place of its opener, the opener, and the tokens up to its closer. -/
@[ext]
structure Site where
  place : Nat
  opener : Token
  body : List Token

/-- The definitions that a scan for functions comes to in the tokens after the first `skip` ones; `index` is
that of the next token. -/
def sitesFrom : (skip index : Nat) → List Token → List Site
  | _, _, [] => []
  | skip + 1, index, _ :: rest => sitesFrom skip (index + 1) rest
  | 0, index, token :: rest =>
    if token.kind = .opens .definition then
      ⟨index, token, Scope.definition.body rest⟩ ::
        sitesFrom (Scope.definition.size rest + 1) (index + 1) rest
    else sitesFrom 0 (index + 1) rest

/-- The function that a definition gives, if its signature can be read. -/
def Site.function (site : Site) : Except Malformed FunctionDef :=
  (Signature.readAt Scope.definition.opener site.opener site.place).map fun signature =>
    ⟨signature.name, signature.operands, site.body⟩

/-- A table takes the functions of the definitions that the scan comes to. -/
theorem collect_eq_mapM (skip index : Nat) (tokens : List Token) (table : FunctionTable) :
    collect skip index tokens table =
      ((sitesFrom skip index tokens).mapM Site.function).map fun functions => functions.foldl insert table := by
  induction tokens generalizing skip index table with
  | nil => cases skip <;> rfl
  | cons token rest ih =>
    cases skip with
    | succ skip => exact ih skip (index + 1) table
    | zero =>
      rw [collect, sitesFrom]
      split_ifs with opens
      · rw [List.mapM_cons, Site.function]
        cases Signature.readAt Scope.definition.opener token index with
        | error malformed => rfl
        | ok signature =>
          dsimp only
          rw [ih]
          cases (sitesFrom (Scope.definition.size rest + 1) (index + 1) rest).mapM Site.function with
          | error malformed => rfl
          | ok functions => rfl
      · exact ih 0 (index + 1) table

theorem sitesFrom_skip (skip index : Nat) (tokens : List Token) :
    sitesFrom skip index tokens = sitesFrom 0 (index + skip) (tokens.drop skip) := by
  induction skip generalizing index tokens with
  | zero => simp
  | succ skip ih =>
    cases tokens with
    | nil => simp [sitesFrom]
    | cons token rest => rw [sitesFrom, ih, List.drop_succ_cons, Nat.add_right_comm, Nat.add_assoc]

/-- The definition that is opened at a place, if a scan of the tokens counts from an index. -/
def Site.StandsAt (site : Site) (index : Nat) (tokens : List Token) (place : Nat) : Prop :=
  site.place = place + index ∧ tokens[place]? = some site.opener ∧
    site.body = Scope.definition.body (tokens.drop (place + 1))

theorem Site.standsAt_drop {site : Site} {index offset place : Nat} {tokens : List Token} :
    site.StandsAt (index + offset) (tokens.drop offset) place ↔
      site.StandsAt index tokens (place + offset) := by
  rw [StandsAt, StandsAt, List.getElem?_drop, List.drop_drop, Nat.add_comm offset place,
    show offset + (place + 1) = place + offset + 1 by omega,
    show place + (index + offset) = place + offset + index by omega]

/-- The scan comes to the free definitions. -/
theorem mem_sitesFrom_iff {index : Nat} {tokens : List Token} {site : Site} :
    site ∈ sitesFrom 0 index tokens ↔
      ∃ place, Scope.FreeAt tokens place ∧ site.StandsAt index tokens place := by
  induction tokens using Scope.definitionwise generalizing index with
  | nil => simp [sitesFrom, Scope.FreeAt, Scope.OpenedAt]
  | pass token rest neutral ih =>
    rw [sitesFrom, if_neg neutral, ih]
    constructor
    · rintro ⟨place, free, stands⟩
      exact ⟨place + 1, (Scope.freeAt_cons_succ neutral).mpr free, Site.standsAt_drop.mp stands⟩
    · rintro ⟨place, free, stands⟩
      cases place with
      | zero => exact absurd (Scope.freeAt_cons_zero.mp free) neutral
      | succ place => exact ⟨place, (Scope.freeAt_cons_succ neutral).mp free, Site.standsAt_drop.mpr stands⟩
  | jump token rest opens ih =>
    have next : index + 1 + (Scope.definition.size rest + 1) = index + (Scope.definition.size rest + 2) := by
      omega
    rw [sitesFrom, if_pos opens, sitesFrom_skip, next, List.mem_cons, ih]
    constructor
    · rintro (rfl | ⟨place, free, stands⟩)
      · exact ⟨0, Scope.freeAt_cons_zero.mpr opens, (Nat.zero_add index).symm, rfl, rfl⟩
      · exact ⟨_, Scope.freeAt_behind.mpr free, Site.standsAt_drop.mp stands⟩
    · rintro ⟨place, free, stands⟩
      rcases Nat.eq_zero_or_pos place with rfl | behind
      · obtain ⟨here, opener, body⟩ := stands
        exact .inl (Site.ext (here.trans (Nat.zero_add index)) (Option.some.inj opener).symm body)
      · rcases Nat.lt_or_ge place (Scope.definition.size rest + 2) with early | late
        · exact absurd free (Scope.not_freeAt_inside opens behind early)
        · obtain ⟨place, rfl⟩ := Nat.exists_eq_add_of_le' late
          exact .inr ⟨place, Scope.freeAt_behind.mp free, Site.standsAt_drop.mpr stands⟩

/-- It comes to them in the order in which they stand. -/
theorem pairwise_sitesFrom (index : Nat) (tokens : List Token) :
    (sitesFrom 0 index tokens).Pairwise fun first second => first.place < second.place := by
  induction tokens using Scope.definitionwise generalizing index with
  | nil => exact List.Pairwise.nil
  | pass token rest neutral ih =>
    rw [sitesFrom, if_neg neutral]
    exact ih (index + 1)
  | jump token rest opens ih =>
    rw [sitesFrom, if_pos opens, sitesFrom_skip]
    refine List.Pairwise.cons (fun site later => ?_) (ih _)
    obtain ⟨place, _, stands, _⟩ := mem_sitesFrom_iff.mp later
    show index < site.place
    omega

section Functions

variable {site : Site}

theorem Site.function_eq_ok_iff {function : FunctionDef} : site.function = .ok function ↔
    Signature.read Scope.definition.opener site.opener = .ok ⟨function.name, function.params⟩ ∧
      function.body = site.body := by
  rw [Site.function, Signature.readAt]
  rcases function with ⟨name, params, body⟩
  rcases Signature.read Scope.definition.opener site.opener with problem | ⟨read, operands⟩
  · simp [Problem.locate, Except.mapError, Except.map]
  · simp [Problem.locate, Except.mapError, Except.map, and_assoc, eq_comm]

theorem Site.function_eq_error_iff {malformed : Malformed} : site.function = .error malformed ↔
    ∃ problem, Signature.read Scope.definition.opener site.opener = .error problem ∧
      malformed = ⟨problem, some site.place⟩ := by
  rw [Site.function, Signature.readAt]
  rcases Signature.read Scope.definition.opener site.opener with problem | signature
  · simp [Problem.locate, Except.mapError, Except.map, eq_comm]
  · simp [Problem.locate, Except.mapError, Except.map]

end Functions

section Last

theorem names_insert (table : FunctionTable) (function : FunctionDef) :
    (table.insert function).names =
      if function.name ∈ table.names then table.names else table.names ++ [function.name] := by
  rcases table with ⟨functions⟩
  simp only [insert, names]
  induction functions with
  | nil => rfl
  | cons other rest ih =>
    rw [insertInto]
    by_cases same : other.name = function.name
    · simp [same]
    · by_cases known : function.name ∈ rest.map FunctionDef.name
      · simp [same, ih, known]
      · simp [same, Ne.symm same, ih, known]

theorem ofList_concat (front : List FunctionDef) (function : FunctionDef) :
    ofList (front ++ [function]) = (ofList front).insert function :=
  List.foldl_append

/-- The names of a table stand in the order in which they were first defined. -/
theorem names_ofList (functions : List FunctionDef) :
    (ofList functions).names = (functions.map FunctionDef.name).eraseDups := by
  induction functions using List.reverseRecOn with
  | nil => rfl
  | append_singleton front function ih =>
    rw [ofList_concat, names_insert, ih, List.map_append, List.eraseDups_append]
    generalize front.map FunctionDef.name = earlier
    by_cases known : function.name ∈ earlier
    · simp [known, List.removeAll]
    · simp [known, List.removeAll, List.eraseDups_cons]

/-- A table finds the last definition of a name. -/
theorem find?_ofList (functions : List FunctionDef) (name : Text) :
    (ofList functions).find? name = functions.findRev? fun function => function.name == name := by
  rw [List.findRev?_eq_find?_reverse]
  induction functions using List.reverseRecOn with
  | nil => rfl
  | append_singleton front function ih =>
    rw [ofList_concat, find?_insert, ih, List.reverse_concat]
    by_cases same : function.name = name
    · rw [if_pos same, List.find?_cons_of_pos (by simp [same])]
    · rw [if_neg same, List.find?_cons_of_neg (by simp [same])]

end Last

/-- An outermost definition whose signature cannot be read. -/
def RejectedAt (program : List Token) (place : Nat) (malformed : Malformed) : Prop :=
  Scope.OutermostAt program place ∧ ∃ opener problem, program[place]? = some opener ∧
    Signature.read Scope.definition.opener opener = .error problem ∧ malformed = ⟨problem, some place⟩

theorem RejectedAt.unique {program : List Token} {place : Nat} {malformed other : Malformed}
    (rejected : RejectedAt program place malformed) (again : RejectedAt program place other) :
    malformed = other := by
  obtain ⟨_, opener, problem, stands, unread, rfl⟩ := rejected
  obtain ⟨_, _, _, same, unreadAgain, rfl⟩ := again
  rw [stands] at same
  cases same
  rw [unread] at unreadAgain
  cases unreadAgain
  rfl

/-- An outermost definition gives a function: name and parameters as its signature has them, and what stands
up to its closer as the body. -/
def DefinesAt (program : List Token) (place : Nat) (function : FunctionDef) : Prop :=
  Scope.OutermostAt program place ∧ ∃ opener stop, program[place]? = some opener ∧
    Signature.read Scope.definition.opener opener = .ok ⟨function.name, function.params⟩ ∧
    Scope.definition.Spans program place stop ∧ function.body = Scope.inside program place stop

/-- A table holds the functions of all outermost definitions of a program, given with their places: names in
the order of first definition, and under each name the last function. -/
structure Harvest (program : List Token) (places : List Nat) (functions : List FunctionDef)
    (table : FunctionTable) : Prop where
  ordered : places.Pairwise (· < ·)
  outermost : ∀ place, place ∈ places ↔ Scope.OutermostAt program place
  defines : List.Forall₂ (DefinesAt program) places functions
  nested : ∀ function ∈ functions, Nesting.check function.body = .ok ()
  names : table.names = (functions.map FunctionDef.name).eraseDups
  find? : ∀ name, table.find? name = functions.findRev? fun function => function.name == name

section Nested

variable {program : List Token} (nested : Nesting.check program = .ok ())

include nested

/-- The scan of a nested program comes to the outermost definitions, each with its body. -/
theorem mem_sites_iff {site : Site} : site ∈ sitesFrom 0 0 program ↔
    Scope.OutermostAt program site.place ∧ program[site.place]? = some site.opener ∧
      ∃ stop, Scope.definition.Spans program site.place stop ∧
        site.body = Scope.inside program site.place stop := by
  rw [mem_sitesFrom_iff]
  constructor
  · rintro ⟨place, free, here, opener, body⟩
    obtain rfl : site.place = place := here
    have spans := free.1.spans nested
    refine ⟨(Scope.outermostAt_iff nested _).mpr free, opener, _, spans, ?_⟩
    rw [body, spans.eq_endAt.2]
  · rintro ⟨outermost, opener, stop, spans, body⟩
    refine ⟨site.place, (Scope.outermostAt_iff nested _).mp outermost, rfl, opener, ?_⟩
    rw [body, spans.eq_endAt.2]

theorem exists_site {place : Nat} (outermost : Scope.OutermostAt program place) :
    ∃ site ∈ sitesFrom 0 0 program, site.place = place := by
  obtain ⟨opener, stands, opens⟩ := outermost.1
  have spans := outermost.1.spans nested
  exact ⟨⟨place, opener, Scope.inside program place _⟩,
    (mem_sites_iff nested).mpr ⟨outermost, stands, _, spans, rfl⟩, rfl⟩

theorem rejectedAt_iff {place : Nat} {malformed : Malformed} : RejectedAt program place malformed ↔
    ∃ site ∈ sitesFrom 0 0 program, site.place = place ∧ site.function = .error malformed := by
  constructor
  · rintro ⟨outermost, opener, problem, stands, unread, rfl⟩
    obtain ⟨site, member, rfl⟩ := exists_site nested outermost
    have opener := ((mem_sites_iff nested).mp member).2.1
    rw [stands] at opener
    cases opener
    exact ⟨site, member, rfl, Site.function_eq_error_iff.mpr ⟨problem, unread, rfl⟩⟩
  · rintro ⟨site, member, rfl, failed⟩
    obtain ⟨outermost, opener, _⟩ := (mem_sites_iff nested).mp member
    obtain ⟨problem, unread, located⟩ := Site.function_eq_error_iff.mp failed
    exact ⟨outermost, site.opener, problem, opener, unread, located⟩

theorem definesAt_of_mem {site : Site} {function : FunctionDef} (member : site ∈ sitesFrom 0 0 program)
    (given : site.function = .ok function) : DefinesAt program site.place function := by
  obtain ⟨outermost, opener, stop, spans, body⟩ := (mem_sites_iff nested).mp member
  obtain ⟨read, same⟩ := Site.function_eq_ok_iff.mp given
  exact ⟨outermost, site.opener, stop, opener, read, spans, same.trans body⟩

/-- A program whose functions cannot be collected has an outermost definition that is rejected, and no other
before it. -/
theorem exists_first_of_error {malformed : Malformed} (failed : ofProgram program = .error malformed) :
    ∃ place, RejectedAt program place malformed ∧
      ∀ earlier < place, ∀ other, ¬ RejectedAt program earlier other := by
  rw [ofProgram, collect_eq_mapM] at failed
  rcases mapM_cases Site.function (sitesFrom 0 0 program) with
    ⟨functions, read, _⟩ | ⟨first, front, site, back, unread, split, fine, fails⟩
  · rw [read] at failed
    cases failed
  · rw [unread] at failed
    cases failed
    have member : site ∈ sitesFrom 0 0 program := by simp [split]
    refine ⟨site.place, (rejectedAt_iff nested).mpr ⟨site, member, rfl, fails⟩, ?_⟩
    intro earlier before other rejected
    obtain ⟨rival, listed, rfl, broken⟩ := (rejectedAt_iff nested).mp rejected
    have ordered := pairwise_sitesFrom 0 program
    rw [split] at listed ordered
    -- The signatures before the first failure could be read, and all others stand behind it.
    rcases List.mem_append.mp listed with inFront | behind
    · obtain ⟨function, read⟩ := fine rival inFront
      rw [broken] at read
      cases read
    · rcases List.mem_cons.mp behind with rfl | inBack
      · exact Nat.lt_irrefl _ before
      · have after := List.rel_of_pairwise_cons (List.pairwise_append.mp ordered).2.1 inBack
        exact Nat.lt_asymm before after

/-- A program whose functions can be collected has no outermost definition that is rejected, and its table
holds what they define. -/
theorem exists_harvest {table : FunctionTable} (built : ofProgram program = .ok table) :
    (∀ place malformed, ¬ RejectedAt program place malformed) ∧
      ∃ places functions, Harvest program places functions table := by
  rw [ofProgram, collect_eq_mapM] at built
  rcases mapM_cases Site.function (sitesFrom 0 0 program) with
    ⟨functions, read, given⟩ | ⟨first, front, site, back, unread, _⟩
  · rw [read] at built
    cases built
    have defines : List.Forall₂ (DefinesAt program) ((sitesFrom 0 0 program).map Site.place) functions := by
      rw [List.forall₂_map_left_iff]
      refine ((List.forall₂_and_left _ _).mpr ⟨fun site member => member, given⟩).imp fun site function => ?_
      rintro ⟨member, given⟩
      exact definesAt_of_mem nested member given
    refine ⟨fun place malformed rejected => ?_, _, functions, ?_, fun place => ?_, defines,
      fun function member => ?_, names_ofList functions, find?_ofList functions⟩
    · obtain ⟨site, member, rfl, broken⟩ := (rejectedAt_iff nested).mp rejected
      obtain ⟨function, read⟩ := exists_of_forall₂ given member
      rw [broken] at read
      cases read
    · exact List.pairwise_map.mpr (pairwise_sitesFrom 0 program)
    · rw [List.mem_map]
      constructor
      · rintro ⟨site, member, rfl⟩
        exact ((mem_sites_iff nested).mp member).1
      · exact exists_site nested
    · obtain ⟨place, _, _, stop, _, _, spans, body⟩ := exists_of_forall₂ defines.flip member
      rw [body]
      exact spans.nested
  · rw [unread] at built
    cases built

end Nested

/-- The table of a nested program holds its outermost definitions, and there is none exactly if one of them is
rejected, with the first of these as the reason. -/
theorem ofProgram_harvests {program : List Token} (nested : Nesting.check program = .ok ()) :
    ((∃ malformed, ofProgram program = .error malformed) ↔
      ∃ place malformed, RejectedAt program place malformed) ∧
    (∀ malformed, ofProgram program = .error malformed ↔ ∃ place, RejectedAt program place malformed ∧
      ∀ earlier < place, ∀ other, ¬ RejectedAt program earlier other) ∧
    ((∀ place malformed, ¬ RejectedAt program place malformed) →
      ∃ table places functions, ofProgram program = .ok table ∧ Harvest program places functions table) := by
  cases built : ofProgram program with
  | ok table =>
    obtain ⟨accepted, places, functions, harvest⟩ := exists_harvest nested built
    refine ⟨⟨?_, ?_⟩, fun malformed => ⟨?_, ?_⟩, fun _ => ⟨table, places, functions, rfl, harvest⟩⟩
    · rintro ⟨malformed, failed⟩
      cases failed
    · rintro ⟨place, malformed, rejected⟩
      exact absurd rejected (accepted place malformed)
    · intro failed
      cases failed
    · rintro ⟨place, rejected, _⟩
      exact absurd rejected (accepted place malformed)
  | error malformed =>
    obtain ⟨place, rejected, first⟩ := exists_first_of_error nested built
    refine ⟨⟨fun _ => ⟨place, malformed, rejected⟩, fun _ => ⟨malformed, rfl⟩⟩, fun other => ⟨?_, ?_⟩,
      fun accepted => absurd rejected (accepted place malformed)⟩
    · intro failed
      cases failed
      exact ⟨place, rejected, first⟩
    · rintro ⟨rival, broken, earliest⟩
      rcases Nat.lt_trichotomy rival place with before | rfl | after
      · exact absurd broken (first rival before other)
      · rw [rejected.unique broken]
      · exact absurd rejected (earliest place after malformed)

/-- A definition in a loop with one inside it that has no name, and two more definitions behind. -/
private def patchwork : List Token :=
  ["REPEAT 2", "FUNCTION G(x)", "FUNCTION ()", "ENDFUNCTION", "ENDFUNCTION", "ENDREPEAT", "FUNCTION F",
    "ENDFUNCTION", "FUNCTION G(y)", "LIGHT", "ENDFUNCTION"].map String.toList

/-- The same, with a definition at the end whose parameters have no end. -/
private def torn : List Token := patchwork ++ ["FUNCTION H(".toList, Scope.definition.closer]

theorem ofProgram_harvests_of_patchwork :
    (Nesting.check patchwork = .ok () ∧ ∃ table places functions, ofProgram patchwork = .ok table ∧
      table.names = ["G".toList, "F".toList] ∧ Harvest patchwork places functions table) ∧
    (Nesting.check torn = .ok () ∧
      ∃ place, RejectedAt torn place ⟨.unclosedList "FUNCTION H(".toList, some 11⟩ ∧
        ∀ earlier < place, ∀ other, ¬ RejectedAt torn earlier other) := by
  have nested : Nesting.check patchwork = .ok () := by decide
  have nestedToo : Nesting.check torn = .ok () := by decide
  refine ⟨⟨nested, ?_⟩, nestedToo, ((ofProgram_harvests nestedToo).2.1 _).mp (by decide)⟩
  obtain ⟨raises, _, harvests⟩ := ofProgram_harvests nested
  obtain ⟨table, places, functions, built, harvest⟩ := harvests fun place malformed rejected => by
    obtain ⟨_, failed⟩ := raises.mpr ⟨place, malformed, rejected⟩
    cases failed
  refine ⟨table, places, functions, built, ?_, harvest⟩
  cases built
  decide

end FunctionTable

end Lamplighter
