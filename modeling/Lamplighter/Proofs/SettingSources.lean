import Lamplighter.CommandLine.SettingsFile
import Mathlib.Tactic.Common

/-! # Where a setting comes from

Every setting is looked for in the same way: on the command line, then under its key in the settings
file, then among the defaults. Integers and flags differ in what they read off an entry, and a file
that is no object is noticed by the first setting that the command line leaves open. The limits are
looked at after all four settings are found, so what can go wrong splits into two stages: finding the
settings and checking the limits.
-/

namespace Lamplighter

variable {ε α β : Type}

/-- Two computations in a row end well if both do. -/
theorem bind_eq_ok_iff {first : Except ε α} {next : α → Except ε β} {result : β} :
    first >>= next = .ok result ↔ ∃ value, first = .ok value ∧ next value = .ok result := by
  cases first with
  | error fault => exact ⟨nofun, fun ⟨_, ended, _⟩ => nomatch ended⟩
  | ok value =>
    constructor
    · exact fun ended => ⟨value, rfl, ended⟩
    · rintro ⟨_, same, ended⟩
      cases same
      exact ended

/-- Two computations in a row fail with the first fault that one of them meets. -/
theorem bind_eq_error_iff {first : Except ε α} {next : α → Except ε β} {fault : ε} :
    first >>= next = .error fault ↔
      first = .error fault ∨ ∃ value, first = .ok value ∧ next value = .error fault := by
  cases first with
  | error other =>
    constructor
    · intro failed
      exact .inl (congrArg Except.error (Except.error.inj failed))
    · rintro (failed | ⟨_, ended, _⟩)
      · cases failed
        rfl
      · cases ended
  | ok value =>
    constructor
    · exact fun failed => .inr ⟨value, rfl, failed⟩
    · rintro (failed | ⟨_, same, failed⟩)
      · cases failed
      · cases same
        exact failed

theorem mapError_eq_ok_iff {δ : Type} {outcome : Except ε α} {report : ε → δ} {value : α} :
    outcome.mapError report = .ok value ↔ outcome = .ok value := by
  cases outcome <;> simp [Except.mapError]

theorem mapError_eq_error_iff {δ : Type} {outcome : Except ε α} {report : ε → δ} {fault : δ} :
    outcome.mapError report = .error fault ↔ ∃ cause, outcome = .error cause ∧ report cause = fault := by
  cases outcome <;> simp [Except.mapError]

end Lamplighter

namespace Lamplighter.CommandLine

/-! ## One setting -/

def HasMembers (file : Json) : Prop := ∃ members, file = .object members

theorem lookUp_of_not_hasMembers {file : Json} (other : ¬ HasMembers file) (key : Text) :
    lookUp file key = .error (.notObject file) := by
  cases file with
  | object members => exact absurd ⟨members, rfl⟩ other
  | null | bool _ | integer _ | fraction _ | string _ | array _ => rfl

section Resolve

variable {α : Type}

/-- A setting that is given, or else read off its entry, or else the default. -/
def resolve (given : Option α) (file : Json) (key : Text) (read : Json → Except ConfigFault α)
    (default : α) : Except ConfigFault α :=
  match given with
  | some value => .ok value
  | none =>
    match lookUp file key with
    | .error fault => .error fault
    | .ok none => .ok default
    | .ok (some entry) => read entry

/-- Where a value comes from: from the command line, and only without it from a file with members,
from the entry under the key or, if there is none, from the default. -/
inductive Sourced (given : Option α) (file : Json) (key : Text) (read : Json → Except ConfigFault α)
    (default : α) : α → Prop
  | given {value : α} (set : given = some value) : Sourced given file key read default value
  | entry {members : List (List Nat × Json)} {entry : Json} {value : α} (unset : given = none)
      (held : file = .object members) (listed : Json.member? key members = some entry)
      (accepted : read entry = .ok value) : Sourced given file key read default value
  | default {members : List (List Nat × Json)} (unset : given = none)
      (held : file = .object members) (unlisted : Json.member? key members = none) :
      Sourced given file key read default default

variable {given : Option α} {file : Json} {key : Text} {read : Json → Except ConfigFault α}
  {default value : α}

theorem resolve_eq_ok_iff :
    resolve given file key read default = .ok value ↔ Sourced given file key read default value := by
  constructor
  · intro found
    cases given with
    | some given => exact .given (congrArg some (Except.ok.inj found))
    | none =>
      cases file with
      | object members =>
        cases listed : Json.member? key members with
        | none =>
          simp only [resolve, lookUp, listed, Except.ok.injEq] at found
          exact found ▸ .default rfl rfl listed
        | some entry =>
          simp only [resolve, lookUp, listed] at found
          exact .entry rfl rfl listed found
      | null | bool _ | integer _ | fraction _ | string _ | array _ => cases found
  · rintro (set | ⟨unset, held, listed, accepted⟩ | ⟨unset, held, unlisted⟩)
    · simp [resolve, set]
    · simp [resolve, lookUp, unset, held, listed, accepted]
    · simp [resolve, lookUp, unset, held, unlisted]

/-- In a file without members every setting that is not given fails. -/
theorem resolve_of_not_hasMembers (other : ¬ HasMembers file) :
    resolve given file key read default = given.elim (.error (.notObject file)) .ok := by
  cases given with
  | some value => rfl
  | none => simp [resolve, lookUp_of_not_hasMembers other]

/-- In a file with members only an entry that is not accepted fails. -/
theorem exists_entry_of_resolve_eq_error {fault : ConfigFault} (members : HasMembers file)
    (failed : resolve given file key read default = .error fault) :
    ∃ entry, read entry = .error fault := by
  obtain ⟨members, rfl⟩ := members
  cases given with
  | some given => cases failed
  | none =>
    cases listed : Json.member? key members with
    | none => simp [resolve, lookUp, listed] at failed
    | some entry =>
      simp only [resolve, lookUp, listed] at failed
      exact ⟨entry, failed⟩

end Resolve

/-! ## What an entry may be -/

def integerEntry (key : Text) : Json → Except ConfigFault (Operand Int)
  | .integer value => .ok (.content value)
  | entry => .error (.notInteger key entry)

def orNull {α : Type} (read : Json → Except ConfigFault α) : Json → Except ConfigFault (Option α)
  | .null => .ok none
  | entry => (read entry).map some

def flagEntry (key : Text) : Json → Except ConfigFault Bool
  | .bool value => .ok value
  | entry => .error (.notFlag key entry)

theorem resolveInteger_some (given : Option (Operand Int)) (key : Text) (file : Json)
    (default : Int) :
    resolveInteger given key file (some default) =
      (resolve given file key (integerEntry key) (.content default)).map some := by
  cases given with
  | some value => rfl
  | none =>
    unfold resolveInteger resolve
    rcases lookUp file key with fault | _ | entry
    · rfl
    · rfl
    · cases entry <;> rfl

theorem resolveInteger_none (given : Option (Operand Int)) (key : Text) (file : Json) :
    resolveInteger given key file none =
      resolve (given.map some) file key (orNull (integerEntry key)) none := by
  cases given with
  | some value => rfl
  | none =>
    unfold resolveInteger resolve
    rcases lookUp file key with fault | _ | entry
    · rfl
    · rfl
    · cases entry <;> rfl

theorem resolveFlag_eq (given : Option Bool) (key : Text) (file : Json) :
    resolveFlag given key file = resolve given file key (flagEntry key) true := by
  cases given with
  | some value => rfl
  | none =>
    unfold resolveFlag resolve
    rcases lookUp file key with fault | _ | entry
    · rfl
    · rfl
    · cases entry <;> rfl

/-- A fault of a single entry, which the command reports. -/
def ConfigFault.OfEntry (fault : ConfigFault) : Prop :=
  (∃ key entry, fault = .notInteger key entry) ∨ ∃ key entry, fault = .notFlag key entry

theorem ConfigFault.not_ofEntry_notObject (value : Json) :
    ¬ (ConfigFault.notObject value).OfEntry := by
  rintro (⟨_, _, same⟩ | ⟨_, _, same⟩) <;> cases same

theorem ConfigFault.not_ofEntry_blankLimit : ¬ ConfigFault.blankLimit.OfEntry := by
  rintro (⟨_, _, same⟩ | ⟨_, _, same⟩) <;> cases same

theorem ofEntry_of_integerEntry {key : Text} {entry : Json} {fault : ConfigFault}
    (failed : integerEntry key entry = .error fault) : fault.OfEntry := by
  cases entry with
  | integer value => cases failed
  | null | bool _ | fraction _ | string _ | array _ | object _ =>
    exact .inl ⟨key, _, (Except.error.inj failed).symm⟩

theorem ofEntry_of_orNull {key : Text} {entry : Json} {fault : ConfigFault}
    (failed : orNull (integerEntry key) entry = .error fault) : fault.OfEntry := by
  cases entry with
  | null | integer _ => cases failed
  | bool _ | fraction _ | string _ | array _ | object _ =>
    exact .inl ⟨key, _, (Except.error.inj failed).symm⟩

theorem ofEntry_of_flagEntry {key : Text} {entry : Json} {fault : ConfigFault}
    (failed : flagEntry key entry = .error fault) : fault.OfEntry := by
  cases entry with
  | bool value => cases failed
  | null | integer _ | fraction _ | string _ | array _ | object _ =>
    exact .inr ⟨key, _, (Except.error.inj failed).symm⟩

/-! ## All settings -/

/-- The four settings before the limits are looked at. -/
structure Choice where
  depth : Operand Int
  steps : Option (Operand Int)
  nesting : Bool
  recursion : Bool

/-- Finds the four settings, in the order in which a missing one is noticed. -/
def Request.choose (request : Request) (file : Json) : Except ConfigFault Choice := do
  let depth ← resolve request.maxDepth file "max_depth".toList
    (integerEntry "max_depth".toList) (.content defaultDepth)
  let steps ← resolve (request.maxSteps.map some) file "max_steps".toList
    (orNull (integerEntry "max_steps".toList)) none
  let nesting ← resolve request.validateNesting file "validate_nesting".toList
    (flagEntry "validate_nesting".toList) true
  let recursion ← resolve request.rejectRecursion file "reject_recursion".toList
    (flagEntry "reject_recursion".toList) true
  .ok ⟨depth, steps, nesting, recursion⟩

def Choice.check (choice : Choice) : Except ConfigFault Settings := do
  let depth ← limitOf choice.depth
  let settings ←
    (Settings.check ⟨depth, none, choice.nesting, choice.recursion⟩).mapError ConfigFault.range
  match choice.steps with
  | none => .ok settings
  | some steps => withSteps settings steps

theorem Request.settings_eq (request : Request) (file : Json) :
    request.settings file = request.choose file >>= Choice.check := by
  unfold Request.settings Request.choose
  rw [resolveInteger_some, resolveInteger_none, resolveFlag_eq, resolveFlag_eq]
  -- Each stage hands the first fault on, so a stage that fails ends both sides alike.
  cases resolve request.maxDepth file _ (integerEntry _) (.content defaultDepth) with
  | error fault => rfl
  | ok depth =>
    cases resolve (request.maxSteps.map some) file _ (orNull (integerEntry _)) none with
    | error fault => rfl
    | ok steps =>
      cases resolve request.validateNesting file _ (flagEntry _) true with
      | error fault => rfl
      | ok nesting => cases resolve request.rejectRecursion file _ (flagEntry _) true <;> rfl

/-- The four settings, each from where it is to be taken. -/
structure Request.Chooses (request : Request) (file : Json) (choice : Choice) : Prop where
  depth : Sourced request.maxDepth file "max_depth".toList
    (integerEntry "max_depth".toList) (.content defaultDepth) choice.depth
  steps : Sourced (request.maxSteps.map some) file "max_steps".toList
    (orNull (integerEntry "max_steps".toList)) none choice.steps
  nesting : Sourced request.validateNesting file "validate_nesting".toList
    (flagEntry "validate_nesting".toList) true choice.nesting
  recursion : Sourced request.rejectRecursion file "reject_recursion".toList
    (flagEntry "reject_recursion".toList) true choice.recursion

theorem Request.choose_eq_ok_iff {request : Request} {file : Json} {choice : Choice} :
    request.choose file = .ok choice ↔ request.Chooses file choice := by
  simp only [Request.choose, bind_eq_ok_iff, resolve_eq_ok_iff, Except.ok.injEq]
  constructor
  · rintro ⟨_, depth, _, steps, _, nesting, _, recursion, rfl⟩
    exact ⟨depth, steps, nesting, recursion⟩
  · rintro ⟨depth, steps, nesting, recursion⟩
    exact ⟨_, depth, _, steps, _, nesting, _, recursion, rfl⟩

/-- Whether the command line does not give all four settings. -/
def Request.LeavesOpen (request : Request) : Prop :=
  request.maxDepth = none ∨ request.maxSteps = none ∨ request.validateNesting = none ∨
    request.rejectRecursion = none

/-- In a file with members, finding the settings fails with a fault of an entry. -/
theorem Request.ofEntry_of_choose_eq_error {request : Request} {file : Json} {fault : ConfigFault}
    (members : HasMembers file) (failed : request.choose file = .error fault) : fault.OfEntry := by
  simp only [Request.choose, bind_eq_error_iff, reduceCtorEq, and_false, exists_false,
    or_false] at failed
  rcases failed with failed | ⟨_, _, failed | ⟨_, _, failed | ⟨_, _, failed⟩⟩⟩ <;>
    obtain ⟨entry, refused⟩ := exists_entry_of_resolve_eq_error members failed
  · exact ofEntry_of_integerEntry refused
  · exact ofEntry_of_orNull refused
  · exact ofEntry_of_flagEntry refused
  · exact ofEntry_of_flagEntry refused

/-- In a file without members, finding the settings fails unless none is looked for. -/
theorem Request.choose_eq_error_iff_of_not_hasMembers {request : Request} {file : Json}
    {fault : ConfigFault} (other : ¬ HasMembers file) :
    request.choose file = .error fault ↔ fault = .notObject file ∧ request.LeavesOpen := by
  simp only [Request.choose, resolve_of_not_hasMembers other, Request.LeavesOpen]
  -- All open settings fail with the same fault, so it does not matter which one is met first.
  rcases request.maxDepth with _ | depth <;> rcases request.maxSteps with _ | steps <;>
    rcases request.validateNesting with _ | nesting <;>
    rcases request.rejectRecursion with _ | recursion <;>
    simp [bind, Except.bind, eq_comm]

theorem Request.choose_eq_error_cases {request : Request} {file : Json} {fault : ConfigFault}
    (failed : request.choose file = .error fault) :
    fault.OfEntry ∨ fault = .notObject file ∧ ¬ HasMembers file ∧ request.LeavesOpen := by
  by_cases members : HasMembers file
  · exact .inl (Request.ofEntry_of_choose_eq_error members failed)
  · obtain ⟨same, left⟩ := (Request.choose_eq_error_iff_of_not_hasMembers members).mp failed
    exact .inr ⟨same, members, left⟩

/-! ## The limits -/

/-- Whether a limit has a content in its range. -/
def Operand.InRange (limit : Operand Int) : Prop := ∃ value, limit = .content value ∧ 1 ≤ value

/-- The settings that a choice comes to: its own values, with both limits in their range. -/
structure Choice.Settles (choice : Choice) (settings : Settings) : Prop where
  depth : choice.depth = .content settings.maxDepth
  steps : choice.steps = settings.maxSteps.map .content
  nesting : choice.nesting = settings.validateNesting
  recursion : choice.recursion = settings.rejectRecursion
  depth_pos : 1 ≤ settings.maxDepth
  steps_pos : ∀ limit, settings.maxSteps = some limit → 1 ≤ limit

/-- A limit without a content that is reached: the one on depth, or the one on steps after the one on
depth has passed. -/
def Choice.MeetsBlank (choice : Choice) : Prop :=
  choice.depth = .blank ∨ choice.depth.InRange ∧ choice.steps = some .blank

theorem limitOf_eq_ok_iff {operand : Operand Int} {limit : Int} :
    limitOf operand = .ok limit ↔ operand = .content limit := by
  cases operand <;> simp [limitOf]

theorem limitOf_eq_error_iff {operand : Operand Int} {fault : ConfigFault} :
    limitOf operand = .error fault ↔ operand = .blank ∧ fault = .blankLimit := by
  cases operand <;> simp [limitOf, eq_comm]

theorem mapError_check_eq_ok_iff {settings checked : Settings} :
    settings.check.mapError ConfigFault.range = .ok checked ↔
      checked = settings ∧ 1 ≤ settings.maxDepth ∧
        ∀ limit, settings.maxSteps = some limit → 1 ≤ limit := by
  obtain ⟨depth, steps, nesting, recursion⟩ := settings
  unfold Settings.check
  by_cases low : depth < 1
  · refine ⟨by simp [low, Except.mapError], fun ⟨_, within, _⟩ => ?_⟩
    exact absurd low (Int.not_lt.mpr within)
  · cases steps with
    | none => simp [low, Except.mapError, eq_comm]; omega
    | some limit =>
      by_cases few : limit < 1
      · simp [low, few, Except.mapError]
      · simp [low, few, Except.mapError, eq_comm]; omega

theorem exists_range_of_check_eq_error {settings : Settings} {fault : ConfigFault}
    (failed : settings.check.mapError ConfigFault.range = .error fault) :
    ∃ cause, fault = .range cause := by
  obtain ⟨cause, _, same⟩ := mapError_eq_error_iff.mp failed
  exact ⟨cause, same.symm⟩

theorem Choice.check_eq_ok_iff {choice : Choice} {settings : Settings} :
    choice.check = .ok settings ↔ choice.Settles settings := by
  obtain ⟨depth, steps, nesting, recursion⟩ := choice
  simp only [Choice.check, bind_eq_ok_iff, limitOf_eq_ok_iff, mapError_check_eq_ok_iff]
  constructor
  · rintro ⟨limit, rfl, _, ⟨rfl, low, -⟩, ended⟩
    cases steps with
    | none =>
      cases ended
      exact ⟨rfl, rfl, rfl, rfl, low, nofun⟩
    | some steps =>
      obtain ⟨budget, content, checked⟩ := bind_eq_ok_iff.mp ended
      obtain ⟨rfl, -, few⟩ := mapError_check_eq_ok_iff.mp checked
      exact ⟨rfl, congrArg some (limitOf_eq_ok_iff.mp content), rfl, rfl, low, few⟩
  · rintro ⟨rfl, rfl, rfl, rfl, low, few⟩
    refine ⟨_, rfl, _, ⟨rfl, low, nofun⟩, ?_⟩
    obtain ⟨limit, _ | budget, _, _⟩ := settings
    · rfl
    · exact bind_eq_ok_iff.mpr ⟨budget, rfl, mapError_check_eq_ok_iff.mpr ⟨rfl, low, few⟩⟩

/-- Checking the limits fails at a blank limit or at one out of its range. -/
theorem Choice.check_eq_error_cases {choice : Choice} {fault : ConfigFault}
    (failed : choice.check = .error fault) :
    fault = .blankLimit ∧ choice.MeetsBlank ∨ ∃ cause, fault = .range cause := by
  obtain ⟨depth, steps, nesting, recursion⟩ := choice
  rcases bind_eq_error_iff.mp failed with unread | ⟨limit, content, failed⟩
  · obtain ⟨blank, rfl⟩ := limitOf_eq_error_iff.mp unread
    exact .inl ⟨rfl, .inl blank⟩
  rcases bind_eq_error_iff.mp failed with failed | ⟨settings, checked, failed⟩
  · exact .inr (exists_range_of_check_eq_error failed)
  cases steps with
  | none => cases failed
  | some steps =>
    rcases bind_eq_error_iff.mp failed with unread | ⟨_, _, failed⟩
    · obtain ⟨rfl, rfl⟩ := limitOf_eq_error_iff.mp unread
      have low := (mapError_check_eq_ok_iff.mp checked).2.1
      exact .inl ⟨rfl, .inr ⟨⟨limit, limitOf_eq_ok_iff.mp content, low⟩, rfl⟩⟩
    · exact .inr (exists_range_of_check_eq_error failed)

theorem Choice.check_of_meetsBlank {choice : Choice} (blank : choice.MeetsBlank) :
    choice.check = .error .blankLimit := by
  obtain ⟨depth, steps, nesting, recursion⟩ := choice
  rcases blank with rfl | ⟨⟨limit, rfl, low⟩, rfl⟩
  · rfl
  · have passed : (Settings.check ⟨limit, none, nesting, recursion⟩).mapError ConfigFault.range =
        .ok ⟨limit, none, nesting, recursion⟩ :=
      mapError_check_eq_ok_iff.mpr ⟨rfl, low, nofun⟩
    exact bind_eq_error_iff.mpr
      (.inr ⟨limit, rfl, bind_eq_error_iff.mpr (.inr ⟨_, passed, rfl⟩)⟩)

/-! ## The settings of a request -/

section Settings

variable {request : Request} {file : Json}

theorem Request.settings_eq_ok_iff {settings : Settings} :
    request.settings file = .ok settings ↔
      ∃ choice, request.Chooses file choice ∧ choice.Settles settings := by
  simp only [Request.settings_eq, bind_eq_ok_iff, Request.choose_eq_ok_iff, Choice.check_eq_ok_iff]

theorem Request.settings_eq_notObject_iff {value : Json} :
    request.settings file = .error (.notObject value) ↔
      value = file ∧ ¬ HasMembers file ∧ request.LeavesOpen := by
  rw [Request.settings_eq, bind_eq_error_iff]
  constructor
  · rintro (failed | ⟨choice, _, failed⟩)
    · rcases Request.choose_eq_error_cases failed with ofEntry | ⟨same, other, left⟩
      · exact absurd ofEntry (ConfigFault.not_ofEntry_notObject value)
      · exact ⟨ConfigFault.notObject.inj same, other, left⟩
    · rcases Choice.check_eq_error_cases failed with ⟨same, _⟩ | ⟨_, same⟩ <;> cases same
  · rintro ⟨rfl, other, left⟩
    exact .inl ((Request.choose_eq_error_iff_of_not_hasMembers other).mpr ⟨rfl, left⟩)

theorem Request.settings_eq_blankLimit_iff :
    request.settings file = .error .blankLimit ↔
      ∃ choice, request.Chooses file choice ∧ choice.MeetsBlank := by
  rw [Request.settings_eq, bind_eq_error_iff]
  constructor
  · rintro (failed | ⟨choice, chosen, failed⟩)
    · rcases Request.choose_eq_error_cases failed with ofEntry | ⟨same, _⟩
      · exact absurd ofEntry ConfigFault.not_ofEntry_blankLimit
      · cases same
    · rcases Choice.check_eq_error_cases failed with ⟨_, blank⟩ | ⟨_, same⟩
      · exact ⟨choice, Request.choose_eq_ok_iff.mp chosen, blank⟩
      · cases same
  · rintro ⟨choice, chosen, blank⟩
    exact .inr ⟨choice, Request.choose_eq_ok_iff.mpr chosen, Choice.check_of_meetsBlank blank⟩

end Settings

end Lamplighter.CommandLine
