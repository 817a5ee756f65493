import Lamplighter.Proofs.BrokenOff

/-! # Requests that come to their end

A request comes to its end if its settings, its map and its program are read, the map draws a world, and
the program runs on it without a fault. The stages and what each of them comes to are kept together, so
what is printed in the end can be traced back to them.
-/

namespace Lamplighter.CommandLine

/-- The stages of a request that comes to its end, each with what it comes to. -/
structure Completion (host : Host) (files : Files) (request : Request) where
  settings : Settings
  rows : List Text
  program : List Text
  start : Session
  summary : Summary
  settled : readSettings host files request = .ok settings
  map_read : readNamed files request.map = .ok rows
  program_read : readNamed files request.program = .ok program
  started : Session.start settings host.stack (mapRows rows) = .ok start
  finished : (start.run (instructions program)).result = .ok summary

namespace Completion

variable {host : Host} {files : Files} {request : Request}

def session (completion : Completion host files request) : Session :=
  (completion.start.run (instructions completion.program)).session

def output (completion : Completion host files request) : Text :=
  (summaryOf completion.session completion.summary.steps).write 0 ++ ['\n']

def outcome (completion : Completion host files request) : Outcome :=
  .ended (String.ofList completion.output)
    (if request.verbose then finishedLine completion.summary.steps else "") 0

theorem runProgram_eq (completion : Completion host files request) :
    runProgram host completion.settings (mapRows completion.rows) (instructions completion.program) =
      .ok (completion.session, completion.summary.steps) := by
  unfold runProgram
  rw [completion.started]
  refine bind_eq_ok_iff.mpr ⟨completion.start, rfl, ?_⟩
  exact bind_eq_ok_iff.mpr ⟨completion.summary, completion.finished, rfl⟩

theorem perform_eq (completion : Completion host files request) :
    request.perform host files = .ok completion.outcome := by
  refine bind_eq_ok_iff.mpr ⟨_, completion.settled, ?_⟩
  refine bind_eq_ok_iff.mpr ⟨_, completion.map_read, ?_⟩
  refine bind_eq_ok_iff.mpr ⟨_, completion.program_read, ?_⟩
  exact bind_eq_ok_iff.mpr ⟨_, mapError_eq_ok_iff.mpr completion.runProgram_eq, rfl⟩

end Completion

section Reached

variable {host : Host} {files : Files} {request : Request} {arguments : List Text}

theorem nonempty_completion {outcome : Outcome} (performed : request.perform host files = .ok outcome) :
    Nonempty (Completion host files request) := by
  obtain ⟨settings, settled, performed⟩ := bind_eq_ok_iff.mp performed
  obtain ⟨rows, map_read, performed⟩ := bind_eq_ok_iff.mp performed
  obtain ⟨program, program_read, performed⟩ := bind_eq_ok_iff.mp performed
  obtain ⟨_, ran, _⟩ := bind_eq_ok_iff.mp performed
  obtain ⟨start, begun, ran⟩ := bind_eq_ok_iff.mp (mapError_eq_ok_iff.mp ran)
  obtain ⟨summary, finished, _⟩ := bind_eq_ok_iff.mp ran
  exact ⟨⟨settings, rows, program, start, summary, settled, map_read, program_read,
    mapError_eq_ok_iff.mp begun, finished⟩⟩

theorem Completion.run_eq (completion : Completion host files request)
    (read : Request.read arguments = .ok request) : run host files arguments = completion.outcome := by
  rw [run_of_read read, Request.outcome, completion.perform_eq]

theorem Failure.status?_outcome_ne (failure : Failure) : failure.outcome.status? ≠ some 0 := by
  cases failure with
  | refused _ | fault _ => exact fun same => absurd (Option.some.inj same) (by decide)
  | aborted _ => exact nofun

/-- A command line that asks for a run ends with status 0 exactly if the request comes to its end. -/
theorem status?_eq_zero_iff (read : Request.read arguments = .ok request) :
    (run host files arguments).status? = some 0 ↔ Nonempty (Completion host files request) := by
  constructor
  · intro success
    rw [run_of_read read, Request.outcome] at success
    cases performed : request.perform host files with
    | error failure =>
      rw [performed] at success
      exact absurd success failure.status?_outcome_ne
    | ok outcome => exact nonempty_completion performed
  · rintro ⟨completion⟩
    rw [completion.run_eq read]
    rfl

end Reached

end Lamplighter.CommandLine
