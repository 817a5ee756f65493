import Lamplighter.Proofs.Completion
import Lamplighter.Proofs.ReadBack

/-! # The printed summary is read back

What the command prints in the end is the text of an object, and the reader of settings files gets the same
object from it: the robot's place, the rows of the map with every character they have, and the number of
steps. Only an integer that is too long to be read is no part of this.
-/

namespace Lamplighter.CommandLine

/-- A summary is read back if its three integers are not too long. -/
theorem readable_summaryOf {session : Session} {steps : Nat}
    (short : ∀ number ∈ [session.world.col, session.world.row, steps], number < 10 ^ Text.digitLimit)
    (room : Nat) : Json.Readable (room + 2) (summaryOf session steps) := by
  have integer : ∀ number ∈ [session.world.col, session.world.row, steps], ∀ room,
      Json.Readable room (.integer number) := by
    intro number listed room
    exact .integer (short number listed)
  have distinct : (["position", "map", "steps"].map fun name => name.toList.map Char.toNat).Nodup := by
    decide
  -- The summary is an object around two arrays, so it takes two of the levels.
  refine .object ?named distinct ?inside
  case named =>
    intro member listed
    simp only [List.mem_cons, List.not_mem_nil, or_false] at listed
    rcases listed with rfl | rfl | rfl
    · exact ⟨"position".toList, rfl⟩
    · exact ⟨"map".toList, rfl⟩
    · exact ⟨"steps".toList, rfl⟩
  case inside =>
    intro member listed
    simp only [List.mem_cons, List.not_mem_nil, or_false] at listed
    rcases listed with rfl | rfl | rfl
    · refine .array fun item place => ?_
      simp only [List.mem_cons, List.not_mem_nil, or_false] at place
      rcases place with rfl | rfl
      · exact integer _ (by simp) _
      · exact integer _ (by simp) _
    · refine .array fun item drawn => ?_
      obtain ⟨row, _, rfl⟩ := List.mem_map.mp drawn
      exact .string row
    · exact integer steps (by simp) _

/-- A file with the text of a readable value holds that value. -/
theorem readConfig_of_stores {host : Host} {files : Files} {path : Path} {value : Json}
    (readable : Json.Readable host.containers value)
    (stored : Stores files path (value.write 0 ++ ['\n'])) : readConfig host files path = .ok value := by
  have held := stored.holds_write (readable.return_not_mem_write 0)
  rw [held.readConfig, Json.read_write readable]
  rfl

/-- The command succeeds exactly on the requests that come to their end, and what it prints then is read
back, as a text or from a file, wherever there is room for two containers inside each other: an object with
the robot's place, the rows of the map and the number of steps, whatever characters the rows have. -/
theorem printed_summary_reads_back (host : Host) (files : Files) {arguments : List Text} {request : Request}
    (read : Request.read arguments = .ok request) :
    ((run host files arguments).status? = some 0 ↔ Nonempty (Completion host files request)) ∧
    ∀ completion : Completion host files request,
      let world := completion.session.world
      let summary := Json.object [
        ("position".toList.map Char.toNat, .array [.integer world.col, .integer world.row]),
        ("map".toList.map Char.toNat, .array (world.grid.draw.map Json.ofText)),
        ("steps".toList.map Char.toNat, .integer completion.summary.steps)]
      (∀ number ∈ [world.col, world.row, completion.summary.steps], number < 10 ^ Text.digitLimit) →
        ∀ reader : Host, 2 ≤ reader.containers →
          Json.read reader.containers (run host files arguments).output.toList = .ok summary ∧
            ∀ saved path, Stores saved path (run host files arguments).output.toList →
              readConfig reader saved path = .ok summary := by
  refine ⟨status?_eq_zero_iff read, ?_⟩
  intro completion world summary short reader roomy
  have readable : Json.Readable reader.containers summary := by
    obtain ⟨room, wide⟩ := Nat.exists_eq_add_of_le' roomy
    rw [wide]
    exact readable_summaryOf short room
  have printed : (run host files arguments).output.toList = summary.write 0 ++ ['\n'] := by
    rw [completion.run_eq read]
    exact String.toList_ofList
  rw [printed]
  exact ⟨Json.read_write readable, fun saved path stored => readConfig_of_stores readable stored⟩

/-- A folder with a map of quotes, a backslash, control characters and letters of several bytes. -/
private def oddFolder : Files :=
  (Folder.ofList ([("map.txt", "R\"\\\x01\n\x1fé灯𐍈\n"), ("program.txt", "FORWARD\nLIGHT\n")].map
    fun file => (file.1.toList, Text.Utf8.encode file.2.toList))).read

private def oddArguments : List Text :=
  ["--map", "map.txt", "--program", "program.txt"].map String.toList

private theorem stores_oddMap :
    Stores oddFolder (.ofText "map.txt".toList) "R\"\\\x01\n\x1fé灯𐍈\n".toList := rfl

private def oddCompletion : Completion .usual oddFolder { folderRequest with config := none } where
  settings := {}
  rows := ["R\"\\\x01".toList, "\x1fé灯𐍈".toList]
  program := ["FORWARD".toList, "LIGHT".toList]
  start :=
    let world := ⟨⟨[".\"\\\x01".toList, "\x1fé灯𐍈".toList]⟩, 0, 0, .right⟩
    ⟨{}, world, world.snapshot, .empty, Host.usual.stack⟩
  summary := ⟨2, 1, 0, 0⟩
  settled := by rfl
  map_read := stores_oddMap.holds.readLines.trans (congrArg Except.ok (by decide))
  program_read := by rfl
  started := by rfl
  finished := by rfl

theorem printed_summary_reads_back_of_odd_cells :
    (run .usual oddFolder oddArguments).status? = some 0 ∧
    Json.read 2 (run .usual oddFolder oddArguments).output.toList = .ok (.object [
      ("position".toList.map Char.toNat, .array [.integer 1, .integer 0]),
      ("map".toList.map Char.toNat, .array [.ofText ".\"\\\x01".toList, .ofText "\x1fé灯𐍈".toList]),
      ("steps".toList.map Char.toNat, .integer 2)]) := by
  have read : Request.read oddArguments = .ok { folderRequest with config := none } := by decide +kernel
  have short : ∀ number ∈ [1, 0, 2], number < 10 ^ Text.digitLimit := by
    intro number listed
    have small : number < 10 ^ 1 := by
      revert number
      decide
    exact Nat.lt_of_lt_of_le small (Nat.pow_le_pow_right (by decide) (by decide))
  obtain ⟨succeeds, reads⟩ := printed_summary_reads_back .usual oddFolder read
  exact ⟨succeeds.mpr ⟨oddCompletion⟩, (reads oddCompletion short ⟨0, 2⟩ le_rfl).1⟩

end Lamplighter.CommandLine
