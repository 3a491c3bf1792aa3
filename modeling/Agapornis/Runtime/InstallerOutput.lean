import Agapornis.Core.Failure
import Agapornis.Foundations.StreamEnds
import Agapornis.Foundations.Text

namespace Agapornis
namespace Runtime

open Foundations Agapornis.Core StreamEnds

/-!
# The output of an installer

The first bytes that an installer prints go into a log file, and the last ones
are kept for a message.
-/

def installerLogFileLimit : Nat := 8 * 1024 * 1024

def appendTail (output bytes : Bytes) (capacity : Nat) : Bytes :=
  if capacity <= bytes.length then bytes.drop (bytes.length - capacity)
  else
    let overflow := output.length + bytes.length - capacity
    let kept := if 0 < overflow then output.drop overflow else output
    kept ++ bytes

/-- How a write to the log file ends; one that fails may have written a part. -/
inductive LogWrite where
  | whole
  | broken (written : Nat) (error : Errno)
  deriving DecidableEq, Repr

structure InstallerLog where
  file : Bytes := []
  fileBytes : Nat := 0
  tail : Bytes := []
  deriving DecidableEq, Repr

def persistInstallerOutput (capacity : Nat) (log : InstallerLog) (bytes : Bytes) (write : LogWrite) :
    Except Failure Unit × InstallerLog :=
  let remaining := installerLogFileLimit - log.fileBytes
  let persisted := min bytes.length remaining
  let output := bytes.take persisted
  let tail := appendTail log.tail bytes capacity
  if 0 < persisted then
    match write with
    | .broken written error => (.error (.io error), { log with file := log.file ++ output.take written })
    | .whole => (.ok (), ⟨log.file ++ output, log.fileBytes + persisted, tail⟩)
  else (.ok (), { log with tail })

/-- The chunks of the output, one after the other. -/
def persistChunks (capacity : Nat) : InstallerLog -> List (Bytes × LogWrite) -> Except Failure Unit × InstallerLog
  | log, [] => (.ok (), log)
  | log, chunk :: rest =>
      match persistInstallerOutput capacity log chunk.1 chunk.2 with
      | (.ok (), next) => persistChunks capacity next rest
      | (.error failure, next) => (.error failure, next)

/-- What is to be kept of an output. -/
structure InstallerLog.Keeps (log : InstallerLog) (capacity : Nat) (output : Bytes) : Prop where
  file : log.file = output.take installerLogFileLimit
  fileBytes : log.fileBytes = min installerLogFileLimit output.length
  tail : log.tail = output.rtake capacity

theorem drop_overflow (items : Bytes) (overflow : Nat) :
    (if 0 < overflow then items.drop overflow else items) = items.drop overflow := by
  split
  · rfl
  · next none => rw [Nat.eq_zero_of_not_pos none, List.drop_zero]

/-- The buffer is cut to what the new bytes leave room for. -/
theorem appendTail_rtake (output bytes : Bytes) (capacity : Nat) :
    appendTail (output.rtake capacity) bytes capacity = (output ++ bytes).rtake capacity := by
  unfold appendTail
  split
  · next long => exact (rtake_append_of_le output long).symm
  · next short =>
      have fits : bytes.length <= capacity := Nat.le_of_not_le short
      have room : (output.rtake capacity).length + bytes.length - capacity =
          (output.rtake capacity).length - (capacity - bytes.length) := by
        omega
      rw [rtake_append_of_ge output fits]
      dsimp only
      rw [drop_overflow, room, ← List.rtake, rtake_rtake output (Nat.sub_le _ _)]

example : appendTail [49, 50, 51, 52] [53, 54, 55, 56, 57, 48] 6 = [53, 54, 55, 56, 57, 48] := by decide

section Persisting

variable {log : InstallerLog} {capacity : Nat} {output : Bytes}

theorem empty_keeps (capacity : Nat) : InstallerLog.Keeps {} capacity [] where
  file := List.take_nil.symm
  fileBytes := (Nat.min_zero _).symm
  tail := List.drop_nil.symm

/-- The file grows by what is persisted of a chunk. -/
theorem persisted_file (keeps : log.Keeps capacity output) (bytes : Bytes) :
    log.file ++ bytes.take (min bytes.length (installerLogFileLimit - log.fileBytes)) =
      (output ++ bytes).take installerLogFileLimit := by
  have room : bytes.take (min bytes.length (installerLogFileLimit - log.fileBytes)) =
      bytes.take (installerLogFileLimit - output.length) := by
    rw [keeps.fileBytes, List.take_eq_take_iff]
    omega
  rw [room, keeps.file, ← List.take_append]

theorem persisted_bytes (keeps : log.Keeps capacity output) (bytes : Bytes) :
    log.fileBytes + min bytes.length (installerLogFileLimit - log.fileBytes) =
      min installerLogFileLimit (output ++ bytes).length := by
  rw [keeps.fileBytes, List.length_append]
  omega

theorem persist_keeps (keeps : log.Keeps capacity output) {bytes : Bytes} {write : LogWrite}
    (persisted : (persistInstallerOutput capacity log bytes write).1 = .ok ()) :
    (persistInstallerOutput capacity log bytes write).2.Keeps capacity (output ++ bytes) := by
  have file := persisted_file keeps bytes
  have fileBytes := persisted_bytes keeps bytes
  have tail : appendTail log.tail bytes capacity = (output ++ bytes).rtake capacity := by
    rw [keeps.tail, appendTail_rtake]
  unfold persistInstallerOutput at persisted ⊢
  dsimp only at persisted ⊢
  split at persisted
  · next some =>
      rw [if_pos some]
      cases write with
      | whole => exact ⟨file, fileBytes, tail⟩
      | broken written error => cases persisted
  · next none =>
      have nothing : min bytes.length (installerLogFileLimit - log.fileBytes) = 0 := Nat.eq_zero_of_not_pos none
      rw [nothing, List.take_zero, List.append_nil] at file
      rw [nothing, Nat.add_zero] at fileBytes
      rw [if_neg none]
      exact ⟨file, fileBytes, tail⟩

theorem persist_whole (capacity : Nat) (log : InstallerLog) (bytes : Bytes) :
    (persistInstallerOutput capacity log bytes .whole).1 = .ok () := by
  unfold persistInstallerOutput
  dsimp only
  split <;> rfl

theorem chunks_keep {chunks : List (Bytes × LogWrite)} : forall {log : InstallerLog} {output : Bytes},
    log.Keeps capacity output -> (persistChunks capacity log chunks).1 = .ok () ->
      (persistChunks capacity log chunks).2.Keeps capacity (output ++ (chunks.map Prod.fst).flatten) := by
  induction chunks with
  | nil =>
      intro log output keeps _
      rw [List.map_nil, List.flatten_nil, List.append_nil]
      exact keeps
  | cons chunk rest induction =>
      intro log output keeps persisted
      rw [persistChunks] at persisted ⊢
      rw [List.map_cons, List.flatten_cons, ← List.append_assoc]
      rcases first : persistInstallerOutput capacity log chunk.1 chunk.2 with ⟨failure | done, next⟩
      · rw [first] at persisted
        cases persisted
      · rw [first] at persisted
        have begun := persist_keeps keeps (congrArg Prod.fst first)
        rw [first] at begun
        exact induction begun persisted

theorem chunks_whole {chunks : List (Bytes × LogWrite)} (whole : forall chunk, chunk ∈ chunks -> chunk.2 = .whole) :
    forall log : InstallerLog, (persistChunks capacity log chunks).1 = .ok () := by
  induction chunks with
  | nil => exact fun _ => rfl
  | cons chunk rest induction =>
      intro log
      have first := persist_whole capacity log chunk.1
      rw [persistChunks, whole chunk List.mem_cons_self]
      rcases done : persistInstallerOutput capacity log chunk.1 .whole with ⟨failure | _, next⟩
      · rw [done] at first
        cases first
      · exact induction (fun other member => whole other (List.mem_cons_of_mem chunk member)) next

end Persisting

/-- However an output comes in chunks, the file has its first bytes and the buffer its last ones. -/
theorem installer_output_kept (capacity : Nat) (chunks : List (Bytes × LogWrite)) :
    let persisted := persistChunks capacity {} chunks
    let output := (chunks.map Prod.fst).flatten
    ((forall chunk, chunk ∈ chunks -> chunk.2 = .whole) -> persisted.1 = .ok ()) /\
      (persisted.1 = .ok () ->
        persisted.2.file = output.take (min installerLogFileLimit output.length) /\
          persisted.2.tail = output.drop (output.length - min capacity output.length)) := by
  intro persisted output
  refine ⟨fun whole => chunks_whole whole {}, fun done => ?_⟩
  have keeps : persisted.2.Keeps capacity output := chunks_keep (empty_keeps capacity) done
  constructor
  · rw [keeps.file, List.take_eq_take_iff]
    omega
  · have behind : output.length - min capacity output.length = output.length - capacity := by omega
    rw [keeps.tail, List.rtake, behind]

end Runtime
end Agapornis
