import Agapornis.Storage.Imports

namespace Agapornis
namespace Storage

open Foundations Agapornis.Core
open Console (outermost)

/-!
# Uploads

A client sends a file in frames: the server and the path come first, and then
the parts of the file.  The parts are collected in a temporary file, which is
handed to the server's files when all of them are there.  The temporary file
has a guard, with which it is removed however the call ends, and also where the
client goes away before that.
-/

inductive UploadData where
  | metadata (serverId targetPath : Text)
  | chunkData (bytes : Bytes)
  deriving DecidableEq, Repr

/-- A frame is an error of the stream, or a request that may be empty. -/
abbrev UploadFrame := Except Status (Option UploadData)

structure FileActionResponse where
  success : Bool
  errorMessage : String
  deriving DecidableEq, Repr

/-- The largest number that counts the bytes of an upload. -/
def largestTotal : Nat := 2 ^ 64 - 1

def resourceExhausted : StatusCode := .other 8

inductive UploadCall where
  | createTemporary
  /-- The write of what the frame of this number brings. -/
  | write (frame : Nat) (bytes : Bytes)
  | flush
  | writeFromPath (id path : Text)

/-- The temporary file, and what the server's files were given. -/
structure UploadFiles where
  temporary : Option Bytes
  given : List (Text × Text × Bytes)
  deriving DecidableEq

/-- Which of the calls fail.  A write that fails has written some of its bytes. -/
structure UploadAnswers where
  createTemporary : Option Failure
  write : Nat -> Option (Failure × Nat)
  flush : Option Failure
  writeFromPath : Option Failure
  removeFails : Bool

def UploadAnswers.perform (answers : UploadAnswers) (request : UploadCall) (files : UploadFiles) :
    Except Failure Unit × UploadFiles :=
  match request with
  | .createTemporary =>
      match answers.createTemporary with
      | some failure => (.error failure, files)
      | none => (.ok (), { files with temporary := some [] })
  | .write frame bytes =>
      match answers.write frame with
      | some (failure, count) =>
          (.error failure, { files with temporary := files.temporary.map (· ++ bytes.take count) })
      | none => (.ok (), { files with temporary := files.temporary.map (· ++ bytes) })
  | .flush =>
      match answers.flush with
      | some failure => (.error failure, files)
      | none => (.ok (), files)
  | .writeFromPath id path =>
      let handed := { files with given := files.given ++ [(id, path, files.temporary.getD [])] }
      match answers.writeFromPath with
      | some failure => (.error failure, handed)
      | none => (.ok (), handed)

abbrev UploadProgram := Program UploadCall (fun _ => Except Failure Unit) Status

/-- What is known after some frames: the server and the path, and the bytes of the parts. -/
structure UploadProgress where
  metadata : Option (Text × Text)
  total : Nat
  frames : Nat

section Upload

variable (describe : Errno -> String) (maximum : Nat)

def invalidArgument : Except Failure Unit -> Except Status Unit
  | .ok () => .ok ()
  | .error failure => .error ⟨.invalidArgument, outermost describe failure⟩

/-- Whether a file may go to a path of a server. -/
def checkUpload (id path : Text) : Except Status Unit := do
  invalidArgument describe (Paths.validateId id)
  if (Text.trimStartMatches ['/', '\\'] path).isEmpty then
    .error ⟨.invalidArgument, "upload target path is required"⟩
  else invalidArgument describe ((Paths.relative path).map fun _ => ())

def uploadFrame (progress : UploadProgress) : UploadFrame -> UploadProgram UploadProgress
  | .error status => .failed status
  | .ok none => .done { progress with frames := progress.frames + 1 }
  | .ok (some (.metadata id path)) =>
      if progress.metadata.isSome then .failed ⟨.invalidArgument, "metadata may only be sent once"⟩
      else do
        Program.ofExcept (checkUpload describe id path)
        Program.required (internal describe) (Program.ask .createTemporary)
        Program.done { progress with metadata := some (id, path), frames := progress.frames + 1 }
  | .ok (some (.chunkData bytes)) =>
      if progress.metadata.isNone then
        .failed ⟨.invalidArgument, "Metadata must be sent before chunk data."⟩
      else
        let total := min (progress.total + bytes.length) largestTotal
        if maximum < total then .failed ⟨resourceExhausted, "Uploaded file is too large."⟩
        else do
          Program.required (internal describe) (Program.ask (.write progress.frames bytes))
          Program.done { progress with total := total, frames := progress.frames + 1 }

def fileAction : Except Failure Unit -> FileActionResponse
  | .ok () => ⟨true, ""⟩
  | .error failure => ⟨false, outermost describe failure⟩

/-- What is done when all the frames are there. -/
def finishUpload (progress : UploadProgress) : UploadProgram FileActionResponse :=
  match progress.metadata with
  | none => .failed ⟨.invalidArgument, "Upload metadata is required."⟩
  | some (id, path) => do
      Program.required (internal describe) (Program.ask .flush)
      let result <- Program.ask (.writeFromPath id path)
      Program.done (fileAction describe result)

def receiveUpload (frames : List UploadFrame) : UploadProgram FileActionResponse := do
  let progress <- Program.forEach (uploadFrame describe maximum) ⟨none, 0, 0⟩ frames
  finishUpload describe progress

/-- The guard of the temporary file is dropped. -/
def UploadAnswers.dropGuard (answers : UploadAnswers) (files : UploadFiles) : UploadFiles :=
  if answers.removeFails then files else { files with temporary := none }

/-- An upload that runs to its end. -/
def uploadFile (answers : UploadAnswers) (frames : List UploadFrame) :
    Except Status FileActionResponse × UploadFiles :=
  let ran := (receiveUpload describe maximum frames).run answers.perform ⟨none, []⟩
  (ran.1, answers.dropGuard ran.2)

/-- An upload whose client goes away after some calls.  The call that is then under way may be
carried out nevertheless; a temporary file that is only made then has no guard yet. -/
def abandonedUpload (answers : UploadAnswers) (frames : List UploadFrame) (calls : Nat) (carriedOut : Bool) :
    UploadFiles :=
  let before := (receiveUpload describe maximum frames).cut answers.perform calls ⟨none, []⟩
  let after := (receiveUpload describe maximum frames).cut answers.perform (calls + 1) ⟨none, []⟩
  if carriedOut then
    if before.temporary.isNone && after.temporary.isSome then after else answers.dropGuard after
  else answers.dropGuard before

end Upload

/-! ## What an upload brings -/

/-- The bytes of the parts. -/
def uploadedBytes : List UploadFrame -> Bytes
  | .ok (some (.chunkData bytes)) :: rest => bytes ++ uploadedBytes rest
  | _ :: rest => uploadedBytes rest
  | [] => []

/-- There are parts only, and requests that are empty. -/
def PartsOnly : List UploadFrame -> Prop
  | [] => True
  | .ok none :: rest => PartsOnly rest
  | .ok (some (.chunkData _)) :: rest => PartsOnly rest
  | _ => False

/-- The server and the path come before the parts, and once. -/
def NamedFirst (id path : Text) : List UploadFrame -> Prop
  | .ok none :: rest => NamedFirst id path rest
  | .ok (some (.metadata serverId targetPath)) :: rest =>
      (serverId = id /\ targetPath = path) /\ PartsOnly rest
  | _ => False

/-- The writes of the parts succeed, from the frame of a number on. -/
def Writable (answers : UploadAnswers) : Nat -> List UploadFrame -> Prop
  | number, .ok (some (.chunkData _)) :: rest => answers.write number = none /\ Writable answers (number + 1) rest
  | number, _ :: rest => Writable answers (number + 1) rest
  | _, [] => True

/-- All parts of a file have come, from the frame of a number on, and were collected. -/
structure Collected (describe : Errno -> String) (maximum : Nat) (answers : UploadAnswers) (number : Nat)
    (frames : List UploadFrame) (id path : Text) : Prop where
  order : NamedFirst id path frames
  accepted : checkUpload describe id path = .ok ()
  bounded : min (uploadedBytes frames).length largestTotal <= maximum
  created : answers.createTemporary = none
  writable : Writable answers number frames

/-- All of a file has come, and is in the temporary file. -/
structure UploadComplete (describe : Errno -> String) (maximum : Nat) (answers : UploadAnswers)
    (frames : List UploadFrame) (id path : Text) : Prop
    extends Collected describe maximum answers 0 frames id path where
  flushed : answers.flush = none

section Runs

variable {describe : Errno -> String} {maximum : Nat} {answers : UploadAnswers}

theorem run_forEach_cons (progress : UploadProgress) (frame : UploadFrame) (rest : List UploadFrame)
    (files : UploadFiles) :
    (Program.forEach (uploadFrame describe maximum) progress (frame :: rest)).run answers.perform files =
      match (uploadFrame describe maximum progress frame).run answers.perform files with
      | (.ok next, after) => (Program.forEach (uploadFrame describe maximum) next rest).run answers.perform after
      | (.error status, after) => (.error status, after) := by
  refine (Program.run_bind answers.perform (uploadFrame describe maximum progress frame)
    (fun next => Program.forEach (uploadFrame describe maximum) next rest) files).trans ?_
  rcases (uploadFrame describe maximum progress frame).run answers.perform files with ⟨_ | _, _⟩ <;> rfl

/-- A part that is taken. -/
theorem run_part {named : Text × Text} {total number : Nat} {content bytes : Bytes}
    {given : List (Text × Text × Bytes)} (bounded : min (total + bytes.length) largestTotal <= maximum)
    (written : answers.write number = none) :
    (uploadFrame describe maximum ⟨some named, total, number⟩ (.ok (some (.chunkData bytes)))).run
        answers.perform ⟨some content, given⟩ =
      (.ok ⟨some named, min (total + bytes.length) largestTotal, number + 1⟩, ⟨some (content ++ bytes), given⟩) := by
  rw [uploadFrame]
  dsimp only
  rw [Option.isNone_some, if_neg Bool.false_ne_true, if_neg (Nat.not_lt.mpr bounded), Program.run_bind,
    Program.run_required, Program.run_ask]
  simp only [UploadAnswers.perform, written, Option.map_some, Program.run]

/-- A part that is not taken. -/
theorem run_part_refused {named : Text × Text} {total number : Nat} {content bytes : Bytes}
    {given : List (Text × Text × Bytes)}
    (refused : Not (min (total + bytes.length) largestTotal <= maximum /\ answers.write number = none)) :
    Exists fun status => Exists fun rest =>
      (uploadFrame describe maximum ⟨some named, total, number⟩ (.ok (some (.chunkData bytes)))).run
        answers.perform ⟨some content, given⟩ = (.error status, ⟨some rest, given⟩) := by
  rw [uploadFrame]
  dsimp only
  rw [Option.isNone_some, if_neg Bool.false_ne_true]
  split
  · exact ⟨_, _, rfl⟩
  · next small =>
      cases failing : answers.write number with
      | none => exact absurd ⟨Nat.not_lt.mp small, failing⟩ refused
      | some failed =>
          rw [Program.run_bind, Program.run_required, Program.run_ask]
          simp only [UploadAnswers.perform, failing, Option.map_some]
          exact ⟨_, _, rfl⟩

theorem uploadedBytes_part (bytes : Bytes) (rest : List UploadFrame) :
    uploadedBytes (.ok (some (.chunkData bytes)) :: rest) = bytes ++ uploadedBytes rest :=
  rfl

/-- Behind the metadata all parts are taken, or the upload fails without having given anything. -/
theorem run_parts (named : Text × Text) (given : List (Text × Text × Bytes)) (frames : List UploadFrame) :
    forall (total number : Nat) (content : Bytes), total <= maximum -> total <= largestTotal ->
      ((PartsOnly frames /\ min (total + (uploadedBytes frames).length) largestTotal <= maximum /\
          Writable answers number frames) ->
        (Program.forEach (uploadFrame describe maximum) ⟨some named, total, number⟩ frames).run answers.perform
            ⟨some content, given⟩ =
          (.ok ⟨some named, min (total + (uploadedBytes frames).length) largestTotal, number + frames.length⟩,
            ⟨some (content ++ uploadedBytes frames), given⟩)) /\
      (Not (PartsOnly frames /\ min (total + (uploadedBytes frames).length) largestTotal <= maximum /\
          Writable answers number frames) ->
        Exists fun status => Exists fun rest =>
          (Program.forEach (uploadFrame describe maximum) ⟨some named, total, number⟩ frames).run answers.perform
            ⟨some content, given⟩ = (.error status, ⟨some rest, given⟩)) := by
  induction frames with
  | nil =>
      intro total number content small few
      have same : min (total + (uploadedBytes []).length) largestTotal = total := Nat.min_eq_left few
      rw [same, uploadedBytes, List.append_nil]
      refine ⟨fun _ => rfl, fun refused => ?_⟩
      exact absurd ⟨trivial, small, trivial⟩ refused
  | cons frame rest induction =>
      intro total number content small few
      have numbers : number + (frame :: rest).length = number + 1 + rest.length := by
        rw [List.length_cons]
        omega
      rw [run_forEach_cons, numbers]
      cases frame with
      | error status => exact ⟨fun all => absurd all.1 id, fun _ => ⟨status, content, rfl⟩⟩
      | ok data =>
          cases data with
          | none => exact induction total (number + 1) content small few
          | some data =>
              cases data with
              | metadata serverId targetPath => exact ⟨fun all => absurd all.1 id, fun _ => ⟨_, content, rfl⟩⟩
              | chunkData bytes =>
                  have sum : min (min (total + bytes.length) largestTotal + (uploadedBytes rest).length) largestTotal =
                      min (total + (bytes ++ uploadedBytes rest).length) largestTotal := by
                    rw [List.length_append]
                    omega
                  by_cases taken : min (total + bytes.length) largestTotal <= maximum /\ answers.write number = none
                  · have later := induction (min (total + bytes.length) largestTotal) (number + 1) (content ++ bytes)
                      taken.1 (Nat.min_le_right _ _)
                    rw [sum, List.append_assoc] at later
                    rw [run_part taken.1 taken.2, uploadedBytes_part]
                    constructor
                    · rintro ⟨parts, bounded, _, writable⟩
                      exact later.1 ⟨parts, bounded, writable⟩
                    · intro refused
                      refine later.2 fun all => refused ⟨all.1, all.2.1, taken.2, all.2.2⟩
                  · rcases @run_part_refused describe maximum answers named total number content bytes given taken with
                      ⟨status, kept, ran⟩
                    rw [ran, uploadedBytes_part]
                    refine ⟨?_, fun _ => ⟨status, kept, rfl⟩⟩
                    rintro ⟨_, bounded, written, _⟩
                    rw [List.length_append] at bounded
                    exact absurd ⟨by omega, written⟩ taken

theorem run_named {id path : Text} {number : Nat} (rest : List UploadFrame) :
    (Collected describe maximum answers number (.ok (some (.metadata id path)) :: rest) id path ->
        (uploadFrame describe maximum ⟨none, 0, number⟩ (.ok (some (.metadata id path)))).run answers.perform
          ⟨none, []⟩ = (.ok ⟨some (id, path), 0, number + 1⟩, ⟨some [], []⟩)) /\
      ((uploadFrame describe maximum ⟨none, 0, number⟩ (.ok (some (.metadata id path)))).run answers.perform
          ⟨none, []⟩ = (.ok ⟨some (id, path), 0, number + 1⟩, ⟨some [], []⟩) /\
        checkUpload describe id path = .ok () /\ answers.createTemporary = none \/
      Exists fun status =>
        (uploadFrame describe maximum ⟨none, 0, number⟩ (.ok (some (.metadata id path)))).run answers.perform
          ⟨none, []⟩ = (.error status, ⟨none, []⟩)) := by
  rw [uploadFrame]
  dsimp only
  rw [Option.isSome_none, if_neg Bool.false_ne_true]
  cases checked : checkUpload describe id path with
  | error status =>
      refine ⟨fun collected => ?_, Or.inr ⟨status, rfl⟩⟩
      cases checked.symm.trans collected.accepted
  | ok _ =>
      cases making : answers.createTemporary with
      | some failure =>
          refine ⟨fun collected => ?_, Or.inr ⟨internal describe failure, ?_⟩⟩
          · cases making.symm.trans collected.created
          · simp only [Program.ofExcept, Program.done_bind, Program.run_bind, Program.run_required, Program.run_ask,
              UploadAnswers.perform, making]
      | none =>
          have made : (do
              Program.ofExcept (.ok ())
              Program.required (internal describe) (Program.ask .createTemporary)
              Program.done ⟨some (id, path), 0, number + 1⟩ : UploadProgram UploadProgress).run answers.perform
                ⟨none, []⟩ = (.ok ⟨some (id, path), 0, number + 1⟩, ⟨some [], []⟩) := by
            simp only [Program.ofExcept, Program.done_bind, Program.run_bind, Program.run_required, Program.run_ask,
              UploadAnswers.perform, making, Program.run]
          exact ⟨fun _ => made, Or.inl ⟨made, rfl, rfl⟩⟩

/-- The frames are collected for the server and the path they name, or nothing was given. -/
theorem run_frames (frames : List UploadFrame) : forall number : Nat,
    (forall id path, Collected describe maximum answers number frames id path ->
        (Program.forEach (uploadFrame describe maximum) ⟨none, 0, number⟩ frames).run answers.perform ⟨none, []⟩ =
          (.ok ⟨some (id, path), min (uploadedBytes frames).length largestTotal, number + frames.length⟩,
            ⟨some (uploadedBytes frames), []⟩)) /\
      (Not (Exists fun id => Exists fun path => Collected describe maximum answers number frames id path) ->
        Exists fun outcome => Exists fun after =>
          (Program.forEach (uploadFrame describe maximum) ⟨none, 0, number⟩ frames).run answers.perform ⟨none, []⟩ =
              (outcome, after) /\ after.given = [] /\
            forall progress, outcome = .ok progress -> progress.metadata = none) := by
  induction frames with
  | nil => exact fun number => ⟨fun _ _ collected => absurd collected.order id,
      fun _ => ⟨_, _, rfl, rfl, fun _ same => by cases same; rfl⟩⟩
  | cons frame rest induction =>
      intro number
      have numbers : number + (frame :: rest).length = number + 1 + rest.length := by
        rw [List.length_cons]
        omega
      rw [run_forEach_cons, numbers]
      cases frame with
      | error status => exact ⟨fun _ _ collected => absurd collected.order id,
          fun _ => ⟨_, _, rfl, rfl, fun _ same => by cases same⟩⟩
      | ok data =>
          cases data with
          | none =>
              rcases induction (number + 1) with ⟨taken, refused⟩
              constructor
              · intro id path collected
                exact taken id path ⟨collected.order, collected.accepted, collected.bounded, collected.created,
                  collected.writable⟩
              · intro never
                refine refused ?_
                rintro ⟨id, path, collected⟩
                exact never ⟨id, path, collected.order, collected.accepted, collected.bounded, collected.created,
                  collected.writable⟩
          | some data =>
              cases data with
              | chunkData bytes => exact ⟨fun _ _ collected => absurd collected.order id,
                  fun _ => ⟨_, _, rfl, rfl, fun _ same => by cases same⟩⟩
              | metadata serverId targetPath =>
                  have parts := @run_parts describe maximum answers (serverId, targetPath) [] rest 0 (number + 1) []
                    (Nat.zero_le _) (Nat.zero_le _)
                  rw [Nat.zero_add, List.nil_append] at parts
                  constructor
                  · rintro id path collected
                    rcases collected.order.1 with ⟨rfl, rfl⟩
                    rw [(run_named rest).1 collected]
                    exact parts.1 ⟨collected.order.2, collected.bounded, collected.writable⟩
                  · intro never
                    rcases (@run_named describe maximum answers serverId targetPath number rest).2 with
                      ⟨ran, accepted, created⟩ | ⟨status, ran⟩
                    · have refused : Not (PartsOnly rest /\ min (uploadedBytes rest).length largestTotal <= maximum /\
                          Writable answers (number + 1) rest) := by
                        rintro ⟨order, bounded, writable⟩
                        exact never ⟨serverId, targetPath, ⟨⟨rfl, rfl⟩, order⟩, accepted, bounded, created, writable⟩
                      rcases parts.2 refused with ⟨status, kept, failed⟩
                      rw [ran]
                      exact ⟨_, _, failed, rfl, fun _ same => by cases same⟩
                    · rw [ran]
                      exact ⟨_, _, rfl, rfl, fun _ same => by cases same⟩

/-- What the server's files say to the temporary file. -/
def UploadAnswers.stored (answers : UploadAnswers) : Except Failure Unit :=
  match answers.writeFromPath with
  | some failure => .error failure
  | none => .ok ()

theorem receiveUpload_complete {frames : List UploadFrame} {id path : Text}
    (complete : UploadComplete describe maximum answers frames id path) :
    (receiveUpload describe maximum frames).run answers.perform ⟨none, []⟩ =
      (.ok (fileAction describe answers.stored),
        ⟨some (uploadedBytes frames), [(id, path, uploadedBytes frames)]⟩) := by
  unfold receiveUpload finishUpload UploadAnswers.stored
  rw [Program.run_bind, (run_frames frames 0).1 id path complete.toCollected]
  dsimp only
  rw [Program.run_bind, Program.run_required, Program.run_ask]
  simp only [UploadAnswers.perform, complete.flushed, Program.run_bind, Program.run_ask, Option.getD_some,
    List.nil_append]
  cases answers.writeFromPath <;> rfl

theorem receiveUpload_incomplete {frames : List UploadFrame}
    (never : Not (Exists fun id => Exists fun path => UploadComplete describe maximum answers frames id path)) :
    Exists fun status => Exists fun after =>
      (receiveUpload describe maximum frames).run answers.perform ⟨none, []⟩ = (.error status, after) /\
        after.given = [] := by
  unfold receiveUpload
  rw [Program.run_bind]
  by_cases collected : Exists fun id => Exists fun path => Collected describe maximum answers 0 frames id path
  · rcases collected with ⟨id, path, collected⟩
    rw [(run_frames frames 0).1 id path collected]
    cases flushing : answers.flush with
    | none => exact absurd ⟨id, path, collected, flushing⟩ never
    | some failure =>
        refine ⟨internal describe failure, ⟨some (uploadedBytes frames), []⟩, ?_, rfl⟩
        simp only [finishUpload, Program.run_bind, Program.run_required, Program.run_ask, UploadAnswers.perform,
          flushing]
  · rcases (run_frames frames 0).2 collected with ⟨outcome, after, ran, nothing, unnamed⟩
    rw [ran]
    cases outcome with
    | error status => exact ⟨status, after, rfl, nothing⟩
    | ok progress =>
        dsimp only
        rw [finishUpload, unnamed progress rfl]
        exact ⟨_, after, rfl, nothing⟩

/-- The frames name one server and one path. -/
theorem namedFirst_unique {frames : List UploadFrame} {id path other place : Text}
    (first : NamedFirst id path frames) (second : NamedFirst other place frames) : id = other /\ path = place := by
  induction frames with
  | nil => exact False.elim first
  | cons frame rest induction =>
      cases frame with
      | error status => exact False.elim first
      | ok data =>
          cases data with
          | none => exact induction first second
          | some data =>
              cases data with
              | chunkData bytes => exact False.elim first
              | metadata serverId targetPath =>
                  rcases first.1 with ⟨rfl, rfl⟩
                  exact second.1

theorem fileAction_stored : (Except.ok (fileAction describe answers.stored) : Except Status FileActionResponse) =
    .ok ⟨true, ""⟩ <-> answers.writeFromPath = none := by
  unfold UploadAnswers.stored fileAction
  cases answers.writeFromPath with
  | none => exact iff_of_true rfl rfl
  | some failure => exact iff_of_false (fun same => by cases same) (fun same => by cases same)

/-- A call only adds to what the server's files were given. -/
theorem perform_given (request : UploadCall) (files : UploadFiles) :
    files.given <+: (answers.perform request files).2.given := by
  cases request with
  | createTemporary =>
      dsimp only [UploadAnswers.perform]
      split <;> exact List.prefix_rfl
  | write frame bytes =>
      dsimp only [UploadAnswers.perform]
      split <;> exact List.prefix_rfl
  | flush =>
      dsimp only [UploadAnswers.perform]
      split <;> exact List.prefix_rfl
  | writeFromPath id path =>
      dsimp only [UploadAnswers.perform]
      split <;> exact List.prefix_append _ _

theorem dropGuard_given (files : UploadFiles) : (answers.dropGuard files).given = files.given := by
  unfold UploadAnswers.dropGuard
  split <;> rfl

theorem dropGuard_temporary (removes : answers.removeFails = false) (files : UploadFiles) :
    (answers.dropGuard files).temporary = none := by
  rw [UploadAnswers.dropGuard, removes, if_neg Bool.false_ne_true]

/-- A call that makes a temporary file is the one that is named so. -/
theorem perform_makes {request : UploadCall} {files : UploadFiles} (before : files.temporary = none)
    (after : (answers.perform request files).2.temporary.isSome = true) : request = .createTemporary := by
  cases request with
  | createTemporary => rfl
  | write frame bytes =>
      dsimp only [UploadAnswers.perform] at after
      split at after <;> simp [before] at after
  | flush =>
      dsimp only [UploadAnswers.perform] at after
      split at after <;> simp [before] at after
  | writeFromPath id path =>
      dsimp only [UploadAnswers.perform] at after
      split at after <;> simp [before] at after

end Runs

/-- The call that the client leaves under way after some calls. -/
def underWay (describe : Errno -> String) (maximum : Nat) (answers : UploadAnswers) (frames : List UploadFrame)
    (calls : Nat) : Option UploadCall :=
  (receiveUpload describe maximum frames).lastCall answers.perform (calls + 1) ⟨none, []⟩

/-- What an upload leaves: the whole file for the server it names or nothing, and no temporary file. -/
structure WholeOrNothing (describe : Errno -> String) (maximum : Nat) (answers : UploadAnswers)
    (frames : List UploadFrame) : Prop where
  given : forall id path content, (id, path, content) ∈ (uploadFile describe maximum answers frames).2.given <->
    UploadComplete describe maximum answers frames id path /\ content = uploadedBytes frames
  once : (uploadFile describe maximum answers frames).2.given.length <= 1
  succeeds : (uploadFile describe maximum answers frames).1 = .ok ⟨true, ""⟩ <->
    (Exists fun id => Exists fun path => UploadComplete describe maximum answers frames id path) /\
      answers.writeFromPath = none
  abandoned : forall calls carriedOut,
    (abandonedUpload describe maximum answers frames calls carriedOut).given <+:
      (uploadFile describe maximum answers frames).2.given
  removed : answers.removeFails = false -> (uploadFile describe maximum answers frames).2.temporary = none
  /-- A temporary file stays only where it is made just when the client goes away. -/
  left : answers.removeFails = false -> forall calls carriedOut,
    Not ((abandonedUpload describe maximum answers frames calls carriedOut).temporary = none) ->
      carriedOut = true /\ underWay describe maximum answers frames calls = some .createTemporary

theorem upload_whole_or_nothing (describe : Errno -> String) (maximum : Nat) (answers : UploadAnswers)
    (frames : List UploadFrame) : WholeOrNothing describe maximum answers frames := by
  have within (calls : Nat) :
      ((receiveUpload describe maximum frames).cut answers.perform calls ⟨none, []⟩).given <+:
        ((receiveUpload describe maximum frames).run answers.perform ⟨none, []⟩).2.given :=
    @Program.cut_reaches_run _ _ _ _ _ answers.perform (fun first second => first.given <+: second.given)
      (fun _ => List.prefix_rfl) (fun _ _ _ => List.IsPrefix.trans) perform_given _ calls _
  have abandoned (calls : Nat) (carriedOut : Bool) :
      (abandonedUpload describe maximum answers frames calls carriedOut).given <+:
        (uploadFile describe maximum answers frames).2.given := by
    unfold abandonedUpload uploadFile
    dsimp only
    rw [dropGuard_given]
    split
    · split
      · exact within (calls + 1)
      · rw [dropGuard_given]
        exact within (calls + 1)
    · rw [dropGuard_given]
      exact within calls
  have left (removes : answers.removeFails = false) (calls : Nat) (carriedOut : Bool)
      (stays : Not ((abandonedUpload describe maximum answers frames calls carriedOut).temporary = none)) :
      carriedOut = true /\ underWay describe maximum answers frames calls = some .createTemporary := by
    unfold abandonedUpload at stays
    dsimp only at stays
    split at stays
    · next carried =>
        split at stays
        · next made =>
            rw [Bool.and_eq_true, Option.isNone_iff_eq_none] at made
            refine ⟨carried, ?_⟩
            rcases Program.cut_succ answers.perform (receiveUpload describe maximum frames) calls ⟨none, []⟩ with
              same | ⟨request, last, step⟩
            · rw [same, made.1] at made
              cases made.2
            · rw [underWay, last, @perform_makes answers request _ made.1 (by rw [← step]; exact made.2)]
        · exact absurd (dropGuard_temporary removes _) stays
    · exact absurd (dropGuard_temporary removes _) stays
  have removed (removes : answers.removeFails = false) :
      (uploadFile describe maximum answers frames).2.temporary = none := dropGuard_temporary removes _
  by_cases complete : Exists fun id => Exists fun path => UploadComplete describe maximum answers frames id path
  · rcases complete with ⟨id, path, complete⟩
    have given : (uploadFile describe maximum answers frames).2.given = [(id, path, uploadedBytes frames)] := by
      unfold uploadFile
      dsimp only
      rw [dropGuard_given, receiveUpload_complete complete]
    have result : (uploadFile describe maximum answers frames).1 = .ok (fileAction describe answers.stored) := by
      unfold uploadFile
      dsimp only
      rw [receiveUpload_complete complete]
    refine ⟨?_, ?_, ?_, abandoned, removed, left⟩
    · intro other place content
      rw [given, List.mem_singleton]
      constructor
      · intro same
        cases same
        exact ⟨complete, rfl⟩
      · rintro ⟨another, rfl⟩
        rw [(namedFirst_unique another.order complete.order).1, (namedFirst_unique another.order complete.order).2]
    · rw [given]
      exact Nat.le_refl 1
    · rw [result, fileAction_stored]
      exact (and_iff_right ⟨id, path, complete⟩).symm
  · rcases receiveUpload_incomplete complete with ⟨status, after, ran, nothing⟩
    have given : (uploadFile describe maximum answers frames).2.given = [] := by
      unfold uploadFile
      dsimp only
      rw [dropGuard_given, ran, nothing]
    refine ⟨?_, ?_, ?_, abandoned, removed, left⟩
    · intro id path content
      rw [given]
      exact iff_of_false List.not_mem_nil (fun both => complete ⟨id, path, both.1⟩)
    · rw [given]
      exact Nat.zero_le 1
    · have failed : (uploadFile describe maximum answers frames).1 = .error status := by
        unfold uploadFile
        dsimp only
        rw [ran]
      rw [failed]
      exact iff_of_false (fun same => by cases same) (fun both => complete both.1)

end Storage
end Agapornis
