import Agapornis.Console.Commands
import Agapornis.Storage.Exports
import Agapornis.Storage.Temporaries

namespace Agapornis
namespace Storage

open Foundations Agapornis.Core Temporaries
open Console (outermost)

/-!
# The archive of an import

A server is sent to the agent in frames: what is to be imported comes first,
and then the parts of an archive.  The agent collects the parts in a temporary
file, unpacks it and removes it.
-/

inductive StatusCode where
  | invalidArgument
  | dataLoss
  | internalError
  /-- A status that a client or the connection gives. -/
  | other (code : Nat)
  deriving DecidableEq, Repr

structure Status where
  code : StatusCode
  message : String
  deriving DecidableEq, Repr

def internal (describe : Errno -> String) (failure : Failure) : Status :=
  ⟨.internalError, outermost describe failure⟩

/-- What stands for a payload in a message. -/
def TransferPayload.number : TransferPayload -> Int
  | .serverData => 0
  | .localBackups => 1

structure ImportMetadata where
  serverId : Text
  payload : Int
  archiveSizeBytes : Int
  deriving DecidableEq, Repr

inductive ImportData where
  | metadata (value : ImportMetadata)
  | chunkData (value : Bytes)
  deriving DecidableEq, Repr

/-- A frame is an error of the stream, or a request that may be empty. -/
abbrev ImportFrame := Except Status (Option ImportData)

structure ImportServerResponse where
  success : Bool
  errorMessage : String
  deriving DecidableEq, Repr

inductive TransferStep where
  | createTransfer
  /-- The write of what the frame of this number brings. -/
  | writeChunk (frame : Nat)
  | flush
  | extractBackups (serverId : Text)
  | extractServer (serverId : Text)
  | removeTransfer
  deriving DecidableEq, Repr

/-- The one temporary file of an import. -/
inductive TransferObject where
  | archive
  deriving DecidableEq, Repr

abbrev TransferProgram := TempProgram TransferStep TransferObject Failure Status

abbrev TransferOutcomes := Outcomes TransferStep Failure

/-- What is known after some frames. -/
structure ImportState where
  metadata : Option ImportMetadata
  total : Int
  frames : Nat

section Import

variable (describe : Errno -> String)

def importFrame (state : ImportState) : ImportFrame -> TransferProgram ImportState
  | .error status => .failed status
  | .ok none => .done { state with frames := state.frames + 1 }
  | .ok (some (.metadata value)) =>
      if state.metadata.isSome then .failed ⟨.invalidArgument, "Import metadata may only be sent once."⟩
      else .done { state with metadata := some value, frames := state.frames + 1 }
  | .ok (some (.chunkData chunk)) =>
      if state.metadata.isNone then .failed ⟨.invalidArgument, "Metadata must be sent before chunk data."⟩
      else do
        need (internal describe) (.step (.writeChunk state.frames))
        Program.done { state with total := state.total + chunk.length, frames := state.frames + 1 }

/-- What is looked at when all the frames are there. -/
def checkTransfer (metadata : Option ImportMetadata) (total : Int) : Except Status ImportMetadata :=
  match metadata with
  | none => .error ⟨.invalidArgument, "Import metadata is required."⟩
  | some value =>
      if 0 ≤ value.archiveSizeBytes /\ Not (value.archiveSizeBytes = total) then
        .error ⟨.dataLoss, "Transfer size mismatch: expected " ++ toString value.archiveSizeBytes ++
          " bytes, received " ++ toString total ++ "."⟩
      else if value.payload = TransferPayload.serverData.number /\ total = 0 then
        .error ⟨.dataLoss, "Server data transfer was empty."⟩
      else .ok value

/-- Unpack the archive of an import; how that ends is kept. -/
def unpackTransfer (metadata : ImportMetadata) (total : Int) : TransferProgram (Except Failure Unit) :=
  if total = 0 then .done (.ok ())
  else if metadata.payload = TransferPayload.localBackups.number then
    Program.ask (.step (.extractBackups metadata.serverId))
  else Program.ask (.step (.extractServer metadata.serverId))

def importResponse : Except Failure Unit -> ImportServerResponse
  | .ok () => ⟨true, ""⟩
  | .error failure => ⟨false, outermost describe failure⟩

def importServer (frames : List ImportFrame) : TransferProgram ImportServerResponse := do
  need (internal describe) (.make .archive .createTransfer)
  let state <- Program.forEach (importFrame describe) ⟨none, 0, 0⟩ frames
  need (internal describe) (.step .flush)
  let metadata <- Program.ofExcept (checkTransfer state.metadata state.total)
  let result <- unpackTransfer metadata state.total
  attempt (.discard .archive .removeTransfer)
  Program.done (importResponse describe result)

end Import

/-! ## What an import takes -/

/-- The bytes of the parts. -/
def receivedBytes : List ImportFrame -> Nat
  | .ok (some (.chunkData chunk)) :: rest => chunk.length + receivedBytes rest
  | _ :: rest => receivedBytes rest
  | [] => 0

/-- The writes of the parts, from the frame of a number on. -/
def writeSteps : Nat -> List ImportFrame -> List TransferStep
  | number, .ok (some (.chunkData _)) :: rest => .writeChunk number :: writeSteps (number + 1) rest
  | number, _ :: rest => writeSteps (number + 1) rest
  | _, [] => []

/-- There are parts only, and requests that are empty. -/
def ChunksOnly : List ImportFrame -> Prop
  | [] => True
  | .ok none :: rest => ChunksOnly rest
  | .ok (some (.chunkData _)) :: rest => ChunksOnly rest
  | _ => False

/-- The metadata comes before the parts, and once. -/
def MetadataFirst (metadata : ImportMetadata) : List ImportFrame -> Prop
  | .ok none :: rest => MetadataFirst metadata rest
  | .ok (some (.metadata value)) :: rest => value = metadata /\ ChunksOnly rest
  | _ => False

/-- The size is the announced one, and server data is not empty. -/
structure SizeAccepted (metadata : ImportMetadata) (received : Nat) : Prop where
  announced : metadata.archiveSizeBytes < 0 \/ metadata.archiveSizeBytes = received
  notEmpty : metadata.payload = TransferPayload.serverData.number -> Not (received = 0)

section Frames

variable {describe : Errno -> String} {outcomes : TransferOutcomes} {post : ImportState -> List TransferObject -> Prop}

theorem chunks_end (frames : List ImportFrame) (metadata : ImportMetadata) (total : Int) (number : Nat) :
    EndsIn outcomes (Program.forEach (importFrame describe) ⟨some metadata, total, number⟩ frames) post [.archive] <->
      ChunksOnly frames /\ Passes outcomes (writeSteps number frames) /\
        post ⟨some metadata, total + receivedBytes frames, number + frames.length⟩ [.archive] := by
  induction frames generalizing total number with
  | nil =>
      have nothing : total + (receivedBytes [] : Nat) = total := Int.add_zero total
      rw [endsIn_forEach_nil, writeSteps, ChunksOnly, nothing, List.length_nil, Nat.add_zero, true_and,
        and_iff_right passes_nil]
  | cons frame rest ih =>
      have held : Not ([TransferObject.archive] = []) := List.cons_ne_nil _ _
      have numbers : number + (frame :: rest).length = number + 1 + rest.length := by
        rw [List.length_cons]
        omega
      rw [endsIn_forEach_cons, numbers]
      cases frame with
      | error status => exact iff_of_false held (fun both => both.1)
      | ok data =>
          cases data with
          | none => exact ih total (number + 1)
          | some data =>
              cases data with
              | metadata value => exact iff_of_false held (fun both => both.1)
              | chunkData chunk =>
                  have later := ih (total + chunk.length) (number + 1)
                  rw [Int.add_assoc] at later
                  rw [importFrame, writeSteps, passes_cons, receivedBytes, ChunksOnly, Int.natCast_add]
                  dsimp only
                  rw [Option.isNone_some, if_neg Bool.false_ne_true, endsIn_bind, endsIn_need_held held]
                  dsimp only [TempCall.name, TempCall.effect]
                  rw [endsIn_done, later, and_assoc, and_left_comm]

/-- The frames are taken exactly when the metadata comes first; an import that
has none fails after them. -/
theorem frames_end (frames : List ImportFrame) (number : Nat)
    (demanded : forall total last, Not (post ⟨none, total, last⟩ [.archive])) :
    EndsIn outcomes (Program.forEach (importFrame describe) ⟨none, 0, number⟩ frames) post [.archive] <->
      Exists fun metadata => MetadataFirst metadata frames /\ Passes outcomes (writeSteps number frames) /\
        post ⟨some metadata, receivedBytes frames, number + frames.length⟩ [.archive] := by
  induction frames generalizing number with
  | nil => exact iff_of_false (demanded 0 number) (fun ⟨_, both⟩ => both.1)
  | cons frame rest ih =>
      have held : Not ([TransferObject.archive] = []) := List.cons_ne_nil _ _
      have numbers : number + (frame :: rest).length = number + 1 + rest.length := by
        rw [List.length_cons]
        omega
      rw [endsIn_forEach_cons, numbers]
      cases frame with
      | error status => exact iff_of_false held (fun ⟨_, both⟩ => both.1)
      | ok data =>
          cases data with
          | none => exact ih (number + 1)
          | some data =>
              cases data with
              | metadata value =>
                  have later := @chunks_end describe outcomes post rest value 0 (number + 1)
                  rw [Int.zero_add] at later
                  refine later.trans ⟨fun both => ⟨value, ⟨rfl, both.1⟩, both.2⟩, ?_⟩
                  rintro ⟨metadata, ⟨rfl, chunks⟩, both⟩
                  exact ⟨chunks, both⟩
              | chunkData chunk => exact iff_of_false held (fun ⟨_, both⟩ => both.1)

end Frames

section Ends

variable {describe : Errno -> String} {outcomes : TransferOutcomes} {post : Unit -> List TransferObject -> Prop}

theorem checkTransfer_ok {metadata : ImportMetadata} {received : Nat} (accepted : SizeAccepted metadata received) :
    checkTransfer (some metadata) received = .ok metadata := by
  have sizes : Not (0 ≤ metadata.archiveSizeBytes /\ Not (metadata.archiveSizeBytes = received)) := by
    rintro ⟨known, different⟩
    rcases accepted.announced with unknown | same
    · exact absurd unknown (Int.not_lt.mpr known)
    · exact different same
  have filled : Not (metadata.payload = TransferPayload.serverData.number /\ (received : Int) = 0) := by
    rintro ⟨server, empty⟩
    exact accepted.notEmpty server (Int.ofNat_eq_zero.mp empty)
  rw [checkTransfer, if_neg sizes, if_neg filled]

theorem checkTransfer_refused {metadata : ImportMetadata} {received : Nat}
    (refused : Not (SizeAccepted metadata received)) :
    Exists fun status => checkTransfer (some metadata) received = .error status := by
  unfold checkTransfer
  dsimp only
  split
  · exact ⟨_, rfl⟩
  · next sizes =>
      split
      · exact ⟨_, rfl⟩
      · next filled =>
          refine absurd ⟨?_, fun server empty => filled ⟨server, Int.ofNat_eq_zero.mpr empty⟩⟩ refused
          by_cases known : 0 ≤ metadata.archiveSizeBytes
          · exact Or.inr (Decidable.not_not.mp fun different => sizes ⟨known, different⟩)
          · exact Or.inl (Int.not_le.mp known)

/-- Whatever becomes of the unpacking, the archive is to be removed after it. -/
theorem unpacked_end (metadata : ImportMetadata) (total : Int) :
    EndsIn outcomes (do
        let result <- unpackTransfer metadata total
        attempt (.discard .archive .removeTransfer)
        Program.done (importResponse describe result)) (fun _ after => after = []) [.archive] <->
      outcomes.fault .removeTransfer = none := by
  have removed (result : Except Failure Unit) :
      EndsIn outcomes (do
          attempt (.discard .archive .removeTransfer)
          Program.done (importResponse describe result) : TransferProgram ImportServerResponse)
        (fun _ after => after = []) [.archive] <-> outcomes.fault .removeTransfer = none := by
    have gone : without [TransferObject.archive] .archive = [] := without_self List.not_mem_nil
    rw [endsIn_bind, endsIn_discard List.mem_cons_self (fun _ => List.ne_nil_of_mem), endsIn_done, and_iff_left gone]
  rw [endsIn_bind]
  unfold unpackTransfer
  split
  · exact removed (.ok ())
  · split <;> exact endsIn_ask_step.trans (removed _)

theorem importServer_ends (frames : List ImportFrame) :
    EndsIn outcomes (importServer describe frames) (fun _ after => after = []) [] <->
      Not (outcomes.fault .createTransfer = none) \/
        Exists fun metadata => MetadataFirst metadata frames /\ SizeAccepted metadata (receivedBytes frames) /\
          Passes outcomes (writeSteps 0 frames ++ [.flush, .removeTransfer]) := by
  have held : Not ([TransferObject.archive] = []) := List.cons_ne_nil _ _
  have checked (metadata : ImportMetadata) (received : Nat) :
      EndsIn outcomes (do
          let metadata <- Program.ofExcept (checkTransfer (some metadata) received)
          let result <- unpackTransfer metadata received
          attempt (.discard .archive .removeTransfer)
          Program.done (importResponse describe result)) (fun _ after => after = []) [.archive] <->
        SizeAccepted metadata received /\ outcomes.fault .removeTransfer = none := by
    rw [endsIn_bind, endsIn_ofExcept]
    by_cases accepted : SizeAccepted metadata received
    · rw [checkTransfer_ok accepted]
      exact (unpacked_end metadata received).trans (and_iff_right accepted).symm
    · rcases checkTransfer_refused accepted with ⟨status, refused⟩
      rw [refused]
      exact iff_of_false held (fun both => accepted both.1)
  unfold importServer
  rw [endsIn_bind, endsIn_need]
  dsimp only [TempCall.name, TempCall.effect, TempCall.remains]
  rw [endsIn_bind, frames_end]
  · rw [@and_iff_left _ (Not (outcomes.fault .createTransfer = none)) rfl, or_comm]
    refine or_congr_right' fun made => ?_
    rw [and_iff_right (Decidable.not_not.mp made)]
    refine exists_congr fun metadata => and_congr_right fun _ => ?_
    rw [endsIn_bind, endsIn_need_held held]
    dsimp only [TempCall.name, TempCall.effect]
    rw [checked, passes_append, passes_cons, passes_cons, and_iff_left passes_nil]
    constructor
    · exact fun ⟨written, flushed, accepted, removed⟩ => ⟨accepted, written, flushed, removed⟩
    · exact fun ⟨accepted, written, flushed, removed⟩ => ⟨written, flushed, accepted, removed⟩
  · intro total last
    rw [endsIn_bind, endsIn_need_held held]
    rintro ⟨_, nothing⟩
    exact held nothing

end Ends

/-! ## When nothing is left -/

section Clean

variable (jobs : JobOutcomes) (transfers : TransferOutcomes)

/-- A restore from the bucket fails before it stores anything, or nothing fails after that. -/
def RestoreClean (encrypted : Bool) (storage : Text) : Prop :=
  storage = "s3".toList ->
    Fails jobs (.permit :: firstSteps) \/ Passes jobs (fetchSteps encrypted ++ restoreSteps)

/-- So it is with a check in the bucket; a check on the node has its directory only. -/
structure VerifyClean (encrypted : Bool) (storage : Text) : Prop where
  remote : storage = "s3".toList ->
    Fails jobs (.permit :: firstSteps) \/ Passes jobs (fetchSteps encrypted ++ checkSteps)
  onNode : storage = "local".toList ->
    Fails jobs (.permit :: .find :: testSteps) \/ Passes jobs [.extract, .removeTest]

/-- A backup fails before its archive is made or without leaving a part of it,
or nothing fails until its archive is removed. -/
def CreateClean (encrypt encrypted : Bool) : Prop :=
  Fails jobs [.permit, .parameters, .tempDir] \/
    Passes jobs (createSteps encrypt encrypted) /\ UploadRemoved jobs encrypt \/
      Not (jobs.fault .tarCreate = none) /\ jobs.leaves .tarCreate = false

/-- An import cannot make its file, or it is as announced and its calls succeed
but for the unpacking. -/
def ImportClean (frames : List ImportFrame) : Prop :=
  Not (transfers.fault .createTransfer = none) \/
    Exists fun metadata => MetadataFirst metadata frames /\ SizeAccepted metadata (receivedBytes frames) /\
      Passes transfers (writeSteps 0 frames ++ [.flush, .removeTransfer])

theorem restoreBackup_ends {encrypted : Bool} {storage : Text} :
    EndsIn jobs (restoreBackup encrypted storage) (fun _ after => after = []) [] <->
      RestoreClean jobs encrypted storage := by
  by_cases remote : storage = "s3".toList
  · subst remote
    exact restoreBackup_remote.trans ⟨fun clean _ => clean, fun clean => clean rfl⟩
  · exact iff_of_true (restoreBackup_elsewhere remote) (fun here => absurd here remote)

theorem verifyBackup_ends {encrypted : Bool} {storage : Text} :
    EndsIn jobs (verifyBackup encrypted storage) (fun _ after => after = []) [] <->
      VerifyClean jobs encrypted storage := by
  unfold verifyBackup
  rw [endsIn_bind]
  by_cases remote : storage = "s3".toList
  · subst remote
    rw [endsIn_needed, verifyArchive_remote (fun _ _ _ => List.ne_nil_of_mem) (fun _ _ => List.not_mem_nil),
      first_failure_cons, fails_or, and_iff_left rfl]
    exact ⟨fun clean => ⟨fun _ => clean, fun onNode => absurd onNode (by decide)⟩, fun clean => clean.remote rfl⟩
  · by_cases onNode : storage = "local".toList
    · subst onNode
      have both : (jobs.fault .permit = none ->
          Fails jobs (.find :: testSteps) \/ Passes jobs [.extract, .removeTest]) <->
            Fails jobs (.permit :: .find :: testSteps) \/ Passes jobs [.extract, .removeTest] := by
        rw [imp_iff_not_or, ← or_assoc, ← fails_cons]
      rw [endsIn_needed_nil, verifyArchive_local, both]
      exact ⟨fun clean => ⟨fun here => absurd here remote, fun _ => clean⟩, fun clean => clean.onNode rfl⟩
    · rw [endsIn_needed_nil]
      exact iff_of_true (fun _ => verifyArchive_other onNode remote)
        ⟨fun here => absurd here remote, fun here => absurd here onNode⟩

end Clean

/-- Each of the operations leaves nothing behind exactly when it fails before it
has made something, or none of its calls fails while there is something. -/
theorem temporaries_removed_iff (describe : Errno -> String) (jobs : JobOutcomes) (transfers : TransferOutcomes)
    (encrypt encrypted : Bool) (retention : Int) (storage : Text) (frames : List ImportFrame) :
    (leftover jobs (restoreBackup encrypted storage) = [] <-> RestoreClean jobs encrypted storage) /\
      (leftover jobs (verifyBackup encrypted storage) = [] <-> VerifyClean jobs encrypted storage) /\
        (leftover jobs (createBackup encrypt encrypted retention) = [] <-> CreateClean jobs encrypt encrypted) /\
          (leftover transfers (importServer describe frames) = [] <-> ImportClean transfers frames) := by
  rw [leftover_nil, leftover_nil, leftover_nil, leftover_nil]
  exact ⟨restoreBackup_ends jobs, verifyBackup_ends jobs, createBackup_ends, importServer_ends frames⟩

section Left

def failing (name : TempStep) : JobOutcomes where
  fault other := if other = name then some (.bail "failed") else none
  leaves _ := false

def allSucceed : TransferOutcomes where
  fault _ := none
  leaves _ := false

/-- One failing call in each of the operations, and a part that comes before the metadata. -/
theorem temporaries_left :
    leftover (failing .integrity) (restoreBackup true "s3".toList) = [.fetched] /\
      leftover (failing .extract) (verifyBackup false "s3".toList) = [.testDirectory, .fetched] /\
        leftover (failing .upload) (createBackup true true 3) = [.encrypted, .plain] /\
          leftover allSucceed (importServer (fun _ => "") [.ok (some (.chunkData [1]))]) = [.archive] := by
  decide

end Left

end Storage
end Agapornis
