import Mathlib.Logic.Function.Basic
import Agapornis.Core.Failure
import Agapornis.Foundations.Program
import Agapornis.Foundations.Text

namespace Agapornis
namespace Runtime

open Foundations Agapornis.Core

/-!
# Agent updates

An update is staged beside the executable under a marker, swapped in before
the service starts, and then committed or rolled back.  The operations are
programs of file-system calls, so that they can be run, cut off between two
calls, and interleaved.
-/

/-! ## Files -/

/-- The files of an update: the executable, and the others in its staging
directory.  Random names and time stamps are numbers. -/
inductive UpdateFile where
  | executable
  | pendingArtifact
  | artifact (uuid : Nat)
  | markerTemp (uuid : Nat)
  | previousAgent
  | previousTemp
  | activationState
  | failedAgent (stamp : Nat)
  deriving DecidableEq, Repr

def UpdateFile.isStaged : UpdateFile -> Bool
  | .executable => false
  | _ => true

structure ActivationState where
  previous : UpdateFile
  activated : UpdateFile
  activatedAt : Nat
  deriving DecidableEq, Repr

/-- What a file holds: bytes, the path of one of the files, or the record of
an activation. -/
inductive Stored where
  | bytes (content : Bytes)
  | path (target : UpdateFile)
  | activation (state : ActivationState)
  deriving DecidableEq, Repr

abbrev UpdateStore := UpdateFile -> Option Stored

/-! ## Calls -/

inductive UpdateCall where
  | createDirAll
  | setDirPermissions
  | probe (file : UpdateFile)
  | read (file : UpdateFile)
  | canonicalize (file : UpdateFile)
  | createNew (file : UpdateFile)
  | create (file : UpdateFile)
  | append (file : UpdateFile) (chunk : Bytes)
  | write (file : UpdateFile) (content : Stored)
  | syncAll (file : UpdateFile)
  | setPermissions (file : UpdateFile)
  | remove (file : UpdateFile)
  | rename (source target : UpdateFile)
  deriving DecidableEq, Repr

@[reducible] def UpdateCall.Reply : UpdateCall -> Type
  | .probe _ => Bool
  | .read _ => Except Errno Stored
  | .canonicalize _ => Except Errno UpdateFile
  | .createDirAll => Except Errno Unit
  | .setDirPermissions => Except Errno Unit
  | .createNew _ => Except Errno Unit
  | .create _ => Except Errno Unit
  | .append _ _ => Except Errno Unit
  | .write _ _ => Except Errno Unit
  | .syncAll _ => Except Errno Unit
  | .setPermissions _ => Except Errno Unit
  | .remove _ => Except Errno Unit
  | .rename _ _ => Except Errno Unit

/-- A call that goes wrong, and the bytes which a write that goes wrong has
left in its file. -/
structure Fault where
  error : Errno
  left : Bytes

/-- What a call does without a fault.  Writes go to a file that was opened, so
nothing comes of them once it has been removed. -/
def performUpdate : (request : UpdateCall) -> UpdateStore -> request.Reply × UpdateStore
  | .createDirAll, store => (.ok (), store)
  | .setDirPermissions, store => (.ok (), store)
  | .probe file, store => ((store file).isSome, store)
  | .read file, store =>
      (match store file with
        | some content => .ok content
        | none => .error .notFound, store)
  | .canonicalize file, store =>
      (if (store file).isSome then .ok file else .error .notFound, store)
  | .createNew file, store =>
      if (store file).isSome then (.error .alreadyExists, store)
      else (.ok (), Function.update store file (some (.bytes [])))
  | .create file, store => (.ok (), Function.update store file (some (.bytes [])))
  | .append file chunk, store =>
      match store file with
      | some (.bytes content) =>
          (.ok (), Function.update store file (some (.bytes (content ++ chunk))))
      | _ => (.ok (), store)
  | .write file content, store =>
      (.ok (), if (store file).isSome then Function.update store file (some content) else store)
  | .syncAll _, store => (.ok (), store)
  | .setPermissions file, store =>
      (if (store file).isSome then .ok () else .error .notFound, store)
  | .remove file, store =>
      if (store file).isSome then (.ok (), Function.update store file none)
      else (.error .notFound, store)
  | .rename source target, store =>
      match store source with
      | some content =>
          (.ok (), Function.update (Function.update store target (some content)) source none)
      | none => (.error .notFound, store)

/-- The reply to a call that goes wrong. -/
def refusal (error : Errno) : (request : UpdateCall) -> request.Reply
  | .probe _ => false
  | .read _ => .error error
  | .canonicalize _ => .error error
  | .createDirAll => .error error
  | .setDirPermissions => .error error
  | .createNew _ => .error error
  | .create _ => .error error
  | .append _ _ => .error error
  | .write _ _ => .error error
  | .syncAll _ => .error error
  | .setPermissions _ => .error error
  | .remove _ => .error error
  | .rename _ _ => .error error

/-- The store after a call that goes wrong: only a write may have left
something behind. -/
def leftBehind (left : Bytes) : UpdateCall -> UpdateStore -> UpdateStore
  | .append file _, store =>
      if (store file).isSome then Function.update store file (some (.bytes left)) else store
  | .write file _, store =>
      if (store file).isSome then Function.update store file (some (.bytes left)) else store
  | _, store => store

def performWithFault : Option Fault -> (request : UpdateCall) -> UpdateStore ->
    request.Reply × UpdateStore
  | none, request, store => performUpdate request store
  | some fault, request, store => (refusal fault.error request, leftBehind fault.left request store)

/-! ## Operations -/

abbrev UpdateProgram := Program UpdateCall UpdateCall.Reply Failure

/-- Fail with the error of a call. -/
def require {Result : Type} (program : UpdateProgram (Except Errno Result)) : UpdateProgram Result :=
  program >>= fun
    | .ok value => .done value
    | .error error => .failed (.io error)

/-- Fail with the error of a call and a sentence of context. -/
def requireFor {Result : Type} (message : String)
    (program : UpdateProgram (Except Errno Result)) : UpdateProgram Result :=
  program >>= fun
    | .ok value => .done value
    | .error error => .failed (.context message (.io error))

namespace Fs

open Program (ask)

@[simp] def createDirAll : UpdateProgram (Except Errno Unit) := ask UpdateCall.createDirAll
@[simp] def setDirPermissions : UpdateProgram (Except Errno Unit) := ask UpdateCall.setDirPermissions
@[simp] def probe (file : UpdateFile) : UpdateProgram Bool := ask (UpdateCall.probe file)
@[simp] def read (file : UpdateFile) : UpdateProgram (Except Errno Stored) := ask (UpdateCall.read file)
@[simp] def canonicalize (file : UpdateFile) : UpdateProgram (Except Errno UpdateFile) :=
  ask (UpdateCall.canonicalize file)
@[simp] def createNew (file : UpdateFile) : UpdateProgram (Except Errno Unit) :=
  ask (UpdateCall.createNew file)
@[simp] def create (file : UpdateFile) : UpdateProgram (Except Errno Unit) :=
  ask (UpdateCall.create file)
@[simp] def append (file : UpdateFile) (chunk : Bytes) : UpdateProgram (Except Errno Unit) :=
  ask (UpdateCall.append file chunk)
@[simp] def writeAll (file : UpdateFile) (content : Stored) : UpdateProgram (Except Errno Unit) :=
  ask (UpdateCall.write file content)
@[simp] def syncAll (file : UpdateFile) : UpdateProgram (Except Errno Unit) :=
  ask (UpdateCall.syncAll file)
@[simp] def setPermissions (file : UpdateFile) : UpdateProgram (Except Errno Unit) :=
  ask (UpdateCall.setPermissions file)
@[simp] def removeFile (file : UpdateFile) : UpdateProgram (Except Errno Unit) :=
  ask (UpdateCall.remove file)
@[simp] def rename (source target : UpdateFile) : UpdateProgram (Except Errno Unit) :=
  ask (UpdateCall.rename source target)

/-- Copy a file over another one. -/
def copy (source target : UpdateFile) : UpdateProgram (Except Errno Unit) := do
  match ← read source with
  | .error error => return .error error
  | .ok content =>
      match ← create target with
      | .error error => return .error error
      | .ok () => writeAll target content

/-- Write a file anew. -/
def write (file : UpdateFile) (content : Stored) : UpdateProgram (Except Errno Unit) := do
  match ← create file with
  | .error error => return .error error
  | .ok () => writeAll file content

end Fs

inductive ActivationOutcome where
  | nothingPending
  | activated
  | rolledBack
  deriving DecidableEq, Repr

/-- The artifact that the marker names, which has to be a file of the staging
directory.  A text that is no path of one of the files leads nowhere. -/
def pendingUpdateAt : UpdateProgram (Option UpdateFile) := do
  if ← Fs.probe .pendingArtifact then
    match ← require (Fs.read .pendingArtifact) with
    | .bytes [] => return none
    | .path target =>
        let pending ← require (Fs.canonicalize target)
        if pending.isStaged then return some pending
        else .failed (.bail "pending agent update is outside the update staging directory")
    | _ => .failed (.io .notFound)
  else return none

/-- The record of an activation; a torn one is empty. -/
def parseActivationState : Stored -> UpdateProgram ActivationState
  | .activation state => .done state
  | _ => .failed (.bail "EOF while parsing a value at line 1 column 0")

def rollbackAt (stamp : Nat) : UpdateProgram ActivationOutcome := do
  if ← Fs.probe .activationState then
    let stored ← require (Fs.read .activationState)
    let state ← parseActivationState stored
    if ← Fs.probe state.previous then
      requireFor "preserve failed agent binary" (Fs.rename .executable (.failedAgent stamp))
      match ← Fs.rename state.previous .executable with
      | .error error =>
          let _ ← Fs.rename (.failedAgent stamp) .executable
          .failed (.context "restore previous agent binary" (.io error))
      | .ok () =>
          require (Fs.removeFile .activationState)
          return .rolledBack
    else .failed (.bail "previous agent binary is unavailable for rollback")
  else return .nothingPending

def replaceBinary (source target : UpdateFile) : UpdateProgram (Except Errno Unit) := do
  match ← Fs.setPermissions source with
  | .error error => return .error error
  | .ok () => Fs.rename source target

def activateAt (now : Nat) : UpdateProgram ActivationOutcome := do
  if ← Fs.probe .pendingArtifact then
    match ← pendingUpdateAt with
    | none => .failed (.bail "pending agent update marker is empty")
    | some pending =>
        requireFor "preserve previous agent binary" (Fs.copy .executable .previousTemp)
        requireFor "commit previous agent binary" (Fs.rename .previousTemp .previousAgent)
        require (Fs.write .activationState (.activation ⟨.previousAgent, .executable, now⟩))
        requireFor "activate staged agent binary" (replaceBinary pending .executable)
        require (Fs.removeFile .pendingArtifact)
        return .activated
  else
    if ← Fs.probe .activationState then rollbackAt now
    else return .nothingPending

def commitHealthyAt : UpdateProgram Unit := do
  if ← Fs.probe .activationState then
    let stored ← require (Fs.read .activationState)
    let state ← parseActivationState stored
    let _ ← Fs.removeFile state.previous
    require (Fs.removeFile .activationState)
  else return ()

/-! ## Staging -/

/-- The answer of the artifact's server. -/
structure Download where
  scheme : Text
  contentLength : Option Nat
  chunks : List (Except Failure Bytes)

structure StageRequest where
  url : Text
  sha : Text
  response : Except Failure Download
  uuid : Nat
  markerUuid : Nat

structure UpdateResult where
  message : String
  staged : UpdateFile
  restartRequired : Bool
  deriving DecidableEq, Repr

def maxArtifactSize : Nat := 512 * 1024 * 1024

/-- Write the chunks of the answer to the artifact and return what was
received. -/
def receive (uuid : Nat) : Bytes -> List (Except Failure Bytes) -> UpdateProgram Bytes
  | received, [] => .done received
  | _, .error failure :: _ => .failed failure
  | received, .ok chunk :: chunks => do
      if maxArtifactSize < received.length + chunk.length then
        let _ ← Fs.removeFile (.artifact uuid)
        .failed (.bail "update artifact exceeds 512 MiB limit")
      else
        require (Fs.append (.artifact uuid) chunk)
        receive uuid (received ++ chunk) chunks

section Stage

variable (sha256 : Bytes -> Bytes)

/-- Name the artifact in the marker. -/
def commitMarker (request : StageRequest) : UpdateProgram UpdateResult := do
  require (Fs.createNew (.markerTemp request.markerUuid))
  require (Fs.writeAll (.markerTemp request.markerUuid) (.path (.artifact request.uuid)))
  require (Fs.syncAll (.markerTemp request.markerUuid))
  match ← Fs.rename (.markerTemp request.markerUuid) .pendingArtifact with
  | .error error =>
      let _ ← Fs.removeFile (.markerTemp request.markerUuid)
      let _ ← Fs.removeFile (.artifact request.uuid)
      .failed (.context "commit pending agent update marker" (.io error))
  | .ok () =>
      return ⟨"Update staged. Restart the agent service to activate it.", .artifact request.uuid, true⟩

/-- Download the artifact, check it, and name it in the marker. -/
def stageArtifact (request : StageRequest) (expected : Bytes) (chunks : List (Except Failure Bytes)) :
    UpdateProgram UpdateResult := do
  require (Fs.createNew (.artifact request.uuid))
  let received ← receive request.uuid [] chunks
  if received.length = 0 then
    let _ ← Fs.removeFile (.artifact request.uuid)
    .failed (.bail "update artifact is empty")
  else
    require (Fs.syncAll (.artifact request.uuid))
    if sha256 received = expected then
      require (Fs.setPermissions (.artifact request.uuid))
      commitMarker request
    else
      let _ ← Fs.removeFile (.artifact request.uuid)
      .failed (.bail "update artifact checksum mismatch")

/-- Make way for the new marker; only an empty one is replaced. -/
def prepareStaging : UpdateProgram Unit := do
  require Fs.createDirAll
  require Fs.setDirPermissions
  match ← pendingUpdateAt with
  | some _ => .failed (.bail "a verified agent update is already staged")
  | none =>
      if ← Fs.probe .pendingArtifact then
        requireFor "remove empty pending agent update marker" (Fs.removeFile .pendingArtifact)
      else return ()

/-- The checks of a request and of the answer to it, up to the download. -/
def checkRequest (request : StageRequest) : Except Failure (Bytes × List (Except Failure Bytes)) := do
  refuseIf (!("https://".toList.isPrefixOf request.url)) "update artifact URL must use HTTPS"
  match Text.hexDecode (Text.trim request.sha) with
  | none => .error (.bail "SHA-256 must be hexadecimal")
  | some expected =>
      refuseIf (expected.length != 32) "SHA-256 checksum is required"
      let download ← request.response
      refuseIf (download.scheme != "https".toList) "update redirects must remain on HTTPS"
      refuseIf (decide (maxArtifactSize < download.contentLength.getD 0))
        "update artifact exceeds 512 MiB limit"
      return (expected, download.chunks)

def stage (request : StageRequest) : UpdateProgram UpdateResult :=
  match checkRequest request with
  | .error failure => .failed failure
  | .ok (expected, chunks) => do
      prepareStaging
      stageArtifact sha256 request expected chunks

end Stage

end Runtime
end Agapornis
