import Agapornis.Runtime.Update

namespace Agapornis
namespace Runtime

open Foundations Agapornis.Core

/-!
# The calls of the update operations

Which calls an operation makes, and the stores after them.
-/

/-! ## Single calls -/

/-- The calls that leave every file as it is. -/
def UpdateCall.looks : UpdateCall -> Bool
  | .createDirAll => true
  | .setDirPermissions => true
  | .probe _ => true
  | .read _ => true
  | .canonicalize _ => true
  | .syncAll _ => true
  | .setPermissions _ => true
  | .createNew _ => false
  | .create _ => false
  | .append _ _ => false
  | .write _ _ => false
  | .remove _ => false
  | .rename _ _ => false

/-- What a call may leave in a file. -/
def UpdateCall.MayLeave (store : UpdateStore) (file : UpdateFile) (value : Option Stored) :
    UpdateCall -> Prop
  | .createNew target => file = target /\ value = some (.bytes [])
  | .create target => file = target /\ value = some (.bytes [])
  | .append target _ => file = target /\ Exists fun content => value = some (.bytes content)
  | .write target content => file = target /\
      (value = some content \/ Exists fun left => value = some (.bytes left))
  | .remove target => file = target /\ value = none
  | .rename source target =>
      (file = target /\ value = store source) \/ (file = source /\ value = none)
  | _ => False

/-- A call changes a file only to what it may leave there, also when it goes
wrong. -/
theorem performWithFault_leaves (choice : Option Fault) (request : UpdateCall) (store : UpdateStore)
    (file : UpdateFile) :
    (performWithFault choice request store).2 file = store file \/
      request.MayLeave store file ((performWithFault choice request store).2 file) := by
  have updated : forall (target : UpdateFile) (value : Option Stored),
      Function.update store target value file = store file \/
        (file = target /\ Function.update store target value file = value) := by
    intro target value
    by_cases same : file = target
    · subst same
      exact Or.inr ⟨rfl, Function.update_self _ _ _⟩
    · exact Or.inl (Function.update_of_ne same _ _)
  cases choice with
  | none =>
      cases request with
      | createNew target =>
          simp only [performWithFault, performUpdate]
          split
          · exact Or.inl rfl
          · exact updated target _
      | create target => exact updated target _
      | append target chunk =>
          simp only [performWithFault, performUpdate]
          split
          · exact (updated target _).imp_right (And.imp_right (fun left => ⟨_, left⟩))
          · exact Or.inl rfl
      | write target content =>
          simp only [performWithFault, performUpdate]
          split
          · exact (updated target _).imp_right (And.imp_right Or.inl)
          · exact Or.inl rfl
      | remove target =>
          simp only [performWithFault, performUpdate]
          split
          · exact updated target _
          · exact Or.inl rfl
      | rename source target =>
          simp only [performWithFault, performUpdate, UpdateCall.MayLeave]
          split
          · next content held =>
              by_cases isSource : file = source
              · right; right
                exact ⟨isSource, by simp [isSource]⟩
              · dsimp only
                rw [Function.update_of_ne isSource, held]
                exact (updated target _).imp_right Or.inl
          · exact Or.inl rfl
      | _ => exact Or.inl rfl
  | some fault =>
      cases request with
      | append target chunk =>
          simp only [performWithFault, leftBehind]
          split
          · exact (updated target _).imp_right (And.imp_right (fun left => ⟨_, left⟩))
          · exact Or.inl rfl
      | write target content =>
          simp only [performWithFault, leftBehind]
          split
          · exact (updated target _).imp_right (And.imp_right (fun left => Or.inr ⟨_, left⟩))
          · exact Or.inl rfl
      | _ => exact Or.inl rfl

/-! ## Activation, rollback and commit -/

section Calls

variable {store : UpdateStore} {old new previous : Stored} {state : ActivationState} {uuid : Nat}

def keptPrevious (store : UpdateStore) (old : Stored) : UpdateStore :=
  Function.update (Function.update (Function.update store .previousTemp (some old))
    .previousAgent (some old)) .previousTemp none

def activationRecord (now : Nat) : ActivationState := ⟨.previousAgent, .executable, now⟩

def recorded (store : UpdateStore) (old : Stored) (now : Nat) : UpdateStore :=
  Function.update (keptPrevious store old) .activationState (some (.activation (activationRecord now)))

def swapped (store : UpdateStore) (old new : Stored) (uuid now : Nat) : UpdateStore :=
  Function.update (Function.update (recorded store old now) .executable (some new))
    (.artifact uuid) none

def activated (store : UpdateStore) (old new : Stored) (uuid now : Nat) : UpdateStore :=
  Function.update (swapped store old new uuid now) .pendingArtifact none

/-- The calls of an activation that finds its artifact. -/
theorem activateAt_calls (executable : store .executable = some old)
    (marker : store .pendingArtifact = some (.path (.artifact uuid)))
    (artifact : store (.artifact uuid) = some new) (now : Nat)
    (holds : UpdateCall -> UpdateStore -> Prop) :
    (activateAt now).Throughout performUpdate holds store <->
      holds (.probe .pendingArtifact) store /\
      holds (.read .pendingArtifact) store /\
      holds (.canonicalize (.artifact uuid)) store /\
      holds (.read .executable) store /\
      holds (.create .previousTemp) (Function.update store .previousTemp (some (.bytes []))) /\
      holds (.write .previousTemp old) (Function.update store .previousTemp (some old)) /\
      holds (.rename .previousTemp .previousAgent) (keptPrevious store old) /\
      holds (.create .activationState)
        (Function.update (keptPrevious store old) .activationState (some (.bytes []))) /\
      holds (.write .activationState (.activation (activationRecord now))) (recorded store old now) /\
      holds (.setPermissions (.artifact uuid)) (recorded store old now) /\
      holds (.rename (.artifact uuid) .executable) (swapped store old new uuid now) /\
      holds (.remove .pendingArtifact) (activated store old new uuid now) := by
  simp [activateAt, pendingUpdateAt, require, requireFor, Fs.copy, Fs.write, replaceBinary,
    Program.ask, Program.Throughout, performUpdate, executable, marker, artifact,
    UpdateFile.isStaged, activated, swapped, recorded, activationRecord, keptPrevious]

theorem activateAt_run (executable : store .executable = some old)
    (marker : store .pendingArtifact = some (.path (.artifact uuid)))
    (artifact : store (.artifact uuid) = some new) (now : Nat) :
    (activateAt now).run performUpdate store = (.ok .activated, activated store old new uuid now) := by
  simp [activateAt, pendingUpdateAt, require, requireFor, Fs.copy, Fs.write, replaceBinary,
    Program.ask, Program.run, performUpdate, executable, marker, artifact, UpdateFile.isStaged,
    activated, swapped, recorded, activationRecord, keptPrevious]

theorem activateAt_calls_unmarked (marker : store .pendingArtifact = none) (now : Nat)
    (holds : UpdateCall -> UpdateStore -> Prop) :
    (activateAt now).Throughout performUpdate holds store <->
      holds (.probe .pendingArtifact) store /\ holds (.probe .activationState) store /\
        ((store .activationState).isSome = true ->
          (rollbackAt now).Throughout performUpdate holds store) := by
  cases record : store .activationState <;>
    simp [activateAt, Program.ask, Program.Throughout, performUpdate, marker, record]

theorem activateAt_run_unmarked (marker : store .pendingArtifact = none) (now : Nat) :
    (activateAt now).run performUpdate store = (rollbackAt now).run performUpdate store := by
  cases record : store .activationState <;>
    simp [activateAt, rollbackAt, Program.ask, Program.run, performUpdate, marker, record]

def setAside (store : UpdateStore) (old : Stored) (stamp : Nat) : UpdateStore :=
  Function.update (Function.update store (.failedAgent stamp) (some old)) .executable none

def restored (store : UpdateStore) (old previous : Stored) (stamp : Nat) : UpdateStore :=
  Function.update (Function.update (setAside store old stamp) .executable (some previous))
    .previousAgent none

def rolledBack (store : UpdateStore) (old previous : Stored) (stamp : Nat) : UpdateStore :=
  Function.update (restored store old previous stamp) .activationState none

/-- The calls of a rollback that finds its record and the previous binary. -/
theorem rollbackAt_calls (executable : store .executable = some old)
    (record : store .activationState = some (.activation state))
    (isPrevious : state.previous = .previousAgent)
    (kept : store .previousAgent = some previous) (stamp : Nat)
    (holds : UpdateCall -> UpdateStore -> Prop) :
    (rollbackAt stamp).Throughout performUpdate holds store <->
      holds (.probe .activationState) store /\
      holds (.read .activationState) store /\
      holds (.probe .previousAgent) store /\
      holds (.rename .executable (.failedAgent stamp)) (setAside store old stamp) /\
      holds (.rename .previousAgent .executable) (restored store old previous stamp) /\
      holds (.remove .activationState) (rolledBack store old previous stamp) := by
  simp [rollbackAt, parseActivationState, require, requireFor, Program.ask, Program.Throughout,
    performUpdate, executable, record, isPrevious, kept, setAside, restored, rolledBack]

theorem rollbackAt_run (executable : store .executable = some old)
    (record : store .activationState = some (.activation state))
    (isPrevious : state.previous = .previousAgent)
    (kept : store .previousAgent = some previous) (stamp : Nat) :
    (rollbackAt stamp).run performUpdate store =
      (.ok .rolledBack, rolledBack store old previous stamp) := by
  simp [rollbackAt, parseActivationState, require, requireFor, Program.ask, Program.run,
    performUpdate, executable, record, isPrevious, kept, setAside, restored, rolledBack]

theorem rollbackAt_run_idle (record : store .activationState = none) (stamp : Nat) :
    (rollbackAt stamp).run performUpdate store = (.ok .nothingPending, store) := by
  simp [rollbackAt, Program.ask, Program.run, performUpdate, record]

/-- Without a record and the previous binary, a rollback only looks. -/
theorem rollbackAt_calls_otherwise
    (otherwise : forall state, store .activationState = some (.activation state) ->
      store state.previous = none) (stamp : Nat) (holds : UpdateCall -> UpdateStore -> Prop)
    (looks : forall request, request.looks = true -> holds request store) :
    (rollbackAt stamp).Throughout performUpdate holds store := by
  have probes := fun file => looks (.probe file) rfl
  have reads := fun file => looks (.read file) rfl
  cases record : store .activationState with
  | none => simp [rollbackAt, Program.ask, Program.Throughout, performUpdate, record, probes]
  | some stored =>
      cases stored with
      | activation state =>
          have missing := otherwise state record
          simp [rollbackAt, parseActivationState, require, Program.ask, Program.Throughout,
            performUpdate, record, missing, probes, reads]
      | bytes content =>
          simp [rollbackAt, parseActivationState, require, Program.ask, Program.Throughout,
            performUpdate, record, probes, reads]
      | path target =>
          simp [rollbackAt, parseActivationState, require, Program.ask, Program.Throughout,
            performUpdate, record, probes, reads]

/-- The calls of a commit that finds its record. -/
theorem commitHealthyAt_calls (record : store .activationState = some (.activation state))
    (isPrevious : state.previous = .previousAgent) (holds : UpdateCall -> UpdateStore -> Prop) :
    commitHealthyAt.Throughout performUpdate holds store <->
      holds (.probe .activationState) store /\
      holds (.read .activationState) store /\
      holds (.remove .previousAgent) (Function.update store .previousAgent none) /\
      holds (.remove .activationState)
        (Function.update (Function.update store .previousAgent none) .activationState none) := by
  cases kept : store .previousAgent with
  | none =>
      have same : Function.update store .previousAgent none = store := by
        rw [← kept, Function.update_eq_self]
      simp [commitHealthyAt, parseActivationState, require, Program.ask, Program.Throughout,
        performUpdate, record, isPrevious, kept, same]
  | some previous =>
      simp [commitHealthyAt, parseActivationState, require, Program.ask, Program.Throughout,
        performUpdate, record, isPrevious, kept]

theorem commitHealthyAt_run (record : store .activationState = some (.activation state))
    (isPrevious : state.previous = .previousAgent) :
    commitHealthyAt.run performUpdate store = (.ok (),
      Function.update (Function.update store .previousAgent none) .activationState none) := by
  cases kept : store .previousAgent with
  | none =>
      have same : Function.update store .previousAgent none = store := by
        rw [← kept, Function.update_eq_self]
      simp [commitHealthyAt, parseActivationState, require, Program.ask, Program.run,
        performUpdate, record, isPrevious, kept, same]
  | some previous =>
      simp [commitHealthyAt, parseActivationState, require, Program.ask, Program.run,
        performUpdate, record, isPrevious, kept]

theorem commitHealthyAt_run_idle (record : store .activationState = none) :
    commitHealthyAt.run performUpdate store = (.ok (), store) := by
  simp [commitHealthyAt, Program.ask, Program.run, performUpdate, record]

/-- Without a record, a commit only looks. -/
theorem commitHealthyAt_calls_otherwise
    (otherwise : forall state, Not (store .activationState = some (.activation state)))
    (holds : UpdateCall -> UpdateStore -> Prop)
    (looks : forall request, request.looks = true -> holds request store) :
    commitHealthyAt.Throughout performUpdate holds store := by
  have probes := fun file => looks (.probe file) rfl
  have reads := fun file => looks (.read file) rfl
  cases record : store .activationState with
  | none => simp [commitHealthyAt, Program.ask, Program.Throughout, performUpdate, record, probes]
  | some stored =>
      cases stored with
      | activation state => exact absurd record (otherwise state)
      | bytes content =>
          simp [commitHealthyAt, parseActivationState, require, Program.ask, Program.Throughout,
            performUpdate, record, probes, reads]
      | path target =>
          simp [commitHealthyAt, parseActivationState, require, Program.ask, Program.Throughout,
            performUpdate, record, probes, reads]

end Calls

/-! ## Staging -/

/-- The chunks that are received are those of the answer, in order. -/
theorem receive_run {store after : UpdateStore} {uuid : Nat} {received content : Bytes}
    {chunks : List (Except Failure Bytes)} (held : store (.artifact uuid) = some (.bytes received))
    (done : (receive uuid received chunks).run performUpdate store = (.ok content, after)) :
    after = Function.update store (.artifact uuid) (some (.bytes content)) /\
      Exists fun pieces : List Bytes => chunks = pieces.map .ok /\
        content = received ++ pieces.flatten := by
  induction chunks generalizing store received with
  | nil =>
      simp only [receive, Program.run, Prod.mk.injEq, Except.ok.injEq] at done
      rcases done with ⟨same, unchanged⟩
      subst same unchanged
      exact ⟨by rw [← held, Function.update_eq_self], [], rfl, by simp⟩
  | cons chunk chunks ih =>
      cases chunk with
      | error failure => simp [receive, Program.run] at done
      | ok chunk =>
          by_cases large : maxArtifactSize < received.length + chunk.length
          · simp [receive, large, Program.ask, Program.run] at done
          · simp only [receive, large, if_false, require, Fs.append, Program.ask, Program.call_bind,
              Program.done_bind, Program.run, performUpdate, held] at done
            rcases ih (by simp) done with ⟨atEnd, pieces, isRest, isContent⟩
            refine ⟨by rw [atEnd, Function.update_idem], chunk :: pieces, by rw [isRest]; rfl, ?_⟩
            rw [isContent, List.flatten_cons, List.append_assoc]

def marked (store : UpdateStore) (request : StageRequest) : UpdateStore :=
  Function.update (Function.update (Function.update store (.markerTemp request.markerUuid)
    (some (.path (.artifact request.uuid)))) .pendingArtifact (some (.path (.artifact request.uuid))))
    (.markerTemp request.markerUuid) none

/-- The calls that name an artifact in the marker. -/
theorem commitMarker_calls {store : UpdateStore} (request : StageRequest)
    (free : store (.markerTemp request.markerUuid) = none) (holds : UpdateCall -> UpdateStore -> Prop) :
    (commitMarker request).Throughout performUpdate holds store <->
      holds (.createNew (.markerTemp request.markerUuid))
        (Function.update store (.markerTemp request.markerUuid) (some (.bytes []))) /\
      holds (.write (.markerTemp request.markerUuid) (.path (.artifact request.uuid)))
        (Function.update store (.markerTemp request.markerUuid)
          (some (.path (.artifact request.uuid)))) /\
      holds (.syncAll (.markerTemp request.markerUuid))
        (Function.update store (.markerTemp request.markerUuid)
          (some (.path (.artifact request.uuid)))) /\
      holds (.rename (.markerTemp request.markerUuid) .pendingArtifact) (marked store request) := by
  simp [commitMarker, require, Program.ask, Program.Throughout, performUpdate, free, marked]

/-- Staging is prepared by looking, unless the marker names nothing. -/
theorem prepareStaging_calls {store : UpdateStore}
    (marker : forall stored, store .pendingArtifact = some stored -> Exists fun uuid =>
      stored = .path (.artifact uuid) /\ (store (.artifact uuid)).isSome = true)
    (holds : UpdateCall -> UpdateStore -> Prop)
    (looks : forall request, request.looks = true -> holds request store) :
    prepareStaging.Throughout performUpdate holds store := by
  have creates := looks .createDirAll rfl
  have permits := looks .setDirPermissions rfl
  have probes := fun file => looks (.probe file) rfl
  have reads := fun file => looks (.read file) rfl
  have resolves := fun file => looks (.canonicalize file) rfl
  cases marked : store .pendingArtifact with
  | none =>
      simp [prepareStaging, pendingUpdateAt, require, Program.ask, Program.Throughout, performUpdate,
        marked, creates, permits, probes]
  | some stored =>
      rcases marker stored marked with ⟨uuid, named, present⟩
      subst named
      simp [prepareStaging, pendingUpdateAt, require, Program.ask, Program.Throughout, performUpdate,
        marked, present, UpdateFile.isStaged, creates, permits, probes, reads, resolves]

theorem prepareStaging_run {store : UpdateStore}
    (marker : forall stored, store .pendingArtifact = some stored -> Exists fun uuid =>
      stored = .path (.artifact uuid) /\ (store (.artifact uuid)).isSome = true) :
    prepareStaging.run performUpdate store =
      (if (store .pendingArtifact).isSome then .error (.bail "a verified agent update is already staged")
        else .ok (), store) := by
  cases marked : store .pendingArtifact with
  | none =>
      simp [prepareStaging, pendingUpdateAt, require, Program.ask, Program.run, performUpdate, marked]
  | some stored =>
      rcases marker stored marked with ⟨uuid, named, present⟩
      subst named
      simp [prepareStaging, pendingUpdateAt, require, Program.ask, Program.run, performUpdate, marked,
        present, UpdateFile.isStaged]

section Only

variable (sha256 : Bytes -> Bytes)

/-- The files that staging changes. -/
def UpdateFile.isStaging : UpdateFile -> Bool
  | .pendingArtifact => true
  | .artifact _ => true
  | .markerTemp _ => true
  | _ => false

def UpdateCall.stages : UpdateCall -> Bool
  | .createNew file => file.isStaging
  | .create file => file.isStaging
  | .append file _ => file.isStaging
  | .write file _ => file.isStaging
  | .remove file => file.isStaging
  | .rename source target => source.isStaging && target.isStaging
  | _ => true

theorem require_only {Result : Type} {allowed : UpdateCall -> Prop}
    {program : UpdateProgram (Except Errno Result)} (only : program.Only allowed) :
    (require program).Only allowed := by
  apply Program.only_bind only
  intro reply
  cases reply <;> trivial

theorem requireFor_only {Result : Type} {allowed : UpdateCall -> Prop} (message : String)
    {program : UpdateProgram (Except Errno Result)} (only : program.Only allowed) :
    (requireFor message program).Only allowed := by
  apply Program.only_bind only
  intro reply
  cases reply <;> trivial

theorem receive_only (uuid : Nat) (received : Bytes) (chunks : List (Except Failure Bytes)) :
    (receive uuid received chunks).Only (fun request => request.stages = true) := by
  induction chunks generalizing received with
  | nil => trivial
  | cons chunk chunks ih =>
      cases chunk with
      | error failure => trivial
      | ok chunk =>
          rw [receive]
          split
          · exact ⟨rfl, fun _ => trivial⟩
          · exact Program.only_bind (require_only ⟨rfl, fun _ => trivial⟩) (fun _ => ih _)

theorem commitMarker_only (request : StageRequest) :
    (commitMarker request).Only (fun request => request.stages = true) := by
  refine Program.only_bind (require_only ⟨rfl, fun _ => trivial⟩) ?_
  intro _
  refine Program.only_bind (require_only ⟨rfl, fun _ => trivial⟩) ?_
  intro _
  refine Program.only_bind (require_only ⟨rfl, fun _ => trivial⟩) ?_
  intro _
  refine Program.only_bind ⟨rfl, fun _ => trivial⟩ ?_
  intro reply
  cases reply with
  | error error => exact ⟨rfl, fun _ => ⟨rfl, fun _ => trivial⟩⟩
  | ok done => trivial

theorem prepareStaging_only : prepareStaging.Only (fun request => request.stages = true) := by
  refine Program.only_bind (require_only ⟨rfl, fun _ => trivial⟩) ?_
  intro _
  refine Program.only_bind (require_only ⟨rfl, fun _ => trivial⟩) ?_
  intro _
  have pending : pendingUpdateAt.Only (fun request => request.stages = true) := by
    refine Program.only_bind ⟨rfl, fun _ => trivial⟩ ?_
    intro present
    split
    · refine Program.only_bind (require_only ⟨rfl, fun _ => trivial⟩) ?_
      intro stored
      split
      · trivial
      · refine Program.only_bind (require_only ⟨rfl, fun _ => trivial⟩) ?_
        intro target
        split <;> trivial
      · trivial
    · trivial
  refine Program.only_bind pending ?_
  intro found
  cases found with
  | some target => trivial
  | none =>
      refine Program.only_bind ⟨rfl, fun _ => trivial⟩ ?_
      intro present
      split
      · exact requireFor_only _ ⟨rfl, fun _ => trivial⟩
      · trivial

theorem stageArtifact_only (request : StageRequest) (expected : Bytes)
    (chunks : List (Except Failure Bytes)) :
    (stageArtifact sha256 request expected chunks).Only (fun request => request.stages = true) := by
  refine Program.only_bind (require_only ⟨rfl, fun _ => trivial⟩) ?_
  intro _
  refine Program.only_bind (receive_only _ _ _) ?_
  intro received
  split
  · exact ⟨rfl, fun _ => trivial⟩
  · refine Program.only_bind (require_only ⟨rfl, fun _ => trivial⟩) ?_
    intro _
    split
    · refine Program.only_bind (require_only ⟨rfl, fun _ => trivial⟩) ?_
      exact fun _ => commitMarker_only request
    · exact ⟨rfl, fun _ => trivial⟩

/-- Staging makes no other calls than those of staging. -/
theorem stage_only (request : StageRequest) :
    (stage sha256 request).Only (fun request => request.stages = true) := by
  rw [stage]
  split
  · trivial
  · exact Program.only_bind prepareStaging_only (fun _ => stageArtifact_only sha256 request _ _)

theorem performUpdate_stages {request : UpdateCall} (stages : request.stages = true)
    {file : UpdateFile} (other : file.isStaging = false) (store : UpdateStore) :
    (performUpdate request store).2 file = store file := by
  have different : forall {staging : UpdateFile}, staging.isStaging = true -> file ≠ staging := by
    intro staging isStaging same
    rw [same, isStaging] at other
    cases other
  apply (performWithFault_leaves none request store file).resolve_right
  cases request with
  | createNew target => exact fun left => different stages left.1
  | create target => exact fun left => different stages left.1
  | append target chunk => exact fun left => different stages left.1
  | write target content => exact fun left => different stages left.1
  | remove target => exact fun left => different stages left.1
  | rename source target =>
      rw [UpdateCall.stages, Bool.and_eq_true] at stages
      intro left
      rcases left with atTarget | atSource
      · exact different stages.2 atTarget.1
      · exact different stages.1 atSource.1
  | _ => exact id

end Only

end Runtime
end Agapornis
