import Agapornis.Runtime.UpdateCrash

namespace Agapornis
namespace Runtime

open Foundations Agapornis.Core

/-!
# Updates on trial

An activated update is on trial until it is committed healthy or rolled back.
A rollback restores the last binary that had proved itself, unless an update
is activated while an earlier one is still on trial.
-/

/-- An installation and the last binary that proved itself: the original, or
the one that was committed healthy last. -/
structure Installation where
  store : UpdateStore
  proven : Bytes

def UpdateOperation.proves (installation : Installation) : UpdateOperation -> Bytes
  | .commit =>
      match installation.store .activationState, installation.store .executable with
      | some _, some (.bytes content) => content
      | _, _ => installation.proven
  | _ => installation.proven

/-- A start or a manual rollback that answers that it rolled back. -/
def UpdateOperation.RollsBack (store : UpdateStore) : UpdateOperation -> Prop
  | .activate now => ((activateAt now).run performUpdate store).1 = .ok .rolledBack
  | .rollback stamp => ((rollbackAt stamp).run performUpdate store).1 = .ok .rolledBack
  | _ => False

/-- A staged update is activated while an earlier one is on trial. -/
def UpdateOperation.OverlapsTrial (store : UpdateStore) : UpdateOperation -> Prop
  | .activate _ => (store .pendingArtifact).isSome = true /\ (store .activationState).isSome = true
  | _ => False

section Trial

variable (sha256 : Bytes -> Bytes)

/-- An operation that runs to its end. -/
def operate (installation : Installation) (operation : UpdateOperation) : Installation where
  store := ((operation.program sha256).run performUpdate installation.store).2
  proven := operation.proves installation

def operations (original : Bytes) (run : List UpdateOperation) : Installation :=
  run.foldl (operate sha256) ⟨installed original, original⟩

/-- The proven binary is the executable, or it is kept beside it while another
one is on trial. -/
structure Tried (installation : Installation) : Prop where
  intact : Intact (fun _ => True) installation.store
  record : forall stored, installation.store .activationState = some stored ->
    Exists fun state => stored = .activation state
  settled : installation.store .activationState = none ->
    installation.store .executable = some (.bytes installation.proven)
  kept : (installation.store .activationState).isSome = true ->
    installation.store .previousAgent = some (.bytes installation.proven)

variable {sha256} {installation : Installation}

theorem stage_frame (request : StageRequest) (store : UpdateStore) {file : UpdateFile}
    (other : file.isStaging = false) :
    ((stage sha256 request).run performUpdate store).2 file = store file := by
  have preserves : forall (call : UpdateCall) (state : UpdateStore), call.stages = true ->
      state file = store file -> (performUpdate call state).2 file = store file := by
    intro call state stages same
    rw [performUpdate_stages stages other, same]
  exact Program.run_of_only performUpdate preserves (stage_only sha256 request) rfl

theorem Tried.stage (tried : Tried installation) (request : StageRequest) :
    Tried (operate sha256 installation (.stage request)) := by
  have frame : forall file : UpdateFile, file.isStaging = false ->
      (operate sha256 installation (.stage request)).store file = installation.store file := by
    intro file other
    rw [operate, UpdateOperation.program, Program.run_discard]
    exact stage_frame request installation.store other
  refine ⟨?_, ?_, ?_, ?_⟩
  · have throughout := stage_intact sha256 tried.intact request (fun _ _ => trivial)
    rw [operate, UpdateOperation.program, Program.run_discard]
    rcases Program.run_of_throughout performUpdate throughout with same | intact
    · rw [same]
      exact tried.intact
    · exact intact.choose_spec
  · rw [frame .activationState rfl]
    exact tried.record
  · rw [frame .activationState rfl, frame .executable rfl]
    exact tried.settled
  · rw [frame .activationState rfl, frame .previousAgent rfl]
    exact tried.kept

/-- A rollback restores the proven binary, or there is nothing to roll back. -/
theorem Tried.rollbackAt (tried : Tried installation) (stamp : Nat) :
    Tried ⟨((rollbackAt stamp).run performUpdate installation.store).2, installation.proven⟩ /\
      (((rollbackAt stamp).run performUpdate installation.store).1 = .ok .rolledBack ->
        ((rollbackAt stamp).run performUpdate installation.store).2 .executable =
          some (.bytes installation.proven)) := by
  cases recorded : installation.store .activationState with
  | none =>
      rw [rollbackAt_run_idle recorded]
      exact ⟨tried, fun impossible => by cases impossible⟩
  | some stored =>
      rcases tried.record stored recorded with ⟨state, isActivation⟩
      subst isActivation
      rcases tried.intact.executable with ⟨old, executable, _⟩
      have isPrevious := (tried.intact.record _ recorded).1
      have kept := tried.kept (by rw [recorded]; rfl)
      rw [rollbackAt_run executable recorded isPrevious kept]
      have restored : rolledBack installation.store (.bytes old) (.bytes installation.proven) stamp
          .executable = some (.bytes installation.proven) := by
        simp [rolledBack, Runtime.restored]
      have cleared : rolledBack installation.store (.bytes old) (.bytes installation.proven) stamp
          .activationState = none := by
        simp [rolledBack]
      refine ⟨⟨tried.intact.rolledBack old trivial stamp, ?_, fun _ => restored, ?_⟩, fun _ => restored⟩
      · simp [cleared]
      · simp [cleared]

theorem Tried.activate (tried : Tried installation) (now : Nat)
    (apart : Not ((UpdateOperation.activate now).OverlapsTrial installation.store)) :
    Tried (operate sha256 installation (.activate now)) /\
      (((activateAt now).run performUpdate installation.store).1 = .ok .rolledBack ->
        (operate sha256 installation (.activate now)).store .executable =
          some (.bytes installation.proven)) := by
  rw [operate, UpdateOperation.program, Program.run_discard]
  cases marker : installation.store .pendingArtifact with
  | none =>
      rw [activateAt_run_unmarked marker]
      exact tried.rollbackAt now
  | some stored =>
      have idle : installation.store .activationState = none := by
        cases recorded : installation.store .activationState with
        | none => rfl
        | some record => exact absurd ⟨by rw [marker]; rfl, by rw [recorded]; rfl⟩ apart
      rcases tried.intact.marker stored marker with ⟨uuid, new, named, artifact, _⟩
      subst named
      have executable := tried.settled idle
      rw [activateAt_run executable marker artifact]
      refine ⟨⟨tried.intact.activated trivial trivial now, ?_, ?_, ?_⟩, ?_⟩
      · simp [activated, swapped, recorded]
      · simp [activated, swapped, recorded]
      · simp [activated, swapped, recorded, keptPrevious, UpdateOperation.proves]
      · exact fun impossible => by cases impossible

theorem Tried.rollback (tried : Tried installation) (stamp : Nat) :
    Tried (operate sha256 installation (.rollback stamp)) := by
  rw [operate, UpdateOperation.program, Program.run_discard]
  exact (tried.rollbackAt stamp).1

theorem Tried.commit (tried : Tried installation) :
    Tried (operate sha256 installation .commit) := by
  rw [operate, UpdateOperation.program]
  cases recorded : installation.store .activationState with
  | none =>
      rw [commitHealthyAt_run_idle recorded]
      simpa [UpdateOperation.proves, recorded] using tried
  | some stored =>
      rcases tried.record stored recorded with ⟨state, isActivation⟩
      subst isActivation
      rcases tried.intact.executable with ⟨content, executable, _⟩
      rw [commitHealthyAt_run recorded (tried.intact.record _ recorded).1]
      refine ⟨tried.intact.committed, ?_, ?_, ?_⟩
      · simp
      · simp [UpdateOperation.proves, recorded, executable]
      · simp

/-- One operation keeps the proven binary. -/
theorem Tried.operate (tried : Tried installation) (operation : UpdateOperation)
    (apart : Not (operation.OverlapsTrial installation.store)) :
    Tried (operate sha256 installation operation) := by
  cases operation with
  | stage request => exact tried.stage request
  | activate now => exact (tried.activate now apart).1
  | rollback stamp => exact tried.rollback stamp
  | commit => exact tried.commit

theorem Tried.rollsBack (tried : Tried installation) (operation : UpdateOperation)
    (apart : Not (operation.OverlapsTrial installation.store))
    (rollsBack : operation.RollsBack installation.store) :
    (Runtime.operate sha256 installation operation).store .executable =
      some (.bytes installation.proven) := by
  cases operation with
  | stage request => exact absurd rollsBack id
  | activate now => exact (tried.activate now apart).2 rollsBack
  | rollback stamp =>
      rw [Runtime.operate, UpdateOperation.program, Program.run_discard]
      exact (tried.rollbackAt stamp).2 rollsBack
  | commit => exact absurd rollsBack id

/-- A run in which no update overlaps the trial of another keeps the proven
binary. -/
theorem operations_tried (original : Bytes) (run : List UpdateOperation)
    (apart : forall earlier operation rest, run = earlier ++ operation :: rest ->
      Not (operation.OverlapsTrial (operations sha256 original earlier).store))
    (earlier : List UpdateOperation) : forall rest, run = earlier ++ rest ->
      Tried (operations sha256 original earlier) := by
  induction earlier using List.reverseRecOn with
  | nil =>
      intro _ _
      refine ⟨installed_intact trivial, ?_, fun _ => rfl, ?_⟩
      · simp [operations, installed]
      · simp [operations, installed]
  | append_singleton earlier operation ih =>
      intro rest parts
      rw [List.append_assoc] at parts
      rw [operations, List.foldl_append]
      exact (ih _ parts).operate operation (apart earlier operation rest parts)

/-- What a rollback restores is the last binary that proved itself. -/
theorem operations_rollBackToProven (sha256 : Bytes -> Bytes) (original : Bytes)
    (run : List UpdateOperation)
    (apart : forall earlier operation rest, run = earlier ++ operation :: rest ->
      Not (operation.OverlapsTrial (operations sha256 original earlier).store)) :
    forall earlier operation rest, run = earlier ++ operation :: rest ->
      operation.RollsBack (operations sha256 original earlier).store ->
      (operations sha256 original (earlier ++ [operation])).store .executable =
        some (.bytes (operations sha256 original earlier).proven) := by
  intro earlier operation rest parts rollsBack
  have tried := operations_tried original run apart earlier _ parts
  have split : operations sha256 original (earlier ++ [operation]) =
      operate sha256 (operations sha256 original earlier) operation := by
    rw [operations, List.foldl_append]
    rfl
  rw [split]
  exact tried.rollsBack operation (apart earlier operation rest parts) rollsBack

end Trial

/-- An update that is restarted before its health window ends. -/
def trialRun : List UpdateOperation :=
  [.stage firstRequest, .activate 0, .activate 1]

theorem operations_rollBackToProven_trialRun :
    (operations sampleHash [0] trialRun).store .executable =
      some (.bytes (operations sampleHash [0] [.stage firstRequest, .activate 0]).proven) := by
  refine operations_rollBackToProven sampleHash [0] trialRun ?_
    [.stage firstRequest, .activate 0] (.activate 1) [] rfl rfl
  intro earlier operation rest parts overlaps
  rcases earlier with _ | ⟨first, _ | ⟨second, _ | ⟨third, more⟩⟩⟩
  · cases parts
    exact overlaps
  · cases parts
    revert overlaps
    simp only [UpdateOperation.OverlapsTrial]
    decide
  · cases parts
    revert overlaps
    simp only [UpdateOperation.OverlapsTrial]
    decide
  · simp [trialRun] at parts

/-- A second update that is activated while the first is on trial. -/
def overlappingRun : List UpdateOperation :=
  [.stage firstRequest, .activate 0, .stage secondRequest, .activate 1]

theorem overlapping_trial_restored :
    (UpdateOperation.activate 2).RollsBack (operations sampleHash [0] overlappingRun).store /\
      (operations sampleHash [0] (overlappingRun ++ [.activate 2])).store .executable =
        some (.bytes [1]) /\
      (operations sampleHash [0] overlappingRun).proven = [0] := by
  refine ⟨rfl, ?_, ?_⟩
  · decide
  · decide

end Runtime
end Agapornis
