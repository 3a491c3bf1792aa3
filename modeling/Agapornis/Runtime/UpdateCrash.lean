import Mathlib.Data.List.Induction
import Agapornis.Runtime.UpdateCalls

namespace Agapornis
namespace Runtime

open Foundations Agapornis.Core

/-!
# Updates that are cut off

Any operation may be cut off after any of its calls.  The next start must
still find a complete executable, and its activation must not fail.
-/

/-! ## Runs -/

inductive UpdateOperation where
  | stage (request : StageRequest)
  | activate (now : Nat)
  | rollback (stamp : Nat)
  | commit

def UpdateOperation.program (sha256 : Bytes -> Bytes) : UpdateOperation -> UpdateProgram Unit
  | .stage request => do
      let _ ← Runtime.stage sha256 request
      return ()
  | .activate now => do
      let _ ← activateAt now
      return ()
  | .rollback stamp => do
      let _ ← rollbackAt stamp
      return ()
  | .commit => commitHealthyAt

/-- An operation that makes at most the given number of calls. -/
structure Attempt where
  operation : UpdateOperation
  calls : Nat

/-- A fresh installation. -/
def installed (original : Bytes) : UpdateStore
  | .executable => some (.bytes original)
  | _ => none

/-- The answer to a request passes its checks, and the artifact is its bytes
with the checksum asked for. -/
def StageRequest.Verifies (sha256 : Bytes -> Bytes) (request : StageRequest) (content : Bytes) : Prop :=
  Exists fun pieces : List Bytes => pieces.flatten = content /\
    checkRequest request = .ok (sha256 content, pieces.map .ok)

section Crash

variable (sha256 : Bytes -> Bytes)

def attempt (store : UpdateStore) (attempted : Attempt) : UpdateStore :=
  (attempted.operation.program sha256).cut performUpdate attempted.calls store

def attempts (run : List Attempt) (store : UpdateStore) : UpdateStore :=
  run.foldl (attempt sha256) store

/-- The original binary and the verified artifacts of a run. -/
def Installable (original : Bytes) (run : List Attempt) (content : Bytes) : Prop :=
  content = original \/ Exists fun request => Exists fun calls =>
    { operation := .stage request, calls := calls } ∈ run /\ request.Verifies sha256 content

/-- The executable is complete, and the next activation does not fail. -/
structure Startable (good : Bytes -> Prop) (store : UpdateStore) : Prop where
  complete : Exists fun content => store .executable = some (.bytes content) /\ good content
  activates : forall now, Exists fun outcome =>
    ((activateAt now).run performUpdate store).1 = .ok outcome

/-- The calls after which an operation must not be cut off.  The last two
matter only when no update is pending. -/
def Irrecoverable (pending : Bool) : UpdateCall -> Prop
  | .rename (.artifact _) .executable => True
  | .rename .executable (.failedAgent _) => True
  | .rename .previousAgent .executable => pending = false
  | .remove .previousAgent => pending = false
  | _ => False

/-- An attempt is cut off directly after one of those calls. -/
def BreaksOff (store : UpdateStore) (attempted : Attempt) : Prop :=
  Exists fun request =>
    (attempted.operation.program sha256).lastCall performUpdate attempted.calls store = some request /\
      Irrecoverable (store .pendingArtifact).isSome request

end Crash

/-! ## The invariant -/

/-- A record that can be rolled back by, unless an update is pending; then it
may also be torn. -/
def Recoverable (pending previous : Option Stored) : Stored -> Prop
  | .activation state =>
      state.previous = .previousAgent /\ (pending = none -> previous.isSome = true)
  | .bytes _ => pending.isSome = true
  | .path _ => False

@[simp] theorem recoverable_bytes (pending previous : Option Stored) (content : Bytes) :
    Recoverable pending previous (.bytes content) <-> pending.isSome = true := Iff.rfl

/-- Every file holds what the operations need. -/
structure Intact (good : Bytes -> Prop) (store : UpdateStore) : Prop where
  executable : Exists fun content => store .executable = some (.bytes content) /\ good content
  previous : forall stored, store .previousAgent = some stored ->
    Exists fun content => stored = .bytes content /\ good content
  marker : forall stored, store .pendingArtifact = some stored ->
    Exists fun uuid => Exists fun content => stored = .path (.artifact uuid) /\
      store (.artifact uuid) = some (.bytes content) /\ good content
  record : forall stored, store .activationState = some stored ->
    Recoverable (store .pendingArtifact) (store .previousAgent) stored

namespace Intact

variable {good : Bytes -> Prop} {store : UpdateStore}

/-- Files that nothing needs at present. -/
def Unneeded (store : UpdateStore) : UpdateFile -> Prop
  | .markerTemp _ => True
  | .previousTemp => True
  | .failedAgent _ => True
  | .artifact uuid => store .pendingArtifact ≠ some (.path (.artifact uuid))
  | _ => False

theorem scratch (intact : Intact good store) (file : UpdateFile) (unneeded : Unneeded store file)
    (stored : Option Stored) : Intact good (Function.update store file stored) := by
  have same : forall other, Not (Unneeded store other) ->
      Function.update store file stored other = store other := by
    intro other needed
    apply Function.update_of_ne
    intro equal
    subst equal
    exact needed unneeded
  have executable := same .executable id
  have previous := same .previousAgent id
  have pending := same .pendingArtifact id
  have state := same .activationState id
  constructor
  · rw [executable]
    exact intact.executable
  · rw [previous]
    exact intact.previous
  · rw [pending]
    intro marker marked
    rcases intact.marker marker marked with ⟨uuid, content, named, held, isGood⟩
    subst named
    have artifact := same (.artifact uuid) (fun unneeded => unneeded marked)
    exact ⟨uuid, content, rfl, by rw [artifact]; exact held, isGood⟩
  · rw [pending, previous, state]
    exact intact.record

theorem replaceExecutable (intact : Intact good store) {content : Bytes} (isGood : good content) :
    Intact good (Function.update store .executable (some (.bytes content))) where
  executable := ⟨content, by simp, isGood⟩
  previous := by simpa using intact.previous
  marker := by simpa using intact.marker
  record := by simpa using intact.record

theorem keepPrevious (intact : Intact good store) {content : Bytes} (isGood : good content) :
    Intact good (Function.update store .previousAgent (some (.bytes content))) where
  executable := by simpa using intact.executable
  previous := by simpa using isGood
  marker := by simpa using intact.marker
  record := by
    intro stored recorded
    have recoverable := intact.record stored (by simpa using recorded)
    cases stored with
    | bytes content => simpa using (recoverable_bytes _ _ _).mp recoverable
    | path target => exact recoverable
    | activation state => simpa [Recoverable] using recoverable.1

theorem dropPrevious (intact : Intact good store)
    (unused : (store .pendingArtifact).isSome = true \/ store .activationState = none) :
    Intact good (Function.update store .previousAgent none) where
  executable := by simpa using intact.executable
  previous := by simp
  marker := by simpa using intact.marker
  record := by
    intro stored recorded
    have recordedHere : store .activationState = some stored := by simpa using recorded
    rcases unused with pending | absent
    · have recoverable := intact.record stored recordedHere
      cases stored with
      | bytes content => simpa using (recoverable_bytes _ _ _).mp recoverable
      | path target => exact recoverable
      | activation state =>
          refine ⟨recoverable.1, ?_⟩
          intro notPending
          simp only [Function.update_of_ne, ne_eq, reduceCtorEq, not_false_eq_true] at notPending
          simp [notPending] at pending
    · simp [absent] at recordedHere

theorem note (intact : Intact good store) {stored : Stored}
    (recoverable : Recoverable (store .pendingArtifact) (store .previousAgent) stored) :
    Intact good (Function.update store .activationState (some stored)) where
  executable := by simpa using intact.executable
  previous := by simpa using intact.previous
  marker := by simpa using intact.marker
  record := by simpa using recoverable

theorem forget (intact : Intact good store) :
    Intact good (Function.update store .activationState none) where
  executable := by simpa using intact.executable
  previous := by simpa using intact.previous
  marker := by simpa using intact.marker
  record := by simp

theorem mark (intact : Intact good store) {uuid : Nat} {content : Bytes}
    (held : store (.artifact uuid) = some (.bytes content)) (isGood : good content) :
    Intact good (Function.update store .pendingArtifact (some (.path (.artifact uuid)))) where
  executable := by simpa using intact.executable
  previous := by simpa using intact.previous
  marker := by
    intro stored marked
    refine ⟨uuid, content, ?_, by simpa using held, isGood⟩
    simpa using marked.symm
  record := by
    intro stored recorded
    have recoverable := intact.record stored (by simpa using recorded)
    cases stored with
    | bytes content => simp [Recoverable]
    | path target => exact recoverable
    | activation state => exact ⟨recoverable.1, by simp⟩

theorem unmark (intact : Intact good store)
    (recoverable : forall stored, store .activationState = some stored ->
      Recoverable none (store .previousAgent) stored) :
    Intact good (Function.update store .pendingArtifact none) where
  executable := by simpa using intact.executable
  previous := by simpa using intact.previous
  marker := by simp
  record := by simpa using recoverable

end Intact

/-! ## What cannot start -/

section NotStartable

variable {good : Bytes -> Prop} {store : UpdateStore}

theorem notStartable_of_missingExecutable (missing : store .executable = none) :
    Not (Startable good store) := by
  intro startable
  rcases startable.complete with ⟨content, held, _⟩
  simp [missing] at held

theorem notStartable_of_missingArtifact (uuid : Nat)
    (marker : store .pendingArtifact = some (.path (.artifact uuid)))
    (missing : store (.artifact uuid) = none) : Not (Startable good store) := by
  intro startable
  rcases startable.activates 0 with ⟨outcome, activates⟩
  simp [activateAt, pendingUpdateAt, require, Program.ask, Program.run, performUpdate, marker,
    missing] at activates

theorem notStartable_of_missingPrevious (state : ActivationState)
    (marker : store .pendingArtifact = none)
    (record : store .activationState = some (.activation state))
    (missing : store state.previous = none) : Not (Startable good store) := by
  intro startable
  rcases startable.activates 0 with ⟨outcome, activates⟩
  simp [activateAt, rollbackAt, parseActivationState, require, Program.ask, Program.run,
    performUpdate, marker, record, missing] at activates

end NotStartable

/-! ## One operation -/

section Operations

variable {good : Bytes -> Prop} {store : UpdateStore}

/-- After an irrecoverable call no start succeeds; after any other call every
file is intact. -/
def Safe (good : Bytes -> Prop) (pending : Bool) (request : UpdateCall) (store : UpdateStore) : Prop :=
  (Irrecoverable pending request -> Not (Startable good store)) /\
    (Not (Irrecoverable pending request) -> Intact good store)

theorem Intact.safe (intact : Intact good store) {pending : Bool} {request : UpdateCall}
    (recoverable : Not (Irrecoverable pending request)) : Safe good pending request store :=
  ⟨fun irrecoverable => absurd irrecoverable recoverable, fun _ => intact⟩

theorem Intact.looking (intact : Intact good store) {pending : Bool} (request : UpdateCall)
    (looks : request.looks = true) : Safe good pending request store := by
  apply intact.safe
  cases request <;> first | exact id | exact absurd looks (by simp [UpdateCall.looks])

theorem safe_of_not_startable {pending : Bool} {request : UpdateCall}
    (irrecoverable : Irrecoverable pending request) (bricked : Not (Startable good store)) :
    Safe good pending request store :=
  ⟨fun _ => bricked, fun recoverable => absurd irrecoverable recoverable⟩

theorem Intact.keptPrevious (intact : Intact good store) {old : Bytes} (isGood : good old) :
    Intact good (keptPrevious store (.bytes old)) := by
  have copied := intact.scratch .previousTemp trivial (some (.bytes old))
  exact (copied.keepPrevious isGood).scratch .previousTemp trivial none

theorem Intact.recorded (intact : Intact good store) {old : Bytes} (isGood : good old) (now : Nat) :
    Intact good (recorded store (.bytes old) now) := by
  apply (intact.keptPrevious isGood).note
  exact ⟨rfl, fun _ => by simp [Runtime.keptPrevious]⟩

/-- The swap itself leaves a marker without an artifact. -/
theorem Intact.activated (intact : Intact good store) {old new : Bytes} {uuid : Nat}
    (oldGood : good old) (newGood : good new) (now : Nat) :
    Intact good (activated store (.bytes old) (.bytes new) uuid now) := by
  have replaced := (intact.recorded oldGood now).replaceExecutable newGood
  have unmarked := replaced.unmark (by
    intro stored noted
    simp only [Runtime.recorded, ne_eq, reduceCtorEq, not_false_eq_true, Function.update_of_ne,
      Function.update_self, Option.some.injEq] at noted
    subst noted
    exact ⟨rfl, fun _ => by simp [Runtime.recorded, Runtime.keptPrevious]⟩)
  have cleared := unmarked.scratch (.artifact uuid) (by simp [Intact.Unneeded]) none
  rw [Function.update_comm (by simp)] at cleared
  exact cleared

theorem Intact.committed (intact : Intact good store) :
    Intact good (Function.update (Function.update store .previousAgent none) .activationState none) := by
  have dropped := intact.forget.dropPrevious (Or.inr (by simp))
  rw [Function.update_comm (by simp)] at dropped
  exact dropped

/-- The store of a rollback whose previous binary is in place but not yet
gone from where it was kept. -/
theorem Intact.replaced (intact : Intact good store) (old : Bytes) {previous : Bytes}
    (isGood : good previous) (stamp : Nat) :
    Intact good (Function.update (setAside store (.bytes old) stamp) .executable
      (some (.bytes previous))) := by
  have copied := intact.scratch (.failedAgent stamp) trivial (some (.bytes old))
  rw [setAside, Function.update_idem]
  exact copied.replaceExecutable isGood

theorem Intact.restored (intact : Intact good store) (old : Bytes) {previous : Bytes}
    (isGood : good previous)
    (unused : (store .pendingArtifact).isSome = true \/ store .activationState = none) (stamp : Nat) :
    Intact good (restored store (.bytes old) (.bytes previous) stamp) := by
  apply (intact.replaced old isGood stamp).dropPrevious
  simpa [setAside] using unused

theorem Intact.rolledBack (intact : Intact good store) (old : Bytes) {previous : Bytes}
    (isGood : good previous) (stamp : Nat) :
    Intact good (rolledBack store (.bytes old) (.bytes previous) stamp) :=
  (intact.replaced old isGood stamp).committed

theorem rollbackAt_safe (intact : Intact good store) (stamp : Nat) :
    (rollbackAt stamp).Throughout performUpdate (Safe good (store .pendingArtifact).isSome) store := by
  rcases intact.executable with ⟨old, executable, oldGood⟩
  by_cases ready : Exists fun state => Exists fun previous =>
      store .activationState = some (.activation state) /\ store state.previous = some previous
  · rcases ready with ⟨state, stored, record, kept⟩
    have recoverable := intact.record _ record
    rw [recoverable.1] at kept
    rcases intact.previous stored kept with ⟨previous, isBytes, previousGood⟩
    subst isBytes
    rw [rollbackAt_calls executable record recoverable.1 kept]
    refine ⟨intact.safe id, intact.safe id, intact.safe id, ?_, ?_, ?_⟩
    · refine safe_of_not_startable trivial ?_
      exact notStartable_of_missingExecutable (by simp [setAside])
    · cases marker : store .pendingArtifact with
      | none =>
          refine safe_of_not_startable rfl ?_
          apply notStartable_of_missingPrevious state
          · simpa [restored, setAside] using marker
          · simpa [restored, setAside] using record
          · simp [restored, recoverable.1]
      | some marked =>
          apply (intact.restored old previousGood (Or.inl (by simp [marker])) stamp).safe
          simp [Irrecoverable]
    · exact (intact.rolledBack old previousGood stamp).safe id
  · apply rollbackAt_calls_otherwise
    · intro state record
      cases kept : store state.previous with
      | none => rfl
      | some stored => exact absurd ⟨state, stored, record, kept⟩ ready
    · exact intact.looking

theorem activateAt_safe (intact : Intact good store) (now : Nat) :
    (activateAt now).Throughout performUpdate (Safe good (store .pendingArtifact).isSome) store := by
  rcases intact.executable with ⟨old, executable, oldGood⟩
  cases marker : store .pendingArtifact with
  | none =>
      have rolledBack := rollbackAt_safe intact now
      rw [marker] at rolledBack
      rw [activateAt_calls_unmarked marker]
      exact ⟨intact.safe id, intact.safe id, fun _ => rolledBack⟩
  | some marked =>
      rcases intact.marker marked marker with ⟨uuid, new, named, artifact, newGood⟩
      subst named
      have copied := fun stored => intact.scratch .previousTemp trivial (some stored)
      have kept := intact.keptPrevious oldGood
      have noted := intact.recorded oldGood now
      rw [activateAt_calls executable marker artifact]
      refine ⟨intact.safe id, intact.safe id, intact.safe id, intact.safe id, (copied _).safe id,
        (copied _).safe id, kept.safe id, ?_, noted.safe id, noted.safe id, ?_, ?_⟩
      · have torn : Intact good (Function.update (keptPrevious store (.bytes old)) .activationState
            (some (.bytes []))) := kept.note (by simp [keptPrevious, marker])
        exact torn.safe id
      · refine safe_of_not_startable trivial ?_
        apply notStartable_of_missingArtifact uuid
        · simpa [swapped, recorded, keptPrevious] using marker
        · simp [swapped]
      · exact (intact.activated oldGood newGood now).safe id

theorem commitHealthyAt_safe (intact : Intact good store) :
    commitHealthyAt.Throughout performUpdate (Safe good (store .pendingArtifact).isSome) store := by
  by_cases ready : Exists fun state => store .activationState = some (.activation state)
  · rcases ready with ⟨state, record⟩
    have recoverable := intact.record _ record
    rw [commitHealthyAt_calls record recoverable.1]
    refine ⟨intact.safe id, intact.safe id, ?_, intact.committed.safe id⟩
    cases marker : store .pendingArtifact with
    | none =>
        refine safe_of_not_startable rfl ?_
        apply notStartable_of_missingPrevious state
        · simpa using marker
        · simpa using record
        · simp [recoverable.1]
    | some marked =>
        apply (intact.dropPrevious (Or.inl (by simp [marker]))).safe
        simp [Irrecoverable]
  · apply commitHealthyAt_calls_otherwise
    · exact fun state record => ready ⟨state, record⟩
    · exact intact.looking

end Operations

/-! ## Staging -/

section Staging

variable {good : Bytes -> Prop} {store : UpdateStore}

theorem receive_intact (intact : Intact good store) (unmarked : store .pendingArtifact = none)
    (uuid : Nat) (received : Bytes) (chunks : List (Except Failure Bytes)) :
    (receive uuid received chunks).Throughout performUpdate (fun _ after => Intact good after) store := by
  have unneeded : forall {other : UpdateStore}, other .pendingArtifact = none ->
      Intact.Unneeded other (.artifact uuid) := by
    intro other otherUnmarked
    simp [Intact.Unneeded, otherUnmarked]
  induction chunks generalizing store received with
  | nil => trivial
  | cons chunk chunks ih =>
      cases chunk with
      | error failure => trivial
      | ok chunk =>
          by_cases large : maxArtifactSize < received.length + chunk.length
          · simp only [receive, large, if_true, Fs.removeFile, Program.ask, Program.call_bind,
              Program.done_bind]
            refine ⟨?_, trivial⟩
            simp only [performUpdate]
            split
            · exact (intact.scratch _ (unneeded unmarked) none)
            · exact intact
          · simp only [receive, large, if_false, require, Fs.append, Program.ask, Program.call_bind,
              Program.done_bind]
            simp only [Program.Throughout, performUpdate]
            split
            · next content held =>
                have appended := intact.scratch (.artifact uuid) (unneeded unmarked)
                  (some (.bytes (content ++ chunk)))
                exact ⟨appended, ih appended (by simpa using unmarked) _⟩
            · exact ⟨intact, ih intact unmarked _⟩

theorem commitMarker_intact (intact : Intact good store) (request : StageRequest) {content : Bytes}
    (held : store (.artifact request.uuid) = some (.bytes content)) (isGood : good content) :
    (commitMarker request).Throughout performUpdate (fun _ after => Intact good after) store := by
  cases free : store (.markerTemp request.markerUuid) with
  | some stored =>
      simp only [commitMarker, require, Fs.createNew, Program.ask, Program.call_bind, Program.done_bind,
        Program.Throughout, performUpdate, free, Option.isSome_some, if_true]
      exact ⟨intact, trivial⟩
  | none =>
      have written := fun stored => intact.scratch (.markerTemp request.markerUuid) trivial (some stored)
      rw [commitMarker_calls request free]
      refine ⟨written _, written _, written _, ?_⟩
      have named := (written (.path (.artifact request.uuid))).mark (by simpa using held) isGood
      exact (named.scratch (.markerTemp request.markerUuid) trivial none)

theorem stageArtifact_intact (sha256 : Bytes -> Bytes) (intact : Intact good store)
    (unmarked : store .pendingArtifact = none) (request : StageRequest) {expected : Bytes}
    {chunks : List (Except Failure Bytes)}
    (verified : forall pieces : List Bytes, chunks = pieces.map .ok ->
      sha256 pieces.flatten = expected -> good pieces.flatten) :
    (stageArtifact sha256 request expected chunks).Throughout performUpdate
      (fun _ after => Intact good after) store := by
  have unneeded : forall {other : UpdateStore}, other .pendingArtifact = none ->
      Intact.Unneeded other (.artifact request.uuid) := by
    intro other otherUnmarked
    simp [Intact.Unneeded, otherUnmarked]
  cases free : store (.artifact request.uuid) with
  | some stored =>
      simp only [stageArtifact, require, Fs.createNew, Program.ask, Program.call_bind, Program.done_bind,
        Program.failed_bind, Program.Throughout, performUpdate, free, Option.isSome_some, if_true]
      exact ⟨intact, trivial⟩
  | none =>
      have created := intact.scratch (.artifact request.uuid) (unneeded unmarked) (some (.bytes []))
      simp only [stageArtifact, require, Fs.createNew, Program.ask, Program.call_bind, Program.done_bind,
        Program.Throughout, performUpdate, free, Option.isSome_none, if_false, Bool.false_eq_true]
      refine ⟨created, ?_⟩
      rw [Program.throughout_bind]
      refine ⟨receive_intact created (by simpa using unmarked) _ _ _, ?_⟩
      intro content after run
      rcases receive_run (by simp) run with ⟨atEnd, pieces, isChunks, isContent⟩
      rw [Function.update_idem] at atEnd
      rw [List.nil_append] at isContent
      have held : after (.artifact request.uuid) = some (.bytes content) := by rw [atEnd]; simp
      have received := intact.scratch (.artifact request.uuid) (unneeded unmarked)
        (some (.bytes content))
      rw [<- atEnd] at received
      have removed := intact.scratch (.artifact request.uuid) (unneeded unmarked) none
      have removal : Function.update after (.artifact request.uuid) none =
          Function.update store (.artifact request.uuid) none := by rw [atEnd, Function.update_idem]
      by_cases empty : content.length = 0
      · simp only [empty, if_true, Fs.removeFile, Program.ask, Program.call_bind, Program.done_bind,
          Program.Throughout, performUpdate, held, Option.isSome_some, removal]
        exact ⟨removed, trivial⟩
      · by_cases matching : sha256 content = expected
        · simp only [empty, if_false, matching, if_true, Fs.syncAll, Fs.setPermissions, Program.ask,
            Program.call_bind, Program.done_bind, Program.Throughout, performUpdate, held,
            Option.isSome_some]
          refine ⟨received, received, ?_⟩
          apply commitMarker_intact received request held
          rw [isContent]
          exact verified pieces isChunks (by rw [<- isContent]; exact matching)
        · simp only [empty, if_false, matching, Fs.syncAll, Fs.removeFile, Program.ask,
            Program.call_bind, Program.done_bind, Program.Throughout, performUpdate, held,
            Option.isSome_some, if_true, removal]
          exact ⟨received, removed, trivial⟩

theorem stage_intact (sha256 : Bytes -> Bytes) (intact : Intact good store) (request : StageRequest)
    (verified : forall content, request.Verifies sha256 content -> good content) :
    (stage sha256 request).Throughout performUpdate (fun _ after => Intact good after) store := by
  cases checked : checkRequest request with
  | error failure =>
      simp only [stage, checked]
      trivial
  | ok download =>
      rcases download with ⟨expected, chunks⟩
      simp only [stage, checked]
      rw [Program.throughout_bind]
      have named : forall stored, store .pendingArtifact = some stored -> Exists fun uuid =>
          stored = .path (.artifact uuid) /\ (store (.artifact uuid)).isSome = true := by
        intro stored marked
        rcases intact.marker stored marked with ⟨uuid, content, isPath, held, _⟩
        exact ⟨uuid, isPath, by simp [held]⟩
      refine ⟨prepareStaging_calls named _ (fun _ _ => intact), ?_⟩
      intro done after run
      rw [prepareStaging_run named, Prod.mk.injEq] at run
      rcases run with ⟨replied, same⟩
      subst same
      have unmarked : store .pendingArtifact = none := by
        cases marked : store .pendingArtifact with
        | none => rfl
        | some stored => simp [marked] at replied
      apply stageArtifact_intact sha256 intact unmarked
      intro pieces isChunks matching
      apply verified
      exact ⟨pieces, rfl, by rw [checked, isChunks, matching]⟩

theorem not_irrecoverable_of_stages {request : UpdateCall} (stages : request.stages = true)
    (pending : Bool) : Not (Irrecoverable pending request) := by
  cases request with
  | rename source target =>
      cases source <;> cases target <;>
        first | exact id | simp [UpdateCall.stages, UpdateFile.isStaging] at stages
  | remove file =>
      cases file <;> first | exact id | simp [UpdateCall.stages, UpdateFile.isStaging] at stages
  | _ => exact id

theorem stage_safe (sha256 : Bytes -> Bytes) (intact : Intact good store) (request : StageRequest)
    (verified : forall content, request.Verifies sha256 content -> good content) :
    (stage sha256 request).Throughout performUpdate
      (Safe good (store .pendingArtifact).isSome) store := by
  have throughout := stage_intact sha256 intact request verified
  apply (throughout.ofOnly performUpdate (stage_only sha256 request)).mono
  intro call after both
  exact both.2.safe (not_irrecoverable_of_stages both.1 _)

end Staging

/-! ## Whole runs -/

section Runs

variable {good : Bytes -> Prop} {store : UpdateStore}

theorem operation_safe (sha256 : Bytes -> Bytes) (intact : Intact good store)
    (operation : UpdateOperation)
    (verified : forall request content, operation = .stage request ->
      request.Verifies sha256 content -> good content) :
    (operation.program sha256).Throughout performUpdate
      (Safe good (store .pendingArtifact).isSome) store := by
  cases operation with
  | stage request =>
      rw [UpdateOperation.program, Program.throughout_bind]
      exact ⟨stage_safe sha256 intact request (fun content => verified request content rfl),
        fun _ _ _ => trivial⟩
  | activate now =>
      rw [UpdateOperation.program, Program.throughout_bind]
      exact ⟨activateAt_safe intact now, fun _ _ _ => trivial⟩
  | rollback stamp =>
      rw [UpdateOperation.program, Program.throughout_bind]
      exact ⟨rollbackAt_safe intact stamp, fun _ _ _ => trivial⟩
  | commit => exact commitHealthyAt_safe intact

/-- An attempt that breaks off leaves an agent that cannot start; any other
leaves the files intact. -/
theorem attempt_outcome (sha256 : Bytes -> Bytes) (intact : Intact good store) (attempted : Attempt)
    (verified : forall request content, attempted.operation = .stage request ->
      request.Verifies sha256 content -> good content) :
    (BreaksOff sha256 store attempted -> Not (Startable good (attempt sha256 store attempted))) /\
      (Not (BreaksOff sha256 store attempted) -> Intact good (attempt sha256 store attempted)) := by
  have safe := operation_safe sha256 intact attempted.operation verified
  rcases Program.cut_of_throughout performUpdate safe attempted.calls with noCall | made
  · constructor
    · intro breaksOff
      rcases breaksOff with ⟨request, last, _⟩
      simp [noCall.1] at last
    · intro _
      rw [attempt, noCall.2]
      exact intact
  · rcases made with ⟨request, last, safeHere⟩
    constructor
    · intro breaksOff
      rcases breaksOff with ⟨other, otherLast, irrecoverable⟩
      rw [last, Option.some.injEq] at otherLast
      subst otherLast
      exact safeHere.1 irrecoverable
    · intro whole
      exact safeHere.2 (fun irrecoverable => whole ⟨request, last, irrecoverable⟩)

theorem Intact.startable (intact : Intact good store) : Startable good store := by
  refine ⟨intact.executable, ?_⟩
  intro now
  rcases intact.executable with ⟨old, executable, _⟩
  cases marker : store .pendingArtifact with
  | some stored =>
      rcases intact.marker stored marker with ⟨uuid, new, named, artifact, _⟩
      subst named
      exact ⟨.activated, by rw [activateAt_run executable marker artifact]⟩
  | none =>
      rw [activateAt_run_unmarked marker]
      cases record : store .activationState with
      | none => exact ⟨.nothingPending, by rw [rollbackAt_run_idle record]⟩
      | some stored =>
          have recoverable := intact.record stored record
          cases stored with
          | bytes content => simp [marker] at recoverable
          | path target => exact absurd recoverable id
          | activation state =>
              rcases Option.isSome_iff_exists.mp (recoverable.2 marker) with ⟨previous, kept⟩
              exact ⟨.rolledBack, by rw [rollbackAt_run executable record recoverable.1 kept]⟩

theorem Intact.mono {better : Bytes -> Prop} (intact : Intact good store)
    (implies : forall content, good content -> better content) : Intact better store where
  executable := by
    rcases intact.executable with ⟨content, held, isGood⟩
    exact ⟨content, held, implies content isGood⟩
  previous := by
    intro stored kept
    rcases intact.previous stored kept with ⟨content, same, isGood⟩
    exact ⟨content, same, implies content isGood⟩
  marker := by
    intro stored marked
    rcases intact.marker stored marked with ⟨uuid, content, named, held, isGood⟩
    exact ⟨uuid, content, named, held, implies content isGood⟩
  record := intact.record

theorem installed_intact {original : Bytes} (isGood : good original) :
    Intact good (installed original) where
  executable := ⟨original, rfl, isGood⟩
  previous := by simp [installed]
  marker := by simp [installed]
  record := by simp [installed]

theorem Installable.append {sha256 : Bytes -> Bytes} {original content : Bytes} {run : List Attempt}
    (installable : Installable sha256 original run content) (later : List Attempt) :
    Installable sha256 original (run ++ later) content := by
  rcases installable with same | staged
  · exact Or.inl same
  · rcases staged with ⟨request, calls, member, verifies⟩
    exact Or.inr ⟨request, calls, List.mem_append_left later member, verifies⟩

/-- One more attempt on intact files. -/
theorem attempts_snoc (sha256 : Bytes -> Bytes) (original : Bytes) (run : List Attempt)
    (attempted : Attempt)
    (intact : Intact (Installable sha256 original run) (attempts sha256 run (installed original))) :
    (BreaksOff sha256 (attempts sha256 run (installed original)) attempted ->
        Not (Startable (Installable sha256 original (run ++ [attempted]))
          (attempts sha256 (run ++ [attempted]) (installed original)))) /\
      (Not (BreaksOff sha256 (attempts sha256 run (installed original)) attempted) ->
        Intact (Installable sha256 original (run ++ [attempted]))
          (attempts sha256 (run ++ [attempted]) (installed original))) := by
  have more := intact.mono (fun content installable => installable.append [attempted])
  have outcome := attempt_outcome sha256 more attempted (by
    intro request content isStage verifies
    refine Or.inr ⟨request, attempted.calls, ?_, verifies⟩
    rw [<- isStage]
    simp)
  have split : attempts sha256 (run ++ [attempted]) (installed original) =
      attempt sha256 (attempts sha256 run (installed original)) attempted := by
    rw [attempts, List.foldl_append]
    rfl
  rw [split]
  exact outcome

/-- The files are intact at every point of a run in which no attempt on intact
files breaks off. -/
theorem attempts_intact (sha256 : Bytes -> Bytes) (original : Bytes) (run : List Attempt)
    (whole : forall earlier attempted rest, run = earlier ++ attempted :: rest ->
      Intact (Installable sha256 original earlier) (attempts sha256 earlier (installed original)) ->
      Not (BreaksOff sha256 (attempts sha256 earlier (installed original)) attempted))
    (earlier : List Attempt) : forall rest, run = earlier ++ rest ->
      Intact (Installable sha256 original earlier) (attempts sha256 earlier (installed original)) := by
  induction earlier using List.reverseRecOn with
  | nil => exact fun _ _ => installed_intact (Or.inl rfl)
  | append_singleton earlier attempted ih =>
      intro rest parts
      rw [List.append_assoc] at parts
      have intact := ih _ parts
      apply (attempts_snoc sha256 original earlier attempted intact).2
      exact whole earlier attempted rest parts intact

/-- Every start along a run succeeds on a complete executable exactly when no
attempt breaks off. -/
theorem attempts_startable_iff (sha256 : Bytes -> Bytes) (original : Bytes) (run : List Attempt) :
    (forall earlier rest, run = earlier ++ rest ->
        Startable (Installable sha256 original earlier)
          (attempts sha256 earlier (installed original))) <->
      forall earlier attempted rest, run = earlier ++ attempted :: rest ->
        Not (BreaksOff sha256 (attempts sha256 earlier (installed original)) attempted) := by
  constructor
  · intro startable
    have whole : forall earlier attempted rest, run = earlier ++ attempted :: rest ->
        Intact (Installable sha256 original earlier) (attempts sha256 earlier (installed original)) ->
        Not (BreaksOff sha256 (attempts sha256 earlier (installed original)) attempted) := by
      intro earlier attempted rest parts intact breaksOff
      apply (attempts_snoc sha256 original earlier attempted intact).1 breaksOff
      exact startable _ rest (by rw [List.append_assoc]; exact parts)
    intro earlier attempted rest parts
    exact whole earlier attempted rest parts
      (attempts_intact sha256 original run whole earlier _ parts)
  · intro whole earlier rest parts
    apply Intact.startable
    apply attempts_intact sha256 original run _ earlier rest parts
    exact fun earlier attempted rest parts _ => whole earlier attempted rest parts

end Runs

/-! ## An activation that is cut off -/

/-- The SHA-256 of two one-byte binaries. -/
def sampleHash : Bytes -> Bytes
  | [1] => [0x4b, 0xf5, 0x12, 0x2f, 0x34, 0x45, 0x54, 0xc5, 0x3b, 0xde, 0x2e, 0xbb, 0x8c, 0xd2,
      0xb7, 0xe3, 0xd1, 0x60, 0x0a, 0xd6, 0x31, 0xc3, 0x85, 0xa5, 0xd7, 0xcc, 0xe2, 0x3c, 0x77, 0x85,
      0x45, 0x9a]
  | [2] => [0xdb, 0xc1, 0xb4, 0xc9, 0x00, 0xff, 0xe4, 0x8d, 0x57, 0x5b, 0x5d, 0xa5, 0xc6, 0x38,
      0x04, 0x01, 0x25, 0xf6, 0x5d, 0xb0, 0xfe, 0x3e, 0x24, 0x49, 0x4b, 0x76, 0xea, 0x98, 0x64, 0x57,
      0xd9, 0x86]
  | _ => []

def sampleRequest (content : UInt8) (sha : String) (uuid : Nat) : StageRequest where
  url := "https://node/agent".toList
  sha := sha.toList
  response := .ok ⟨"https".toList, some 1, [.ok [content]]⟩
  uuid := uuid
  markerUuid := uuid

def firstRequest : StageRequest :=
  sampleRequest 1 "4bf5122f344554c53bde2ebb8cd2b7e3d1600ad631c385a5d7cce23c7785459a" 1

def secondRequest : StageRequest :=
  sampleRequest 2 "dbc1b4c900ffe48d575b5da5c638040125f65db0fe3e24494b76ea986457d986" 2

/-- An activation that is cut off between the swap and the removal of the
marker. -/
def cutActivation : List Attempt :=
  [⟨.stage firstRequest, 100⟩, ⟨.activate 0, 12⟩]

theorem cutActivation_not_startable :
    Not (Startable (Installable sampleHash [0] cutActivation)
      (attempts sampleHash cutActivation (installed [0]))) := by
  apply notStartable_of_missingArtifact 1
  · decide
  · decide

end Runtime
end Agapornis
