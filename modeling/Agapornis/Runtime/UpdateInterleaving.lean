import Agapornis.Runtime.UpdateCrash
import Agapornis.Runtime.UpdateRules

namespace Agapornis
namespace Runtime

open Foundations Agapornis.Core

/-!
# Interleaved updates

Any number of staging calls, rollbacks and commits run beside the activations,
which the service makes one after the other before it starts.  Calls may fail.
Whatever is activated has been verified.
-/

/-! ## Rollback and commit -/

section Rollback

variable {good verified : Bytes -> Prop} {owner : UpdateOwner}

theorem does_rename {known : Marked -> Prop} {source target : UpdateFile}
    (sharedSource : source.isShared = true) (sharedTarget : target.isShared = true)
    (fits : forall named stored, MayHold good verified named source stored ->
      MayHold good verified named target stored) :
    Does good verified owner known (Fs.rename source target) (fun _ _ => True) := by
  apply does_change
  intro marked guarded _ file value left
  rcases left with atTarget | atSource
  · rcases atTarget with ⟨same, isValue⟩
    subst same isValue
    refine ⟨foreign_of_isShared sharedTarget _, ?_⟩
    exact fun stored held => fits _ stored (guarded source stored held)
  · rcases atSource with ⟨same, isValue⟩
    subst same isValue
    exact ⟨foreign_of_isShared sharedSource _, fun stored impossible => by cases impossible⟩

theorem does_readState :
    Does good verified owner (fun _ => True) (require (Fs.read .activationState))
      (fun stored marked => True /\ MayHold good verified marked.2 .activationState stored) :=
  does_require (does_read .activationState lasting_true (fun _ => Rules.stable_const _))

/-- The previous binary of a record is the kept one. -/
theorem does_parseActivationState (stored : Stored) :
    Does good verified owner
      (fun marked => True /\ MayHold good verified marked.2 .activationState stored)
      (parseActivationState stored) (fun state _ => state.previous = .previousAgent) := by
  cases stored with
  | activation state => exact fun _ _ here => here.2
  | bytes content => trivial
  | path target => trivial

theorem does_rollbackAt (stamp : Nat) :
    Does good verified owner (fun _ => True) (rollbackAt stamp) (fun _ _ => True) := by
  apply Rules.Behaves.bind (does_look rfl lasting_true)
  intro present
  cases present with
  | false => exact does_done _ _
  | true =>
      apply Rules.Behaves.bind does_readState
      intro stored
      apply Rules.Behaves.bind (does_parseActivationState stored)
      intro state
      apply Rules.Behaves.given _ (fun _ here => here)
      intro isPrevious
      rw [isPrevious]
      apply Rules.Behaves.bind (does_look rfl (Rules.stable_const _))
      intro kept
      cases kept with
      | false => trivial
      | true =>
          have setsAside : Does good verified owner (fun _ => UpdateFile.previousAgent = .previousAgent)
              (Fs.rename .executable (.failedAgent stamp)) (fun _ _ => True) :=
            does_rename rfl rfl (fun _ _ held => held)
          apply Rules.Behaves.bind (does_requireFor _ setsAside.onSuccess)
          intro _
          have restores : Does good verified owner (fun _ => True)
              (Fs.rename .previousAgent .executable) (fun _ _ => True) :=
            does_rename rfl rfl (fun _ _ held => held)
          apply Rules.Behaves.bind restores
          intro reply
          cases reply with
          | error error =>
              have returns : Does good verified owner (fun _ => True)
                  (Fs.rename (.failedAgent stamp) .executable) (fun _ _ => True) :=
                does_rename rfl rfl (fun _ _ held => held)
              exact Rules.Behaves.bind returns (fun _ => trivial)
          | ok done =>
              have forgets : Does good verified owner (fun _ => True)
                  (Fs.removeFile .activationState) (fun _ _ => True) :=
                does_remove _ (fun _ _ _ => foreign_of_isShared rfl _)
              apply Rules.Behaves.bind (does_require forgets.onSuccess)
              exact fun _ => does_done _ _

theorem does_commitHealthyAt :
    Does good verified owner (fun _ => True) commitHealthyAt (fun _ _ => True) := by
  apply Rules.Behaves.bind (does_look rfl lasting_true)
  intro present
  cases present with
  | false => exact does_done _ _
  | true =>
      apply Rules.Behaves.bind does_readState
      intro stored
      apply Rules.Behaves.bind (does_parseActivationState stored)
      intro state
      apply Rules.Behaves.given _ (fun _ here => here)
      intro isPrevious
      rw [isPrevious]
      apply Rules.Behaves.bind (does_remove _ (fun _ _ _ => foreign_of_isShared rfl _))
      intro _
      exact does_require (Does.onSuccess (does_remove _ (fun _ _ _ => foreign_of_isShared rfl _)))

end Rollback

/-! ## Activation -/

section Activation

variable {good verified : Bytes -> Prop} {owner : UpdateOwner}

theorem lasting_named (uuid : Nat) : Lasting good verified owner (fun marked => uuid ∈ marked.2) :=
  fun _ _ member others => others.1 member

theorem lasting_marker (stored : Stored) :
    Lasting good verified owner
      (fun marked => MayHold good verified marked.2 .pendingArtifact stored) := by
  intro before after holds others
  rcases holds with ⟨uuid, isPath, member⟩
  exact ⟨uuid, isPath, others.1 member⟩

/-- An artifact is its own canonical path. -/
theorem does_canonicalize {known : Marked -> Prop} (lasting : Lasting good verified owner known)
    (uuid : Nat) :
    Does good verified owner known (Fs.canonicalize (.artifact uuid))
      (OnSuccess fun target marked => known marked /\ target = .artifact uuid) := by
  apply does_ask
  · exact lasting_onSuccess (fun target => lasting.and (Rules.stable_const _))
  · exact fun _ _ _ _ _ left => absurd left id
  · intro choice marked _ here target replied
    cases choice with
    | some fault => cases replied
    | none =>
        simp only [performWithFault, performUpdate] at replied
        split at replied
        · cases replied
          exact ⟨here, rfl⟩
        · cases replied

/-- The marker leads to an artifact that it has named. -/
theorem does_pendingUpdateAt {known : Marked -> Prop} (lasting : Lasting good verified owner known) :
    Does good verified owner known pendingUpdateAt (fun found marked => known marked /\
      forall target, found = some target ->
        Exists fun uuid => target = .artifact uuid /\ uuid ∈ marked.2) := by
  have nothing : Does good verified owner known (.done none : UpdateProgram (Option UpdateFile))
      (fun found marked => known marked /\ forall target, found = some target ->
        Exists fun uuid => target = .artifact uuid /\ uuid ∈ marked.2) :=
    fun _ _ here => ⟨here, fun _ impossible => by cases impossible⟩
  apply Rules.Behaves.bind (does_look rfl lasting)
  intro present
  cases present with
  | false => exact nothing
  | true =>
      apply Rules.Behaves.bind (does_require (does_read .pendingArtifact lasting lasting_marker))
      intro stored
      cases stored with
      | activation state => trivial
      | bytes content =>
          cases content with
          | nil => exact nothing.weaken (fun _ _ here => here.1)
          | cons byte rest => trivial
      | path target =>
          apply Rules.Behaves.given (Exists fun uuid => target = .artifact uuid)
          · intro marked here
            rcases here.2 with ⟨uuid, same, _⟩
            cases same
            exact ⟨uuid, rfl⟩
          · intro isArtifact
            rcases isArtifact with ⟨uuid, same⟩
            subst same
            have keeps := lasting.and (lasting_named uuid)
            have member : forall marked : Marked, Guarded good verified marked -> known marked /\
                MayHold good verified marked.2 .pendingArtifact (.path (.artifact uuid)) ->
                known marked /\ uuid ∈ marked.2 := by
              intro marked _ here
              rcases here.2 with ⟨other, same, member⟩
              cases same
              exact ⟨here.1, member⟩
            apply Rules.Behaves.bind ((does_require (does_canonicalize keeps uuid)).weaken member)
            intro target
            apply Rules.Behaves.given _ (fun _ here => here.2)
            intro same
            subst same
            intro marked _ here
            refine ⟨here.1.1, ?_⟩
            intro other found
            cases found
            exact ⟨uuid, rfl, here.1.2⟩

theorem lasting_previousTemp (stored : Option Stored) :
    Lasting good verified .activator (fun marked => marked.1 .previousTemp = stored) := by
  intro before after held others
  exact (others.2 .previousTemp trivial).1.trans held

theorem foreign_previousTemp (named : Set Nat) : Foreign named .activator .previousTemp := by
  intro other isApart isPrivate
  cases other with
  | activator => exact isApart
  | stage uuid markerUuid => exact isPrivate
  | maintainer => exact isPrivate

/-- The copy of the executable is a good binary. -/
theorem does_copy (uuid : Nat) :
    Does good verified .activator (fun marked => uuid ∈ marked.2) (Fs.copy .executable .previousTemp)
      (OnSuccess fun _ marked => uuid ∈ marked.2 /\ Exists fun content =>
        marked.1 .previousTemp = some (.bytes content) /\ good content) := by
  have read : Does good verified .activator (fun marked => uuid ∈ marked.2) (Fs.read .executable)
      (OnSuccess fun stored marked => uuid ∈ marked.2 /\
        MayHold good verified marked.2 .executable stored) :=
    does_read .executable (lasting_named uuid) (fun _ => Rules.stable_const _)
  apply Rules.Behaves.bind read
  intro reply
  cases reply with
  | error error => exact fun _ _ _ _ impossible => by cases impossible
  | ok stored =>
      apply Rules.Behaves.given (Exists fun content => stored = .bytes content /\ good content)
        (fun _ here => (here stored rfl).2)
      intro isBinary
      rcases isBinary with ⟨content, isBytes, isGood⟩
      subst isBytes
      have created : Does good verified .activator
          (OnSuccess (fun stored marked => uuid ∈ marked.2 /\
            MayHold good verified marked.2 .executable stored) (.ok (.bytes content)))
          (Fs.create .previousTemp) (OnSuccess fun _ marked => uuid ∈ marked.2 /\
            marked.1 .previousTemp = some (.bytes [])) := by
        apply does_ask
        · exact lasting_onSuccess (fun _ => (lasting_named uuid).and (lasting_previousTemp _))
        · intro marked _ _ file value left
          rcases left with ⟨same, _⟩
          subst same
          exact ⟨foreign_previousTemp _, fun _ _ => trivial⟩
        · intro choice marked _ here done replied
          cases choice with
          | some fault => cases replied
          | none => exact ⟨(here _ rfl).1, by simp [performWithFault, performUpdate]⟩
      apply Rules.Behaves.bind created
      intro reply
      cases reply with
      | error error => exact fun _ _ _ _ impossible => by cases impossible
      | ok done =>
          apply does_ask
          · apply lasting_onSuccess
            intro _
            apply (lasting_named uuid).and
            intro before after held others
            rcases held with ⟨kept, isKept, keptGood⟩
            exact ⟨kept, (lasting_previousTemp _) before after isKept others, keptGood⟩
          · intro marked _ _ file value left
            rcases left with ⟨same, _⟩
            subst same
            exact ⟨foreign_previousTemp _, fun _ _ => trivial⟩
          · intro choice marked _ here done replied
            cases choice with
            | some fault => cases replied
            | none =>
                refine ⟨(here _ rfl).1, content, ?_, isGood⟩
                simp [performWithFault, performUpdate, (here _ rfl).2]

theorem does_keepPrevious (uuid : Nat) :
    Does good verified .activator
      (fun marked => uuid ∈ marked.2 /\ Exists fun content =>
        marked.1 .previousTemp = some (.bytes content) /\ good content)
      (Fs.rename .previousTemp .previousAgent) (fun _ marked => uuid ∈ marked.2) := by
  apply does_ask (fun _ => lasting_named uuid)
  · intro marked _ here file value left
    rcases left with atTarget | atSource
    · rcases atTarget with ⟨same, isValue⟩
      subst same isValue
      rcases here.2 with ⟨content, held, isGood⟩
      refine ⟨foreign_of_isShared rfl _, ?_⟩
      intro stored kept
      rw [held, Option.some.injEq] at kept
      exact ⟨content, kept.symm, isGood⟩
    · rcases atSource with ⟨same, isValue⟩
      subst same isValue
      exact ⟨foreign_previousTemp _, fun _ _ => trivial⟩
  · exact fun _ _ _ here => here.1

theorem does_record (uuid now : Nat) :
    Does good verified .activator (fun marked => uuid ∈ marked.2)
      (Fs.write .activationState (.activation ⟨.previousAgent, .executable, now⟩))
      (fun _ marked => uuid ∈ marked.2) := by
  have created : Does good verified .activator (fun marked => uuid ∈ marked.2)
      (Fs.create .activationState) (fun _ marked => uuid ∈ marked.2) := by
    apply does_ask (fun _ => lasting_named uuid)
    · intro marked _ _ file value left
      rcases left with ⟨same, isValue⟩
      subst same isValue
      refine ⟨foreign_of_isShared rfl _, ?_⟩
      intro stored held
      cases held
      trivial
    · exact fun _ _ _ here => here
  apply Rules.Behaves.bind created
  intro reply
  cases reply with
  | error error => exact fun _ _ here => here
  | ok done =>
      apply does_ask (fun _ => lasting_named uuid)
      · intro marked _ _ file value left
        rcases left with ⟨same, isValue⟩
        subst same
        refine ⟨foreign_of_isShared rfl _, ?_⟩
        intro stored held
        rcases isValue with whole | torn
        · cases whole.symm.trans held
          rfl
        · rcases torn with ⟨content, isTorn⟩
          cases isTorn.symm.trans held
          trivial
      · exact fun _ _ _ here => here

/-- What is swapped in has been named, so it has been verified. -/
theorem does_replaceBinary (uuid : Nat) (implies : forall content, verified content -> good content) :
    Does good verified .activator (fun marked => uuid ∈ marked.2)
      (replaceBinary (.artifact uuid) .executable) (fun _ _ => True) := by
  apply Rules.Behaves.bind (does_look rfl (lasting_named uuid))
  intro reply
  cases reply with
  | error error => exact does_done _ _
  | ok done =>
      apply does_change
      intro marked guarded member file value left
      rcases left with atTarget | atSource
      · rcases atTarget with ⟨same, isValue⟩
        subst same isValue
        refine ⟨foreign_of_isShared rfl _, ?_⟩
        intro stored held
        rcases guarded _ stored held member with ⟨content, isBytes, isVerified⟩
        exact ⟨content, isBytes, implies content isVerified⟩
      · rcases atSource with ⟨same, isValue⟩
        subst same isValue
        refine ⟨?_, fun stored impossible => by cases impossible⟩
        intro other _ isPrivate
        cases other with
        | stage owned _ => exact isPrivate.2 (isPrivate.1 ▸ member)
        | activator => exact isPrivate
        | maintainer => exact isPrivate

theorem does_activateAt (now : Nat) (implies : forall content, verified content -> good content) :
    Does good verified .activator (fun _ => True) (activateAt now) (fun _ _ => True) := by
  apply Rules.Behaves.bind (does_look rfl lasting_true)
  intro present
  cases present with
  | false =>
      apply Rules.Behaves.bind (does_look rfl lasting_true)
      intro recorded
      cases recorded with
      | false => exact does_done _ _
      | true => exact does_rollbackAt now
  | true =>
      apply Rules.Behaves.bind (does_pendingUpdateAt lasting_true)
      intro found
      cases found with
      | none => trivial
      | some pending =>
          apply Rules.Behaves.given (Exists fun uuid => pending = .artifact uuid)
          · intro marked here
            rcases here.2 pending rfl with ⟨uuid, same, _⟩
            exact ⟨uuid, same⟩
          intro isArtifact
          rcases isArtifact with ⟨uuid, same⟩
          subst same
          have member : forall marked : Marked, Guarded good verified marked ->
              (True /\ forall target, some (UpdateFile.artifact uuid) = some target ->
                Exists fun other => target = .artifact other /\ other ∈ marked.2) ->
              uuid ∈ marked.2 := by
            intro marked _ here
            rcases here.2 _ rfl with ⟨other, same, member⟩
            cases same
            exact member
          apply Rules.Behaves.bind ((does_requireFor _ (does_copy uuid)).weaken member)
          intro _
          apply Rules.Behaves.bind (does_requireFor _ (does_keepPrevious uuid).onSuccess)
          intro _
          apply Rules.Behaves.bind (does_require (does_record uuid now).onSuccess)
          intro _
          apply Rules.Behaves.bind (does_requireFor _ (does_replaceBinary uuid implies).onSuccess)
          intro _
          have unmarks : Does good verified .activator (fun _ => True)
              (Fs.removeFile .pendingArtifact) (fun _ _ => True) :=
            does_remove _ (fun _ _ _ => foreign_of_isShared rfl _)
          apply Rules.Behaves.bind (does_require unmarks.onSuccess)
          exact fun _ => does_done _ _

end Activation

/-! ## Staging -/

section Staging

variable {good verified : Bytes -> Prop} {uuid markerUuid : Nat}

/-- The artifact of a staging call, which no marker has named yet. -/
def HoldsArtifact (uuid : Nat) (content : Bytes) (marked : Marked) : Prop :=
  uuid ∉ marked.2 /\ marked.1 (.artifact uuid) = some (.bytes content)

theorem lasting_unnamed :
    Lasting good verified (.stage uuid markerUuid) (fun marked => uuid ∉ marked.2) := by
  intro before after unnamed others
  exact (others.2 (.artifact uuid) ⟨rfl, unnamed⟩).2.2

theorem lasting_holdsArtifact (content : Bytes) :
    Lasting good verified (.stage uuid markerUuid) (HoldsArtifact uuid content) := by
  intro before after held others
  have kept := others.2 (.artifact uuid) ⟨rfl, held.1⟩
  exact ⟨kept.2.2, kept.1.trans held.2⟩

theorem lasting_markerTemp (stored : Option Stored) :
    Lasting good verified (.stage uuid markerUuid)
      (fun marked => marked.1 (.markerTemp markerUuid) = stored) := by
  intro before after held others
  exact (others.2 (.markerTemp markerUuid) rfl).1.trans held

theorem foreign_ownArtifact (named : Set Nat) :
    Foreign named (.stage uuid markerUuid) (.artifact uuid) := by
  intro other isApart isPrivate
  cases other with
  | stage otherUuid otherMarkerUuid => exact isApart.1 isPrivate.1.symm
  | activator => exact isPrivate
  | maintainer => exact isPrivate

theorem foreign_ownMarkerTemp (named : Set Nat) :
    Foreign named (.stage uuid markerUuid) (.markerTemp markerUuid) := by
  intro other isApart isPrivate
  cases other with
  | stage otherUuid otherMarkerUuid => exact isApart.2 isPrivate.symm
  | activator => exact isPrivate
  | maintainer => exact isPrivate

/-- Before it is named, an artifact may hold anything. -/
theorem mayHold_unnamed {named : Set Nat} (unnamed : uuid ∉ named) (stored : Stored) :
    MayHold good verified named (.artifact uuid) stored :=
  fun member => absurd member unnamed

theorem does_prepareStaging :
    Does good verified (.stage uuid markerUuid) (fun marked => uuid ∉ marked.2) prepareStaging
      (fun _ marked => uuid ∉ marked.2) := by
  have looks : forall request : UpdateCall, request.looks = true ->
      Does good verified (.stage uuid markerUuid) (fun marked => uuid ∉ marked.2)
        (Program.ask request) (fun _ marked => uuid ∉ marked.2) :=
    fun request isLook => does_look isLook lasting_unnamed
  apply Rules.Behaves.bind (does_require (looks .createDirAll rfl).onSuccess)
  intro _
  apply Rules.Behaves.bind (does_require (looks .setDirPermissions rfl).onSuccess)
  intro _
  apply Rules.Behaves.bind (does_pendingUpdateAt lasting_unnamed)
  intro found
  cases found with
  | some pending => trivial
  | none =>
      apply Rules.Behaves.bind ((looks (.probe .pendingArtifact) rfl).weaken (fun _ _ here => here.1))
      intro present
      cases present with
      | false => exact fun _ _ here => here
      | true =>
          have unmarks : Does good verified (.stage uuid markerUuid) (fun marked => uuid ∉ marked.2)
              (Fs.removeFile .pendingArtifact) (fun _ marked => uuid ∉ marked.2) := by
            apply does_ask (fun _ => lasting_unnamed)
            · intro marked _ _ file value left
              rcases left with ⟨same, isValue⟩
              subst same isValue
              exact ⟨foreign_of_isShared rfl _, fun _ impossible => by cases impossible⟩
            · exact fun _ _ _ here => here
          exact does_requireFor _ unmarks.onSuccess

theorem does_receive (received : Bytes) (chunks : List (Except Failure Bytes)) :
    Does good verified (.stage uuid markerUuid) (HoldsArtifact uuid received)
      (receive uuid received chunks) (fun content marked => HoldsArtifact uuid content marked /\
        Exists fun pieces : List Bytes => chunks = pieces.map .ok /\
          content = received ++ pieces.flatten) := by
  induction chunks generalizing received with
  | nil => exact fun _ _ here => ⟨here, [], rfl, by simp⟩
  | cons chunk chunks ih =>
      cases chunk with
      | error failure => trivial
      | ok chunk =>
          rw [receive]
          split
          · apply Rules.Behaves.bind (does_remove _ (fun _ _ _ => foreign_ownArtifact _))
            exact fun _ => trivial
          · have appended : Does good verified (.stage uuid markerUuid) (HoldsArtifact uuid received)
                (Fs.append (.artifact uuid) chunk)
                (OnSuccess fun _ => HoldsArtifact uuid (received ++ chunk)) := by
              apply does_ask
              · exact lasting_onSuccess (fun _ => lasting_holdsArtifact _)
              · intro marked _ here file value left
                rcases left with ⟨same, _⟩
                subst same
                exact ⟨foreign_ownArtifact _, fun stored _ => mayHold_unnamed here.1 stored⟩
              · intro choice marked _ here done replied
                cases choice with
                | some fault => cases replied
                | none => exact ⟨here.1, by simp [performWithFault, performUpdate, here.2]⟩
            apply Rules.Behaves.bind (does_require appended)
            intro _
            apply Rules.Behaves.conclude (ih (received ++ chunk))
            intro content marked concluded
            rcases concluded with ⟨here, pieces, isRest, isContent⟩
            refine ⟨here, chunk :: pieces, by rw [isRest]; rfl, ?_⟩
            rw [isContent, List.flatten_cons, List.append_assoc]

def nameArtifact (store : UpdateStore) (uuid markerUuid : Nat) : UpdateStore :=
  Function.update (Function.update store .pendingArtifact (some (.path (.artifact uuid))))
    (.markerTemp markerUuid) none

theorem noteMarker_nameArtifact (store : UpdateStore) (named : Set Nat) (uuid markerUuid : Nat) :
    noteMarker (nameArtifact store uuid markerUuid) named = insert uuid named := by
  ext other
  simp [noteMarker, nameArtifact, Set.mem_insert_iff, or_comm, eq_comm]

theorem guarded_nameArtifact {marked : Marked} (guarded : Guarded good verified marked)
    {content : Bytes} (held : marked.1 (.artifact uuid) = some (.bytes content))
    (isVerified : verified content) :
    Guarded good verified (nameArtifact marked.1 uuid markerUuid, insert uuid marked.2) := by
  intro file stored holds
  by_cases isTemp : file = .markerTemp markerUuid
  · subst isTemp
    trivial
  change nameArtifact marked.1 uuid markerUuid file = some stored at holds
  rw [nameArtifact, Function.update_of_ne isTemp] at holds
  by_cases isMarker : file = .pendingArtifact
  · subst isMarker
    rw [Function.update_self, Option.some.injEq] at holds
    exact ⟨uuid, holds.symm, Set.mem_insert _ _⟩
  rw [Function.update_of_ne isMarker] at holds
  cases file with
  | artifact other =>
      intro member
      rcases Set.mem_insert_iff.mp member with same | already
      · subst same
        rw [held, Option.some.injEq] at holds
        exact ⟨content, holds.symm, isVerified⟩
      · exact guarded _ stored holds already
  | pendingArtifact => exact absurd rfl isMarker
  | _ => exact guarded _ stored holds

theorem rely_nameArtifact {marked : Marked} {other : UpdateOwner}
    (isApart : Apart other (.stage uuid markerUuid)) :
    (updateRules good verified).rely other marked
      (nameArtifact marked.1 uuid markerUuid, insert uuid marked.2) := by
  refine ⟨Set.subset_insert _ _, ?_⟩
  intro file isPrivate
  have kept : file ≠ .markerTemp markerUuid -> file ≠ .pendingArtifact ->
      nameArtifact marked.1 uuid markerUuid file = marked.1 file := by
    intro notTemp notMarker
    rw [nameArtifact, Function.update_of_ne notTemp, Function.update_of_ne notMarker]
  cases other with
  | maintainer => exact absurd isPrivate id
  | activator =>
      cases file with
      | previousTemp => exact ⟨kept (by simp) (by simp), trivial⟩
      | _ => exact absurd isPrivate id
  | stage otherUuid otherMarkerUuid =>
      cases file with
      | artifact owned =>
          refine ⟨kept (by simp) (by simp), isPrivate.1, ?_⟩
          intro member
          rcases Set.mem_insert_iff.mp member with same | already
          · exact isApart.1 same
          · exact isPrivate.2 already
      | markerTemp owned =>
          refine ⟨kept ?_ (by simp), isPrivate⟩
          intro same
          cases same
          exact isApart.2 isPrivate.symm
      | _ => exact absurd isPrivate id

/-- The marker is put in place by one call, and what it names has been
verified. -/
theorem does_nameArtifact {content : Bytes} (isVerified : verified content) :
    Does good verified (.stage uuid markerUuid)
      (fun marked => HoldsArtifact uuid content marked /\
        marked.1 (.markerTemp markerUuid) = some (.path (.artifact uuid)))
      (Fs.rename (.markerTemp markerUuid) .pendingArtifact) (fun _ _ => True) := by
  apply Rules.behaves_ask (fun _ => lasting_true)
  intro choice marked guarded here
  refine ⟨?_, trivial⟩
  cases choice with
  | some fault =>
      have unchanged : (performMarked (some fault)
          (.rename (.markerTemp markerUuid) .pendingArtifact) marked).2 = marked :=
        Prod.ext rfl (noteMarker_eq guarded)
      rw [unchanged]
      exact ⟨guarded, fun other _ => (updateRules good verified).rely_refl other marked⟩
  | none =>
      have named : (performMarked none (.rename (.markerTemp markerUuid) .pendingArtifact) marked).2 =
          (nameArtifact marked.1 uuid markerUuid, insert uuid marked.2) := by
        rw [<- noteMarker_nameArtifact marked.1 marked.2 uuid markerUuid]
        simp [withHistory, performWithFault, performUpdate, here.2, nameArtifact]
      rw [named]
      exact ⟨guarded_nameArtifact guarded here.1.2 isVerified, fun other => rely_nameArtifact⟩

theorem does_commitMarker (request : StageRequest) {content : Bytes} (isVerified : verified content) :
    Does good verified (.stage request.uuid request.markerUuid) (HoldsArtifact request.uuid content)
      (commitMarker request) (fun _ _ => True) := by
  have keeps : forall stored, Lasting good verified (.stage request.uuid request.markerUuid)
      (fun marked => HoldsArtifact request.uuid content marked /\
        marked.1 (.markerTemp request.markerUuid) = some stored) :=
    fun stored => (lasting_holdsArtifact content).and (lasting_markerTemp _)
  have created : Does good verified (.stage request.uuid request.markerUuid)
      (HoldsArtifact request.uuid content) (Fs.createNew (.markerTemp request.markerUuid))
      (OnSuccess fun _ marked => HoldsArtifact request.uuid content marked /\
        marked.1 (.markerTemp request.markerUuid) = some (.bytes [])) := by
    apply does_createNew _ (keeps _)
    · exact fun marked value here => ⟨here.1, by simpa using here.2⟩
    · exact fun marked _ => ⟨foreign_ownMarkerTemp _, fun _ => trivial⟩
  have written : Does good verified (.stage request.uuid request.markerUuid)
      (fun marked => HoldsArtifact request.uuid content marked /\
        marked.1 (.markerTemp request.markerUuid) = some (.bytes []))
      (Fs.writeAll (.markerTemp request.markerUuid) (.path (.artifact request.uuid)))
      (OnSuccess fun _ marked => HoldsArtifact request.uuid content marked /\
        marked.1 (.markerTemp request.markerUuid) = some (.path (.artifact request.uuid))) := by
    apply does_ask
    · exact lasting_onSuccess (fun _ => keeps _)
    · intro marked _ _ file value left
      rcases left with ⟨same, _⟩
      subst same
      exact ⟨foreign_ownMarkerTemp _, fun _ _ => trivial⟩
    · intro choice marked _ here done replied
      cases choice with
      | some fault => cases replied
      | none =>
          refine ⟨⟨here.1.1, ?_⟩, ?_⟩
          · simpa [performWithFault, performUpdate, here.2] using here.1.2
          · simp [performWithFault, performUpdate, here.2]
  apply Rules.Behaves.bind (does_require created)
  intro _
  apply Rules.Behaves.bind (does_require written)
  intro _
  apply Rules.Behaves.bind (does_require (does_look rfl (keeps _)).onSuccess)
  intro _
  apply Rules.Behaves.bind (does_nameArtifact isVerified)
  intro reply
  cases reply with
  | ok done => exact does_done _ _
  | error error =>
      apply Rules.Behaves.bind (does_remove _ (fun _ _ _ => foreign_ownMarkerTemp _))
      intro _
      apply Rules.Behaves.bind (does_remove _ (fun _ _ _ => foreign_ownArtifact _))
      exact fun _ => trivial

theorem does_stageArtifact (sha256 : Bytes -> Bytes) (request : StageRequest) (expected : Bytes)
    (chunks : List (Except Failure Bytes))
    (verifies : forall pieces : List Bytes, chunks = pieces.map .ok ->
      sha256 pieces.flatten = expected -> verified pieces.flatten) :
    Does good verified (.stage request.uuid request.markerUuid) (fun marked => request.uuid ∉ marked.2)
      (stageArtifact sha256 request expected chunks) (fun _ _ => True) := by
  have created : Does good verified (.stage request.uuid request.markerUuid)
      (fun marked => request.uuid ∉ marked.2) (Fs.createNew (.artifact request.uuid))
      (OnSuccess fun _ => HoldsArtifact request.uuid []) := by
    apply does_createNew _ (lasting_holdsArtifact [])
    · exact fun marked value here => here
    · exact fun marked here => ⟨foreign_ownArtifact _, mayHold_unnamed here⟩
  apply Rules.Behaves.bind (does_require created)
  intro _
  apply Rules.Behaves.bind (does_receive [] chunks)
  intro content
  apply Rules.Behaves.given _ (fun _ here => here.2)
  intro isReceived
  rcases isReceived with ⟨pieces, isChunks, isContent⟩
  rw [List.nil_append] at isContent
  have holds : Lasting good verified (.stage request.uuid request.markerUuid)
      (HoldsArtifact request.uuid content) := lasting_holdsArtifact content
  have discards : forall message, Does good verified (.stage request.uuid request.markerUuid)
      (HoldsArtifact request.uuid content) (do
        let _ ← Fs.removeFile (.artifact request.uuid)
        .failed (.bail message) : UpdateProgram UpdateResult) (fun _ _ => True) := by
    intro message
    apply Rules.Behaves.bind (does_remove _ (fun _ _ _ => foreign_ownArtifact _))
    exact fun _ => trivial
  split
  · exact (discards _).weaken (fun _ _ here => here.1)
  · apply Rules.Behaves.bind ((does_require (does_look rfl holds).onSuccess).weaken
      (fun _ _ here => here.1))
    intro _
    split
    · next matching =>
        apply Rules.Behaves.bind (does_require (does_look rfl holds).onSuccess)
        intro _
        apply does_commitMarker
        rw [isContent]
        exact verifies pieces isChunks (isContent ▸ matching)
    · exact discards _

/-- A staging call of its own artifact and marker file. -/
theorem does_stage (sha256 : Bytes -> Bytes) (request : StageRequest)
    (verifies : forall content, request.Verifies sha256 content -> verified content) :
    Does good verified (.stage request.uuid request.markerUuid) (fun marked => request.uuid ∉ marked.2)
      (stage sha256 request) (fun _ _ => True) := by
  rw [stage]
  split
  · trivial
  · next expected chunks checked =>
      apply Rules.Behaves.bind does_prepareStaging
      intro _
      apply does_stageArtifact
      intro pieces isChunks matching
      apply verifies
      exact ⟨pieces, rfl, by rw [checked, isChunks, matching]⟩

end Staging

/-! ## Every interleaving -/

section Interleavings

variable (sha256 : Bytes -> Bytes)

/-- An activation may begin whenever there is none under way or the last one
has been cut off, and a maintainer's rollback or commit at any time. -/
def Begins : UpdateOwner -> UpdateProgram Unit -> Prop
  | .activator, program => Exists fun now =>
      program = (UpdateOperation.activate now).program sha256
  | .maintainer, program => program = UpdateOperation.commit.program sha256 \/
      Exists fun stamp => program = (UpdateOperation.rollback stamp).program sha256
  | .stage _ _, _ => False

abbrev UpdateTask := Task UpdateOwner UpdateCall UpdateCall.Reply Failure

def stageTask (request : StageRequest) : UpdateTask :=
  (.stage request.uuid request.markerUuid, (UpdateOperation.stage request).program sha256)

/-- The service with its staging calls and maintainers, before any call. -/
def updateTasks (requests : List StageRequest) (maintainers : Nat) : List UpdateTask :=
  (.activator, .done ()) :: (List.replicate maintainers (.maintainer, .done ()) ++
    requests.map (stageTask sha256))

abbrev UpdatesInterleaved (original : Bytes) (requests : List StageRequest) (maintainers : Nat) :
    List UpdateTask -> UpdateStore -> Prop :=
  Interleaved performWithFault (Begins sha256) (updateTasks sha256 requests maintainers)
    (installed original)

/-- The bytes of an artifact that one of the requests asked for by their
checksum. -/
def VerifiedFor (requests : List StageRequest) (content : Bytes) : Prop :=
  Exists fun request => request ∈ requests /\ request.Verifies sha256 content

variable {sha256}

theorem updateTasks_apart {requests : List StageRequest} (maintainers : Nat)
    (distinct : (requests.map StageRequest.uuid).Nodup)
    (distinctMarkers : (requests.map StageRequest.markerUuid).Nodup) :
    ((updateTasks sha256 requests maintainers).map Prod.fst).Pairwise Apart := by
  have staging : ((requests.map (stageTask sha256)).map Prod.fst).Pairwise Apart := by
    rw [List.map_map, List.pairwise_map]
    rw [List.Nodup, List.pairwise_map] at distinct distinctMarkers
    exact (distinct.and distinctMarkers).imp (fun both => both)
  have idle : forall owner, owner ∈ (List.replicate maintainers
      ((.maintainer, .done ()) : UpdateTask)).map Prod.fst -> owner = .maintainer := by
    intro owner member
    rw [List.map_replicate] at member
    exact List.eq_of_mem_replicate member
  rw [updateTasks, List.map_cons, List.map_append, List.pairwise_cons, List.pairwise_append]
  refine ⟨?_, ?_, staging, ?_⟩
  · intro owner member
    rcases List.mem_append.mp member with isIdle | isStaging
    · rw [idle owner isIdle]
      trivial
    · rcases List.mem_map.mp isStaging with ⟨task, inTasks, same⟩
      rcases List.mem_map.mp inTasks with ⟨request, _, isTask⟩
      subst isTask same
      trivial
  · rw [List.map_replicate, List.pairwise_replicate]
    exact Or.inr trivial
  · intro owner isIdle other _
    rw [idle owner isIdle]
    cases other <;> trivial

theorem begins_does {good verified : Bytes -> Prop}
    (implies : forall content, verified content -> good content)
    {owner : UpdateOwner} {program : UpdateProgram Unit} (begins : Begins sha256 owner program) :
    Does good verified owner (fun _ => True) program (fun _ _ => True) := by
  cases owner with
  | stage uuid markerUuid => exact absurd begins id
  | activator =>
      rcases begins with ⟨now, same⟩
      subst same
      exact Rules.Behaves.bind (does_activateAt now implies) (fun _ => does_done _ _)
  | maintainer =>
      rcases begins with isCommit | isRollback
      · subst isCommit
        exact does_commitHealthyAt
      · rcases isRollback with ⟨stamp, same⟩
        subst same
        exact Rules.Behaves.bind (does_rollbackAt stamp) (fun _ => does_done _ _)

theorem installed_guarded {good verified : Bytes -> Prop} {original : Bytes} (isGood : good original)
    (named : Set Nat) : Guarded good verified (installed original, named) := by
  intro file stored held
  cases file with
  | executable =>
      cases held
      exact ⟨original, rfl, isGood⟩
  | _ => cases held

/-- Before any call, every task behaves. -/
theorem updateTasks_hold {good verified : Bytes -> Prop} {requests : List StageRequest}
    (verifies : forall content, VerifiedFor sha256 requests content -> verified content)
    (maintainers : Nat) (store : UpdateStore) (task : UpdateTask)
    (member : task ∈ updateTasks sha256 requests maintainers) :
    (updateRules good verified).Holds performMarked (store, ∅) task := by
  have idle : forall owner, (updateRules good verified).Holds performMarked (store, ∅)
      ((owner, .done ()) : UpdateTask) :=
    fun owner => ⟨fun _ => True, lasting_true, trivial, does_done _ _⟩
  rcases List.mem_cons.mp member with isActivator | others
  · subst isActivator
    exact idle _
  · rcases List.mem_append.mp others with isIdle | isStaging
    · rw [List.eq_of_mem_replicate isIdle]
      exact idle _
    · rcases List.mem_map.mp isStaging with ⟨request, inRequests, same⟩
      subst same
      refine ⟨fun marked => request.uuid ∉ marked.2, lasting_unnamed, Set.notMem_empty _, ?_⟩
      have staged : Does good verified (.stage request.uuid request.markerUuid)
          (fun marked => request.uuid ∉ marked.2) (stage sha256 request) (fun _ _ => True) :=
        does_stage sha256 request
          (fun content verifiedHere => verifies content ⟨request, inRequests, verifiedHere⟩)
      exact Rules.Behaves.bind staged (fun _ => does_done _ _)

/-- Whatever order the calls come in and whichever of them fail, only the
original and verified artifacts are ever executable, and what the marker names
is verified as long as it exists. -/
theorem updates_onlyVerified (sha256 : Bytes -> Bytes) (original : Bytes) (requests : List StageRequest)
    (maintainers : Nat) (distinct : (requests.map StageRequest.uuid).Nodup)
    (distinctMarkers : (requests.map StageRequest.markerUuid).Nodup)
    {tasks : List UpdateTask} {reached : UpdateStore}
    (interleaved : UpdatesInterleaved sha256 original requests maintainers tasks reached) :
    (forall stored, reached .executable = some stored -> Exists fun content =>
        stored = .bytes content /\ (content = original \/ VerifiedFor sha256 requests content)) /\
      forall stored, reached .pendingArtifact = some stored -> Exists fun uuid =>
        stored = .path (.artifact uuid) /\ forall artifact, reached (.artifact uuid) = some artifact ->
          Exists fun content => artifact = .bytes content /\ VerifiedFor sha256 requests content := by
  rcases interleaved.withHistory noteMarker ∅ with ⟨named, noted⟩
  have symmetric : forall first second, Apart first second -> Apart second first := by
    intro first second apart
    cases first <;> cases second <;>
      first | exact apart | exact ⟨apart.1.symm, apart.2.symm⟩
  have guarded : (updateRules (fun content => content = original \/ VerifiedFor sha256 requests content)
      (VerifiedFor sha256 requests)).invariant (reached, named) :=
    Rules.interleaved_invariant symmetric (updateTasks_apart maintainers distinct distinctMarkers)
      (fun _ _ => begins_does (fun _ => Or.inr)) (installed_guarded (Or.inl rfl) ∅)
      (updateTasks_hold (fun _ => id) maintainers _) noted
  constructor
  · exact fun stored held => guarded .executable stored held
  · intro stored held
    rcases guarded .pendingArtifact stored held with ⟨uuid, isPath, member⟩
    exact ⟨uuid, isPath, fun artifact present => guarded _ artifact present member⟩

end Interleavings

/-- The store after one staging call and one activation. -/
def stagedAndActivated : UpdateStore :=
  (((UpdateOperation.activate 0).program sampleHash).run performUpdate
    (((UpdateOperation.stage firstRequest).program sampleHash).run performUpdate (installed [0])).2).2

theorem stagedAndActivated_reached : Exists fun tasks =>
    UpdatesInterleaved sampleHash [0] [firstRequest] 0 tasks stagedAndActivated := by
  have started : UpdatesInterleaved sampleHash [0] [firstRequest] 0
      ([(.activator, .done ())] ++ stageTask sampleHash firstRequest :: []) (installed [0]) := .start
  rcases Interleaved.alone none _ _ _ _ started with ⟨ended, staged⟩
  have begun := Interleaved.begin [] _ UpdateOwner.activator _ _ _
    (⟨0, rfl⟩ : Begins sampleHash .activator _) staged
  rcases Interleaved.alone none _ _ _ _ begun with ⟨_, activated⟩
  exact ⟨_, activated⟩

theorem updates_onlyVerified_stagedAndActivated :
    stagedAndActivated .executable = some (.bytes [1]) /\
      Exists fun content => Stored.bytes [1] = .bytes content /\
        (content = [0] \/ VerifiedFor sampleHash [firstRequest] content) := by
  rcases stagedAndActivated_reached with ⟨tasks, reached⟩
  have held : stagedAndActivated .executable = some (.bytes [1]) := by decide
  exact ⟨held, (updates_onlyVerified sampleHash [0] [firstRequest] 0 (by decide) (by decide)
    reached).1 _ held⟩

end Runtime
end Agapornis
