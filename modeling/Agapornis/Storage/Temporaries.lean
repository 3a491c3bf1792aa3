import Agapornis.Foundations.TemporaryObjects
import Agapornis.Storage.Backups

namespace Agapornis
namespace Storage

open Foundations Agapornis.Core Deletion Temporaries

/-!
# Temporary data of backups

A restore, a check and a backup into the bucket each make temporary files or
directories and remove them at their end.  A call that fails ends the operation
where it stands.
-/

/-- The temporary files and directories. -/
inductive TempObject where
  /-- An archive as it is in the bucket. -/
  | stored
  /-- An archive that was fetched, as it is to be read. -/
  | fetched
  | testDirectory
  /-- The archive of a backup that is made for the bucket. -/
  | plain
  | encrypted
  deriving DecidableEq, Repr

/-- The calls, in the order of the operations they are made in. -/
inductive TempStep where
  | permit
  | find
  | storedDir
  | getObject
  | createStored
  | copy
  | openStored
  | createFetched
  | decryptChunks
  | removeStored
  | rename
  | integrity
  | validateArchive
  | restore
  | testParent
  | makeTest
  | extract
  | removeTest
  | putMetadata
  | writeMetadata
  | removeFetched
  | parameters
  | tempDir
  | tarCreate
  | archiveSize
  | checksum
  | openPlain
  | createEncrypted
  | encryptChunks
  | upload
  | removeUpload
  | removePlain
  | list
  | deleteOld
  | findAgain
  deriving DecidableEq, Repr

abbrev JobProgram := TempProgram TempStep TempObject Failure Failure

abbrev JobOutcomes := Outcomes TempStep Failure

def needed (name : TempStep) : JobProgram Unit :=
  need id (.step name)

section Backups

/-- Receive an archive and make it readable. -/
def fetchArchive (encrypted : Bool) : JobProgram Unit := do
  needed .copy
  if encrypted then do
    needed .openStored
    need id (.make .fetched .createFetched)
    needed .decryptChunks
    attempt (.discard .stored .removeStored)
  else need id (.move .stored .fetched .rename)

/-- Make the archive of a backup available; whether that is temporary is returned.
The metadata that is found tells whether the archive is encrypted. -/
def prepareArchive (encrypted : Bool) (storage : Text) : JobProgram Bool := do
  Program.ofExcept (validateStorage storage)
  needed .find
  if storage = "local".toList then Program.done false
  else do
    needed .storedDir
    needed .getObject
    need id (.make .stored .createStored)
    fetchArchive encrypted
    Program.done true

def discardFetched (temporary : Bool) : JobProgram Unit :=
  if temporary then attempt (.discard .fetched .removeFetched) else Program.done ()

def restoreBackup (encrypted : Bool) (storage : Text) : JobProgram Unit := do
  needed .permit
  let temporary <- prepareArchive encrypted storage
  needed .integrity
  needed .validateArchive
  needed .restore
  discardFetched temporary

/-- Unpack an archive into a directory made for that. -/
def testArchive : JobProgram Unit := do
  needed .integrity
  needed .validateArchive
  needed .testParent
  need id (.make .testDirectory .makeTest)
  needed .extract
  attempt (.discard .testDirectory .removeTest)

def verifyArchive (encrypted : Bool) (storage : Text) : JobProgram Unit := do
  let temporary <- prepareArchive encrypted storage
  testArchive
  needed (if storage = "s3".toList then .putMetadata else .writeMetadata)
  discardFetched temporary

def verifyBackup (encrypted : Bool) (storage : Text) : JobProgram Unit := do
  needed .permit
  verifyArchive encrypted storage

/-- The file that is uploaded. -/
def uploaded (encrypt : Bool) : TempObject :=
  if encrypt then .encrypted else .plain

/-- Make the file that is uploaded. -/
def encryptArchive (encrypt : Bool) : JobProgram Unit :=
  if encrypt then do
    needed .openPlain
    need id (.make .encrypted .createEncrypted)
    needed .encryptChunks
  else Program.done ()

def applyRetention (retention : Int) : JobProgram Unit :=
  if 0 < retention then do
    needed .list
    needed .deleteOld
  else Program.done ()

/-- Make a backup in the bucket.  What the bucket says of it is read when it is checked. -/
def createBackup (encrypt encrypted : Bool) (retention : Int) : JobProgram Unit := do
  needed .permit
  needed .parameters
  needed .tempDir
  need id (.produce .plain .tarCreate)
  needed .archiveSize
  needed .checksum
  encryptArchive encrypt
  needed .upload
  verifyArchive encrypted "s3".toList
  attempt (.discard (uploaded encrypt) .removeUpload)
  attempt (.discard .plain .removePlain)
  applyRetention retention
  needed .findAgain

end Backups

/-! ## What is left by a preparation -/

section Rules

variable {outcomes : JobOutcomes} {objects : List TempObject}

theorem endsIn_needed {name : TempStep} {post : Unit -> List TempObject -> Prop} :
    EndsIn outcomes (needed name) post objects <->
      outcomes.fault name = none /\ post () objects \/ Not (outcomes.fault name = none) /\ objects = [] :=
  endsIn_need

theorem endsIn_needed_held {name : TempStep} {post : Unit -> List TempObject -> Prop} (held : Not (objects = [])) :
    EndsIn outcomes (needed name) post objects <-> outcomes.fault name = none /\ post () objects :=
  endsIn_need_held held

theorem endsIn_needed_nil {name : TempStep} {post : Unit -> List TempObject -> Prop} :
    EndsIn outcomes (needed name) post [] <-> (outcomes.fault name = none -> post () []) := by
  rw [endsIn_needed, and_iff_left rfl, or_comm, ← imp_iff_not_or]
  exact ⟨fun ended passes => (ended passes).2, fun ended passes => ⟨passes, ended passes⟩⟩

theorem retains_needed {object : TempObject} (name : TempStep) : (needed name).Only (Retains object) :=
  only_need trivial

theorem retains_discardFetched {object : TempObject} (different : Not (TempObject.fetched = object))
    (temporary : Bool) :
    (discardFetched temporary).Only (Retains object) := by
  cases temporary with
  | true => exact only_attempt different
  | false => trivial

theorem retains_testArchive {object : TempObject} (different : Not (TempObject.testDirectory = object)) :
    testArchive.Only (Retains object) :=
  Program.only_bind (retains_needed .integrity) fun _ => Program.only_bind (retains_needed .validateArchive)
    fun _ => Program.only_bind (retains_needed .testParent) fun _ => Program.only_bind (only_need trivial)
      fun _ => Program.only_bind (retains_needed .extract) fun _ => only_attempt different

end Rules

/-- The calls of a fetch before anything is stored. -/
def firstSteps : List TempStep :=
  [.find, .storedDir, .getObject, .createStored]

/-- The calls after the fetch. -/
def fetchSteps (encrypted : Bool) : List TempStep :=
  .copy :: if encrypted then [.openStored, .createFetched, .decryptChunks, .removeStored] else [.rename]

section Prepare

variable {outcomes : JobOutcomes} {encrypted : Bool} {objects : List TempObject}

theorem fetchArchive_ends {post : Unit -> List TempObject -> Prop}
    (demanded : forall after, TempObject.stored ∈ after -> Not (post () after)) (fresh : TempObject.stored ∉ objects) :
    EndsIn outcomes (fetchArchive encrypted) post (.stored :: objects) <->
      Passes outcomes (fetchSteps encrypted) /\ post () (.fetched :: objects) := by
  have held : Not (TempObject.stored :: objects = []) := List.cons_ne_nil _ _
  unfold fetchArchive fetchSteps
  rw [endsIn_bind, endsIn_needed_held held, passes_cons, and_assoc]
  refine and_congr_right' ?_
  cases encrypted with
  | true =>
      have heldBoth : Not (TempObject.fetched :: .stored :: objects = []) := List.cons_ne_nil _ _
      have gone : without (TempObject.fetched :: .stored :: objects) .stored = .fetched :: objects := by
        rw [without_other (by decide), without_self fresh]
      rw [if_pos rfl, if_pos rfl, endsIn_bind, endsIn_needed_held held, endsIn_bind, endsIn_need_held held]
      dsimp only [TempCall.name, TempCall.effect]
      rw [endsIn_bind, endsIn_needed_held heldBoth,
        endsIn_discard (List.mem_cons_of_mem _ List.mem_cons_self) demanded, gone]
      simp only [passes_cons, passes_nil, true_and, and_assoc]
  | false =>
      have gone : without (TempObject.stored :: objects) .stored = objects := without_self fresh
      rw [if_neg Bool.false_ne_true, if_neg Bool.false_ne_true, endsIn_need_held held]
      dsimp only [TempCall.name, TempCall.effect]
      rw [gone, passes_cons, and_iff_left passes_nil]

theorem prepareArchive_remote {post : Bool -> List TempObject -> Prop}
    (demanded : forall after, TempObject.stored ∈ after -> Not (post true after))
    (fresh : TempObject.stored ∉ objects) :
    EndsIn outcomes (prepareArchive encrypted "s3".toList) post objects <->
      Fails outcomes firstSteps /\ objects = [] \/
        Passes outcomes firstSteps /\ Passes outcomes (fetchSteps encrypted) /\ post true (.fetched :: objects) := by
  have valid : validateStorage "s3".toList = .ok () := rfl
  unfold prepareArchive firstSteps
  rw [endsIn_bind, valid, endsIn_ofExcept]
  dsimp only
  rw [endsIn_bind, endsIn_needed, if_neg (by decide), endsIn_bind, endsIn_needed, endsIn_bind, endsIn_needed,
    endsIn_bind, endsIn_need, endsIn_bind]
  dsimp only [TempCall.name, TempCall.effect, TempCall.remains]
  rw [@fetchArchive_ends _ _ _ (fun _ after => EndsIn outcomes (Program.done true : JobProgram Bool) post after)
    demanded fresh, endsIn_done, ← first_failure_cons, ← first_failure_cons, ← first_failure_cons,
    ← first_failure_cons, first_failure_nil]

theorem prepareArchive_local {post : Bool -> List TempObject -> Prop} :
    EndsIn outcomes (prepareArchive encrypted "local".toList) post objects <->
      outcomes.fault .find = none /\ post false objects \/ Not (outcomes.fault .find = none) /\ objects = [] := by
  have valid : validateStorage "local".toList = .ok () := rfl
  unfold prepareArchive
  rw [endsIn_bind, valid, endsIn_ofExcept]
  dsimp only
  rw [endsIn_bind, endsIn_needed, if_pos rfl, endsIn_done]

theorem prepareArchive_other {storage : Text} {post : Bool -> List TempObject -> Prop}
    (notLocal : Not (storage = "local".toList)) (notRemote : Not (storage = "s3".toList)) :
    EndsIn outcomes (prepareArchive encrypted storage) post objects <-> objects = [] := by
  have refused : Exists fun failure => validateStorage storage = .error failure :=
    refuseIf_eq_error.mpr (decide_eq_true ⟨notLocal, notRemote⟩)
  rcases refused with ⟨failure, invalid⟩
  unfold prepareArchive
  rw [endsIn_bind, invalid, endsIn_ofExcept]

end Prepare

/-! ## What is left by a restore and a check -/

/-- The calls of a check before its directory is made. -/
def testSteps : List TempStep :=
  [.integrity, .validateArchive, .testParent, .makeTest]

section Checks

variable {outcomes : JobOutcomes} {encrypted : Bool} {objects : List TempObject}

theorem testArchive_ends {post : Unit -> List TempObject -> Prop}
    (demanded : forall after, TempObject.testDirectory ∈ after -> Not (post () after))
    (fresh : TempObject.testDirectory ∉ objects) :
    EndsIn outcomes testArchive post objects <->
      Fails outcomes testSteps /\ objects = [] \/
        Passes outcomes testSteps /\ Passes outcomes [.extract, .removeTest] /\ post () objects := by
  have held : Not (TempObject.testDirectory :: objects = []) := List.cons_ne_nil _ _
  unfold testArchive testSteps
  rw [endsIn_bind, endsIn_needed, endsIn_bind, endsIn_needed, endsIn_bind, endsIn_needed, endsIn_bind, endsIn_need]
  dsimp only [TempCall.name, TempCall.effect, TempCall.remains]
  rw [endsIn_bind, endsIn_needed_held held, endsIn_discard List.mem_cons_self demanded, without_self fresh,
    ← first_failure_cons, ← first_failure_cons, ← first_failure_cons, ← first_failure_cons, first_failure_nil,
    passes_cons, passes_cons, and_iff_left passes_nil, and_assoc]

/-- The calls of a restore after the fetch. -/
def restoreSteps : List TempStep :=
  [.integrity, .validateArchive, .restore, .removeFetched]

/-- The calls of a check after the fetch. -/
def checkSteps : List TempStep :=
  testSteps ++ [.extract, .removeTest, .putMetadata, .removeFetched]

/-- What a check makes of its own. -/
def checkObjects : List TempObject :=
  [.stored, .fetched, .testDirectory]

theorem restoreBackup_remote :
    EndsIn outcomes (restoreBackup encrypted "s3".toList) (fun _ after => after = []) [] <->
      Fails outcomes (.permit :: firstSteps) \/ Passes outcomes (fetchSteps encrypted ++ restoreSteps) := by
  have held : Not ([TempObject.fetched] = []) := List.cons_ne_nil _ _
  have gone : without [TempObject.fetched] .fetched = [] := without_self List.not_mem_nil
  have demanded : forall after, TempObject.stored ∈ after -> Not (EndsIn outcomes
      (do needed .integrity; needed .validateArchive; needed .restore; discardFetched true)
      (fun _ after => after = []) after) := by
    intro after member
    refine not_endsIn_of_retains ?_ (fun _ _ => List.ne_nil_of_mem) member
    exact Program.only_bind (retains_needed .integrity) fun _ => Program.only_bind (retains_needed .validateArchive)
      fun _ => Program.only_bind (retains_needed .restore) fun _ => retains_discardFetched (by decide) true
  unfold restoreBackup
  rw [endsIn_bind, endsIn_needed, endsIn_bind, prepareArchive_remote demanded List.not_mem_nil,
    first_failure_cons, fails_or]
  rw [endsIn_bind, endsIn_needed_held held, endsIn_bind, endsIn_needed_held held, endsIn_bind,
    endsIn_needed_held held, discardFetched, if_pos rfl,
    endsIn_discard List.mem_cons_self (fun _ => List.ne_nil_of_mem), and_iff_left gone,
    passes_append, restoreSteps, passes_cons, passes_cons, passes_cons, passes_cons, and_iff_left passes_nil]

/-- A restore of an archive that is not in the bucket makes nothing. -/
theorem restoreBackup_elsewhere {storage : Text} (notRemote : Not (storage = "s3".toList)) :
    EndsIn outcomes (restoreBackup encrypted storage) (fun _ after => after = []) [] := by
  unfold restoreBackup
  rw [endsIn_bind, endsIn_needed_nil]
  intro _
  by_cases here : storage = "local".toList
  · subst here
    rw [endsIn_bind, prepareArchive_local, and_iff_left rfl, endsIn_bind, endsIn_needed_nil]
    by_cases found : outcomes.fault .find = none
    · refine Or.inl ⟨found, fun _ => ?_⟩
      rw [endsIn_bind, endsIn_needed_nil]
      intro _
      rw [endsIn_bind, endsIn_needed_nil]
      exact fun _ => rfl
    · exact Or.inr found
  · rw [endsIn_bind, prepareArchive_other here notRemote]

section Verify

variable {post : Unit -> List TempObject -> Prop}

/-- What follows a check in the bucket. -/
theorem checked_ends (fetchedGoes : forall after, TempObject.fetched ∈ after -> Not (post () after))
    (fresh : TempObject.fetched ∉ objects) :
    EndsIn outcomes (do needed .putMetadata; discardFetched true) post (.fetched :: objects) <->
      Passes outcomes [.putMetadata, .removeFetched] /\ post () objects := by
  have held : Not (TempObject.fetched :: objects = []) := List.cons_ne_nil _ _
  rw [endsIn_bind, endsIn_needed_held held, discardFetched, if_pos rfl,
    endsIn_discard List.mem_cons_self fetchedGoes, without_self fresh, passes_cons, passes_cons,
    and_iff_left passes_nil, and_assoc]

/-- A check that is done in the bucket, with what is there before. -/
theorem verifyArchive_remote
    (demanded : forall object, object ∈ checkObjects -> forall after, object ∈ after -> Not (post () after))
    (fresh : forall object, object ∈ checkObjects -> object ∉ objects) :
    EndsIn outcomes (verifyArchive encrypted "s3".toList) post objects <->
      Fails outcomes firstSteps /\ objects = [] \/
        Passes outcomes firstSteps /\ Passes outcomes (fetchSteps encrypted ++ checkSteps) /\ post () objects := by
  have held : Not (TempObject.fetched :: objects = []) := List.cons_ne_nil _ _
  have directoryGoes : forall after, TempObject.testDirectory ∈ after -> Not (EndsIn outcomes
      (do needed .putMetadata; discardFetched true) post after) := by
    intro after member
    refine not_endsIn_of_retains ?_ (fun _ => demanded .testDirectory (by decide)) member
    exact Program.only_bind (retains_needed .putMetadata) fun _ => retains_discardFetched (by decide) true
  have storedGoes : forall after, TempObject.stored ∈ after -> Not (EndsIn outcomes
      (do testArchive; needed .putMetadata; discardFetched true) post after) := by
    intro after member
    refine not_endsIn_of_retains ?_ (fun _ => demanded .stored (by decide)) member
    exact Program.only_bind (retains_testArchive (by decide)) fun _ =>
      Program.only_bind (retains_needed .putMetadata) fun _ => retains_discardFetched (by decide) true
  have freshDirectory : TempObject.testDirectory ∉ TempObject.fetched :: objects := by
    rw [List.mem_cons, not_or]
    exact ⟨by decide, fresh .testDirectory (by decide)⟩
  have steps : checkSteps = testSteps ++ ([.extract, .removeTest] ++ [.putMetadata, .removeFetched]) := rfl
  unfold verifyArchive
  rw [endsIn_bind, if_pos rfl, prepareArchive_remote storedGoes (fresh .stored (by decide)), endsIn_bind,
    testArchive_ends directoryGoes freshDirectory, iff_false_intro held, and_false, false_or,
    checked_ends (demanded .fetched (by decide)) (fresh .fetched (by decide)), steps,
    passes_append, passes_append, passes_append, and_assoc, and_assoc, and_assoc]

/-- A check of an archive on the node makes its directory only. -/
theorem verifyArchive_local :
    EndsIn outcomes (verifyArchive encrypted "local".toList) (fun _ after => after = []) [] <->
      Fails outcomes (.find :: testSteps) \/ Passes outcomes [.extract, .removeTest] := by
  have directoryGoes : forall after, TempObject.testDirectory ∈ after -> Not (EndsIn outcomes
      (do needed .writeMetadata; discardFetched false) (fun _ after => after = []) after) := by
    intro after member
    refine not_endsIn_of_retains ?_ (fun _ _ => List.ne_nil_of_mem) member
    exact Program.only_bind (retains_needed .writeMetadata) fun _ => trivial
  have nothing : EndsIn outcomes (do needed .writeMetadata; discardFetched false) (fun _ after => after = []) [] := by
    rw [endsIn_bind, endsIn_needed_nil]
    exact fun _ => rfl
  unfold verifyArchive
  rw [endsIn_bind, if_neg (by decide), prepareArchive_local, endsIn_bind,
    testArchive_ends directoryGoes List.not_mem_nil, and_iff_left nothing, first_failure_cons, fails_or]

/-- A check makes nothing where the storage is none. -/
theorem verifyArchive_other {storage : Text} (notLocal : Not (storage = "local".toList))
    (notRemote : Not (storage = "s3".toList)) :
    EndsIn outcomes (verifyArchive encrypted storage) (fun _ after => after = []) [] := by
  unfold verifyArchive
  rw [endsIn_bind, prepareArchive_other notLocal notRemote]

end Verify

end Checks

/-! ## What is left by a backup into the bucket -/

/-- What there is when a backup is uploaded. -/
def uploadObjects (encrypt : Bool) : List TempObject :=
  if encrypt then [.encrypted, .plain] else [.plain]

def encryptSteps (encrypt : Bool) : List TempStep :=
  if encrypt then [.openPlain, .createEncrypted, .encryptChunks] else []

/-- The calls of a backup from its archive to the end of its check. -/
def createSteps (encrypt encrypted : Bool) : List TempStep :=
  .tarCreate :: .archiveSize :: .checksum ::
    (encryptSteps encrypt ++ .upload :: (firstSteps ++ (fetchSteps encrypted ++ checkSteps)))

/-- The archive of a backup is removed, twice where it is what was uploaded. -/
def UploadRemoved (outcomes : JobOutcomes) (encrypt : Bool) : Prop :=
  if encrypt then Passes outcomes [.removeUpload, .removePlain]
  else outcomes.fault .removeUpload = none \/ outcomes.fault .removePlain = none

section Create

variable {outcomes : JobOutcomes} {encrypt encrypted : Bool} {objects : List TempObject}

theorem encryptArchive_ends {post : Unit -> List TempObject -> Prop} :
    EndsIn outcomes (encryptArchive encrypt) post [.plain] <->
      Passes outcomes (encryptSteps encrypt) /\ post () (uploadObjects encrypt) := by
  have held : Not ([TempObject.plain] = []) := List.cons_ne_nil _ _
  have heldBoth : Not ([TempObject.encrypted, .plain] = []) := List.cons_ne_nil _ _
  cases encrypt with
  | true =>
      unfold encryptArchive encryptSteps uploadObjects
      rw [if_pos rfl, if_pos rfl, if_pos rfl, endsIn_bind, endsIn_needed_held held, endsIn_bind, endsIn_need_held held]
      dsimp only [TempCall.name, TempCall.effect]
      rw [endsIn_needed_held heldBoth, passes_cons, passes_cons, passes_cons, and_iff_left passes_nil, and_assoc,
        and_assoc]
  | false => exact (and_iff_right passes_nil).symm

/-- What comes after the check of a new backup makes and removes nothing. -/
theorem retained_ends {retention : Int} :
    EndsIn outcomes (do applyRetention retention; needed .findAgain) (fun _ after => after = []) objects <->
      objects = [] := by
  have unchanged (name : TempStep) (objects : List TempObject) :
      EndsIn outcomes (needed name) (fun _ after => after = []) objects <-> objects = [] := by
    rw [endsIn_needed, ← or_and_right, and_iff_right (em _)]
  unfold applyRetention
  split
  · simp only [endsIn_bind, unchanged]
  · exact unchanged .findAgain objects

theorem retains_applyRetention {object : TempObject} (retention : Int) :
    (do applyRetention retention; needed .findAgain : JobProgram Unit).Only (Retains object) := by
  unfold applyRetention
  split
  · exact Program.only_bind (Program.only_bind (retains_needed .list) fun _ => retains_needed .deleteOld)
      fun _ => retains_needed .findAgain
  · exact retains_needed .findAgain

theorem removed_ends {retention : Int} :
    EndsIn outcomes (do
        attempt (.discard (uploaded encrypt) .removeUpload)
        attempt (.discard .plain .removePlain)
        applyRetention retention
        needed .findAgain) (fun _ after => after = []) (uploadObjects encrypt) <->
      UploadRemoved outcomes encrypt := by
  have plainGoes : forall after, TempObject.plain ∈ after -> Not (EndsIn outcomes
      (do applyRetention retention; needed .findAgain) (fun _ after => after = []) after) := by
    intro after member
    rw [retained_ends]
    exact List.ne_nil_of_mem member
  have encryptedGoes : forall after, TempObject.encrypted ∈ after -> Not (EndsIn outcomes
      (do attempt (.discard .plain .removePlain); applyRetention retention; needed .findAgain)
      (fun _ after => after = []) after) := by
    intro after member
    refine not_endsIn_of_retains ?_ (fun _ _ => List.ne_nil_of_mem) member
    have different : Not (TempObject.plain = .encrypted) := by decide
    exact Program.only_bind (only_attempt different) fun _ => retains_applyRetention retention
  have nothing : EndsIn outcomes (do applyRetention retention; needed .findAgain) (fun _ after => after = []) [] :=
    retained_ends.mpr rfl
  have plainGone : without [TempObject.plain] .plain = [] := by decide
  unfold UploadRemoved uploaded uploadObjects
  cases encrypt with
  | true =>
      have encryptedGone : without [TempObject.encrypted, .plain] .encrypted = [.plain] := by decide
      rw [if_pos rfl, if_pos rfl, if_pos rfl, endsIn_bind, endsIn_discard List.mem_cons_self encryptedGoes,
        encryptedGone, endsIn_bind, endsIn_discard List.mem_cons_self plainGoes, plainGone, and_iff_left nothing,
        passes_cons, passes_cons, and_iff_left passes_nil]
  | false =>
      rw [if_neg Bool.false_ne_true, if_neg Bool.false_ne_true, if_neg Bool.false_ne_true, endsIn_bind, endsIn_attempt]
      dsimp only [TempCall.name, TempCall.effect, TempCall.remains]
      rw [endsIn_bind, endsIn_bind, endsIn_discard List.mem_cons_self plainGoes, plainGone, and_iff_left nothing,
        endsIn_attempt]
      constructor
      · exact fun ended => or_iff_not_imp_left.mpr ended.2
      · exact fun ended => ⟨fun _ => ⟨fun _ => nothing, fun _ => nothing⟩, or_iff_not_imp_left.mp ended⟩

theorem retains_removed {object : TempObject} (retention : Int) (member : object ∈ checkObjects) :
    (do
      attempt (.discard (uploaded encrypt) .removeUpload)
      attempt (.discard .plain .removePlain)
      applyRetention retention
      needed .findAgain : JobProgram Unit).Only (Retains object) := by
  have notUploaded : forall object, object ∈ checkObjects -> Not (uploaded encrypt = object) := by
    cases encrypt <;> decide
  have notPlain : forall object, object ∈ checkObjects -> Not (TempObject.plain = object) := by decide
  exact Program.only_bind (only_attempt (notUploaded object member)) fun _ =>
    Program.only_bind (only_attempt (notPlain object member)) fun _ => retains_applyRetention retention

theorem uploaded_ends {retention : Int} :
    EndsIn outcomes (do
        verifyArchive encrypted "s3".toList
        attempt (.discard (uploaded encrypt) .removeUpload)
        attempt (.discard .plain .removePlain)
        applyRetention retention
        needed .findAgain) (fun _ after => after = []) (uploadObjects encrypt) <->
      Passes outcomes (firstSteps ++ (fetchSteps encrypted ++ checkSteps)) /\ UploadRemoved outcomes encrypt := by
  have held : Not (uploadObjects encrypt = []) := by cases encrypt <;> decide
  have fresh : forall object, object ∈ checkObjects -> object ∉ uploadObjects encrypt := by cases encrypt <;> decide
  rw [endsIn_bind, verifyArchive_remote (fun object member after there =>
      not_endsIn_of_retains (retains_removed retention member) (fun _ _ => List.ne_nil_of_mem) there) fresh,
    iff_false_intro held, and_false, false_or, removed_ends, ← and_assoc, ← passes_append]

theorem createBackup_ends {retention : Int} :
    EndsIn outcomes (createBackup encrypt encrypted retention) (fun _ after => after = []) [] <->
      Fails outcomes [.permit, .parameters, .tempDir] \/
        Passes outcomes (createSteps encrypt encrypted) /\ UploadRemoved outcomes encrypt \/
          Not (outcomes.fault .tarCreate = none) /\ outcomes.leaves .tarCreate = false := by
  have held : Not ([TempObject.plain] = []) := List.cons_ne_nil _ _
  have heldUpload : Not (uploadObjects encrypt = []) := by cases encrypt <;> decide
  have nothing : (if outcomes.leaves .tarCreate then [TempObject.plain] else []) = [] <->
      outcomes.leaves .tarCreate = false := by
    cases outcomes.leaves .tarCreate <;> decide
  have steps : Passes outcomes (createSteps encrypt encrypted) <->
      outcomes.fault .tarCreate = none /\ outcomes.fault .archiveSize = none /\ outcomes.fault .checksum = none /\
        Passes outcomes (encryptSteps encrypt) /\ outcomes.fault .upload = none /\
          Passes outcomes (firstSteps ++ (fetchSteps encrypted ++ checkSteps)) := by
    rw [createSteps, passes_cons, passes_cons, passes_cons, @passes_append _ _ _ (encryptSteps encrypt), passes_cons]
  unfold createBackup
  rw [endsIn_bind, endsIn_needed, endsIn_bind, endsIn_needed, endsIn_bind, endsIn_needed, endsIn_bind, endsIn_need]
  dsimp only [TempCall.name, TempCall.effect, TempCall.remains]
  rw [endsIn_bind, endsIn_needed_held held, endsIn_bind, endsIn_needed_held held, endsIn_bind, encryptArchive_ends,
    endsIn_bind, endsIn_needed_held heldUpload, uploaded_ends]
  refine Iff.trans ?_ (@fails_or _ TempObject _ _ _ _)
  rw [← first_failure_cons, ← first_failure_cons, ← first_failure_cons, first_failure_nil, nothing, steps, and_assoc,
    and_assoc, and_assoc, and_assoc, and_assoc]

end Create

end Storage
end Agapornis
