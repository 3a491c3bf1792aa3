import Agapornis.Storage.Backups

namespace Agapornis
namespace Storage

open Foundations Agapornis.Core
open Deletion (archiveKey metadataKey objectPrefix)

/-!
# What the steps of a backup do when they succeed

A step succeeds exactly when its checks pass and its calls have no fault, and
then it has done what is said here.
-/

variable {tools : BackupTools} {faults : BackupFaults} {id backupId storage : Text} {vault after : Vault}

theorem callOk_eq_ok {call : BackupCall} {done : Unit} : callOk faults call = .ok done <-> faults call = none := by
  unfold callOk
  cases faults call <;> simp

theorem readFile_eq_ok {path : List Text} {content : Bytes} :
    readFile vault path = .ok content <-> vault.files path = some content := by
  unfold readFile
  cases vault.files path <;> simp

theorem getObject_eq_ok {key : Text} {content : Bytes} :
    getObject vault key = .ok content <-> vault.objects.lookup key = some content := by
  unfold getObject
  cases vault.objects.lookup key <;> simp

/-- The check for the bucket. -/
theorem configured_eq_ok {message : String} {done : Unit} :
    refuseIf (!tools.configured) message = .ok done <-> tools.configured = true := by
  rw [refuseIf_eq_ok, Bool.not_eq_false']

@[simp] theorem discardFile_objects (faults : BackupFaults) (path : List Text) (vault : Vault) :
    (discardFile faults path vault).objects = vault.objects := by
  unfold discardFile
  split <;> rfl

/-! ## Files and objects -/

theorem download_eq_ok {encrypted : Bool} {path : List Text} :
    download tools faults id backupId encrypted path vault = .ok after <->
      tools.configured = true /\ faults .download = none /\ Exists fun content =>
        vault.objects.lookup (archiveKey tools.bucketPrefix id backupId encrypted) = some content /\
          vault.writeFile path content = after := by
  simp only [download, configured_eq_ok, callOk_eq_ok, bind_eq_ok, exists_const, getObject_eq_ok, Except.ok.injEq]

theorem putMetadata_eq_ok {info : BackupInfo} :
    putMetadata tools faults id backupId info vault = .ok after <->
      tools.configured = true /\ faults .putMetadata = none /\
        vault.putObject (metadataKey tools.bucketPrefix id backupId) (tools.encode info) = after := by
  simp only [putMetadata, bind_eq_ok, exists_const, configured_eq_ok, callOk_eq_ok, Except.ok.injEq]

theorem upload_eq_ok {path : List Text} {info : BackupInfo} {encrypted : Bool} :
    upload tools faults id backupId path info encrypted vault = .ok after <->
      tools.configured = true /\ faults .upload = none /\ faults .putMetadata = none /\ Exists fun content =>
        vault.files path = some content /\
          (vault.putObject (archiveKey tools.bucketPrefix id backupId encrypted) content).putObject
            (metadataKey tools.bucketPrefix id backupId) (tools.encode info) = after := by
  simp only [upload, configured_eq_ok, callOk_eq_ok, bind_eq_ok, exists_const, readFile_eq_ok, putMetadata_eq_ok]
  constructor
  · rintro ⟨configured, content, read, sent, _, put, same⟩
    exact ⟨configured, sent, put, content, read, same⟩
  · rintro ⟨configured, sent, put, content, read, same⟩
    exact ⟨configured, content, read, sent, configured, put, same⟩

theorem writeMetadata_eq_ok {info : BackupInfo} :
    writeMetadata tools faults id info vault = .ok after <->
      faults .writeMetadata = none /\ Exists fun path =>
        Paths.metadataPath tools.environment id info.backupId = .ok path /\
          vault.writeFile path (tools.encodePretty info) = after := by
  simp only [writeMetadata, callOk_eq_ok, bind_eq_ok, exists_const, Except.ok.injEq]
  constructor
  · rintro ⟨path, located, written, same⟩
    exact ⟨written, path, located, same⟩
  · rintro ⟨written, path, located, same⟩
    exact ⟨path, located, written, same⟩

theorem readMetadata_eq_ok {found : Option BackupInfo} :
    readMetadata tools faults id backupId vault = .ok found <->
      faults .readMetadata = none /\ Exists fun path =>
        Paths.metadataPath tools.environment id backupId = .ok path /\
          (vault.files path).bind tools.decode = found := by
  simp only [readMetadata, bind_eq_ok, exists_const, callOk_eq_ok]
  constructor
  · rintro ⟨path, located, read, same⟩
    refine ⟨read, path, located, ?_⟩
    split at same <;> next held => rw [held]; exact Except.ok.inj same
  · rintro ⟨read, path, located, same⟩
    refine ⟨path, located, read, ?_⟩
    rw [<- same]
    cases vault.files path <;> rfl

/-- The infos of a metadata object come before those of the later keys. -/
theorem metadataOf_cons_eq_ok {key : Text} {rest : List Text} {infos : List BackupInfo}
    (ending : ".metadata.json".toList.isSuffixOf key = true) :
    metadataOf tools faults vault (key :: rest) = .ok infos <->
      faults .getMetadata = none /\ Exists fun data => vault.objects.lookup key = some data /\
        Exists fun later => metadataOf tools faults vault rest = .ok later /\
          infos = (tools.decode data).toList ++ later := by
  rw [metadataOf, if_pos ending]
  simp only [bind_eq_ok, exists_const, callOk_eq_ok, getObject_eq_ok]
  refine and_congr_right fun _ => exists_congr fun data => and_congr_right fun _ => exists_congr fun later =>
    and_congr_right fun _ => ?_
  cases tools.decode data <;> exact (Except.ok.injEq _ _).to_iff.trans eq_comm

theorem listRemote_eq_ok {infos : List BackupInfo} :
    listRemote tools faults id vault = .ok infos <->
      tools.configured = true /\ faults .list = none /\
        metadataOf tools faults vault (tools.page vault.objects (objectPrefix tools.bucketPrefix id)) = .ok infos := by
  simp only [listRemote, bind_eq_ok, exists_const, configured_eq_ok, callOk_eq_ok]

theorem find_remote_eq_ok {found : Option BackupInfo} :
    find tools faults id backupId "s3".toList vault = .ok found <->
      Paths.validateBackupId backupId = .ok () /\ Exists fun infos =>
        listRemote tools faults id vault = .ok infos /\
          infos.find? (fun info => decide (info.backupId = backupId)) = found := by
  rw [find, check_eq_ok, if_pos rfl]
  simp only [bind_eq_ok, Except.ok.injEq]

theorem find_local_eq_ok {found : Option BackupInfo} (notRemote : Not (storage = "s3".toList)) :
    find tools faults id backupId storage vault = .ok found <->
      Paths.validateBackupId backupId = .ok () /\ readMetadata tools faults id backupId vault = .ok found := by
  rw [find, check_eq_ok, if_neg notRemote]

/-! ## Archives -/

/-- What is made of the file of an archive. -/
theorem decryptTo_eq_ok {input output : List Text} :
    decryptTo tools faults input output vault = .ok after <->
      faults .decrypt = none /\ Exists fun cipher => tools.encryptionKey = .ok cipher /\ Exists fun content =>
        vault.files input = some content /\ Exists fun plain =>
          decryptFile cipher content = (.ok (), plain) /\ vault.writeFile output plain = after := by
  simp only [decryptTo, callOk_eq_ok, bind_eq_ok, exists_const, readFile_eq_ok]
  constructor
  · rintro ⟨cipher, key, called, content, read, ran⟩
    refine ⟨called, cipher, key, content, read, ?_⟩
    split at ran
    · next plain decrypted => exact ⟨plain, decrypted, Except.ok.inj ran⟩
    · cases ran
  · rintro ⟨called, cipher, key, content, read, plain, decrypted, same⟩
    refine ⟨cipher, key, called, content, read, ?_⟩
    rw [decrypted]
    exact congrArg Except.ok same

theorem encryptTo_eq_ok {input output : List Text} :
    encryptTo tools faults input output vault = .ok after <->
      faults .encrypt = none /\ Exists fun cipher => tools.encryptionKey = .ok cipher /\ Exists fun content =>
        vault.files input = some content /\
          (encryptFile cipher tools.filePrefix (tools.reads content)).result = .ok () /\
          vault.writeFile output (encryptFile cipher tools.filePrefix (tools.reads content)).written = after := by
  simp only [encryptTo, callOk_eq_ok, bind_eq_ok, exists_const, readFile_eq_ok]
  constructor
  · rintro ⟨cipher, key, called, content, read, ran⟩
    refine ⟨called, cipher, key, content, read, ?_⟩
    split at ran
    · next result => exact ⟨result, Except.ok.inj ran⟩
    · cases ran
  · rintro ⟨called, cipher, key, content, read, result, same⟩
    refine ⟨cipher, key, called, content, read, ?_⟩
    rw [result]
    exact congrArg Except.ok same

/-- The temporary file for the bytes of the object. -/
def storedPath (tools : BackupTools) (uuid backupId : Text) : List Text :=
  tools.tempDir ++ [backupId ++ '-' :: uuid ++ ".stored".toList]

/-- The temporary file for the archive. -/
def plainPath (tools : BackupTools) (uuid backupId : Text) : List Text :=
  tools.tempDir ++ [withExtension (backupId ++ '-' :: uuid ++ ".stored".toList) "tar.gz".toList]

/-- A local preparation only looks for the metadata. -/
theorem prepare_local {uuid : Text} {prepared : PreparedBackup × Vault} :
    prepare tools faults uuid id backupId "local".toList vault = .ok prepared <->
      Exists fun info => find tools faults id backupId "local".toList vault = .ok (some info) /\
        Exists fun path => Paths.archivePath tools.environment id backupId = .ok path /\
          prepared = (⟨path, info, false⟩, vault) := by
  have local_ok : validateStorage "local".toList = .ok () := rfl
  rw [prepare, check_eq_ok, local_ok, bind_eq_ok]
  constructor
  · rintro ⟨_, listed, found, ran⟩
    cases listed with
    | none => cases ran
    | some info =>
        rcases bind_eq_ok.mp ran with ⟨path, located, same⟩
        exact ⟨info, found, path, located, (Except.ok.inj same).symm⟩
  · rintro ⟨info, found, path, located, same⟩
    exact ⟨rfl, some info, found, bind_eq_ok.mpr ⟨path, located, by rw [same]⟩⟩

/-- A remote preparation fetches the object and reads the archive from it. -/
theorem prepare_remote_eq_ok {uuid : Text} {prepared : PreparedBackup} :
    prepare tools faults uuid id backupId "s3".toList vault = .ok (prepared, after) <->
      Exists fun info => find tools faults id backupId "s3".toList vault = .ok (some info) /\
        prepared = ⟨plainPath tools uuid backupId, info, true⟩ /\ Exists fun fetched =>
          download tools faults id backupId info.encrypted (storedPath tools uuid backupId) vault = .ok fetched /\
            if info.encrypted then Exists fun opened =>
              decryptTo tools faults (storedPath tools uuid backupId) (plainPath tools uuid backupId) fetched =
                .ok opened /\ discardFile faults (storedPath tools uuid backupId) opened = after
            else faults .rename = none /\ Exists fun content =>
              fetched.files (storedPath tools uuid backupId) = some content /\
                (fetched.removeFile (storedPath tools uuid backupId)).writeFile
                  (plainPath tools uuid backupId) content =
                  after := by
  have remote_ok : validateStorage "s3".toList = .ok () := rfl
  have notLocal : Not ("s3".toList = "local".toList) := by decide
  rw [prepare, check_eq_ok, remote_ok, bind_eq_ok]
  constructor
  · rintro ⟨_, listed, found, ran⟩
    cases listed with
    | none => cases ran
    | some info =>
        dsimp only at ran
        rw [if_neg notLocal] at ran
        rcases bind_eq_ok.mp ran with ⟨fetched, downloaded, ran⟩
        split at ran
        · next encrypted =>
            rcases bind_eq_ok.mp ran with ⟨opened, decrypted, same⟩
            cases same
            refine ⟨info, found, rfl, fetched, downloaded, ?_⟩
            rw [if_pos encrypted]
            exact ⟨opened, decrypted, rfl⟩
        · next notEncrypted =>
            rcases check_eq_ok.mp ran with ⟨renamed, ran⟩
            rcases bind_eq_ok.mp ran with ⟨content, read, same⟩
            cases same
            refine ⟨info, found, rfl, fetched, downloaded, ?_⟩
            rw [if_neg notEncrypted]
            exact ⟨callOk_eq_ok.mp renamed, content, readFile_eq_ok.mp read, rfl⟩
  · rintro ⟨info, found, rfl, fetched, downloaded, opening⟩
    refine ⟨rfl, some info, found, ?_⟩
    dsimp only
    rw [if_neg notLocal]
    refine bind_eq_ok.mpr ⟨fetched, downloaded, ?_⟩
    split at opening
    · next encrypted =>
        rcases opening with ⟨opened, decrypted, rfl⟩
        rw [if_pos encrypted]
        exact bind_eq_ok.mpr ⟨opened, decrypted, rfl⟩
    · next notEncrypted =>
        rcases opening with ⟨renamed, content, read, rfl⟩
        rw [if_neg notEncrypted]
        exact check_eq_ok.mpr ⟨callOk_eq_ok.mpr renamed, bind_eq_ok.mpr ⟨content, readFile_eq_ok.mpr read, rfl⟩⟩

/-! ## Checks -/

/-- A check that passes, with the archive it has looked into and the state after the note in the metadata. -/
structure Verified (tools : BackupTools) (faults : BackupFaults) (uuid now id backupId storage : Text)
    (vault after : Vault) (prepared : PreparedBackup) (fetched noted : Vault) (content : Bytes) : Prop where
  prepares : prepare tools faults uuid id backupId storage vault = .ok (prepared, fetched)
  integrity : verifyIntegrity tools faults prepared.path prepared.info none fetched = .ok ()
  read : fetched.files prepared.path = some content
  archive : tools.validateArchive content = .ok ()
  test : faults .makeTest = none
  extracts : tools.extract content = .ok ()
  notes : (if storage = "s3".toList then
      putMetadata tools faults id backupId { prepared.info with lastVerifiedAt := some now } fetched
    else writeMetadata tools faults id { prepared.info with lastVerifiedAt := some now } fetched) = .ok noted
  discards : (if prepared.temporary then discardFile faults prepared.path noted else noted) = after

theorem verifyInner_eq_ok {uuid now : Text} :
    verifyInner tools faults uuid now id backupId storage vault = .ok after <->
      Exists fun prepared => Exists fun fetched => Exists fun noted => Exists fun content =>
        Verified tools faults uuid now id backupId storage vault after prepared fetched noted content := by
  rw [verifyInner, bind_eq_ok]
  constructor
  · rintro ⟨⟨prepared, fetched⟩, prepares, ran⟩
    rcases check_eq_ok.mp ran with ⟨integrity, ran⟩
    rcases bind_eq_ok.mp ran with ⟨content, read, ran⟩
    rcases check_eq_ok.mp ran with ⟨archive, ran⟩
    rcases check_eq_ok.mp ran with ⟨test, ran⟩
    rcases check_eq_ok.mp ran with ⟨extracts, ran⟩
    dsimp only at ran
    split at ran
    · next remote =>
        rcases bind_eq_ok.mp ran with ⟨noted, notes, same⟩
        exact ⟨prepared, fetched, noted, content, prepares, integrity, readFile_eq_ok.mp read, archive,
          callOk_eq_ok.mp test, extracts, (if_pos remote).trans notes, Except.ok.inj same⟩
    · next notRemote =>
        rcases bind_eq_ok.mp ran with ⟨noted, notes, same⟩
        exact ⟨prepared, fetched, noted, content, prepares, integrity, readFile_eq_ok.mp read, archive,
          callOk_eq_ok.mp test, extracts, (if_neg notRemote).trans notes, Except.ok.inj same⟩
  · rintro ⟨prepared, fetched, noted, content, verified⟩
    refine ⟨(prepared, fetched), verified.prepares, check_eq_ok.mpr ⟨verified.integrity, ?_⟩⟩
    refine bind_eq_ok.mpr ⟨content, readFile_eq_ok.mpr verified.read, check_eq_ok.mpr ⟨verified.archive, ?_⟩⟩
    refine check_eq_ok.mpr ⟨callOk_eq_ok.mpr verified.test, check_eq_ok.mpr ⟨verified.extracts, ?_⟩⟩
    have notes := verified.notes
    dsimp only
    split at notes <;> next remote =>
      simp only [remote, if_true, if_false]
      exact bind_eq_ok.mpr ⟨noted, notes, congrArg Except.ok verified.discards⟩

section Verified

variable {uuid now : Text} {prepared : PreparedBackup} {fetched noted : Vault} {content : Bytes}

theorem Verified.notes_remote
    (verified : Verified tools faults uuid now id backupId "s3".toList vault after prepared fetched noted content) :
    putMetadata tools faults id backupId { prepared.info with lastVerifiedAt := some now } fetched = .ok noted :=
  (if_pos rfl).symm.trans verified.notes

/-- The objects are those after the note. -/
theorem Verified.objects
    (verified : Verified tools faults uuid now id backupId storage vault after prepared fetched noted content) :
    after.objects = noted.objects := by
  rw [<- verified.discards]
  split
  · exact discardFile_objects _ _ _
  · rfl

end Verified

/-! ## Creations -/

/-- A creation up to the retention: the backup is stored and checked. -/
def storeRemote (tools : BackupTools) (course : CreationCourse) (id : Text) (encrypt : Bool) (plain : List Text)
    (info : BackupInfo)
    (vault : Vault) : Except Failure Vault := do
  let (source, vault) <- uploadSource tools course.faults encrypt plain vault
  let vault <- upload tools course.faults id course.backupId source info encrypt vault
  let vault <- verifyInner tools course.verification course.uuid course.verifiedAt id course.backupId
    "s3".toList vault
  .ok (discardFile course.faults plain (discardFile course.faults source vault))

theorem storeRemote_eq_ok {course : CreationCourse} {encrypt : Bool} {plain : List Text} {info : BackupInfo} :
    storeRemote tools course id encrypt plain info vault = .ok after <->
      Exists fun path => Exists fun source => Exists fun uploaded => Exists fun checked =>
        uploadSource tools course.faults encrypt plain vault = .ok (path, source) /\
          upload tools course.faults id course.backupId path info encrypt source = .ok uploaded /\
          verifyInner tools course.verification course.uuid course.verifiedAt id course.backupId "s3".toList uploaded =
            .ok checked /\
          discardFile course.faults plain (discardFile course.faults path checked) = after := by
  rw [storeRemote, bind_eq_ok]
  constructor
  · rintro ⟨⟨path, source⟩, encrypted, ran⟩
    rcases bind_eq_ok.mp ran with ⟨uploaded, uploads, ran⟩
    rcases bind_eq_ok.mp ran with ⟨checked, verifies, same⟩
    exact ⟨path, source, uploaded, checked, encrypted, uploads, verifies, Except.ok.inj same⟩
  · rintro ⟨path, source, uploaded, checked, encrypted, uploads, verifies, same⟩
    exact ⟨(path, source), encrypted, bind_eq_ok.mpr ⟨uploaded, uploads,
      bind_eq_ok.mpr ⟨checked, verifies, congrArg Except.ok same⟩⟩⟩

/-- A creation succeeds when the backup is stored, old ones are deleted, and it is found after that. -/
theorem createRemote_eq_ok {course : CreationCourse} {retention : Int} {encrypt : Bool} {plain : List Text}
    {info new : BackupInfo} :
    createRemote tools course id retention encrypt plain new vault = .ok (info, after) <->
      Exists fun stored => storeRemote tools course id encrypt plain new vault = .ok stored /\
        retain tools course id retention stored = .ok after /\
          find tools course.lookup id course.backupId "s3".toList after = .ok (some info) := by
  simp only [storeRemote_eq_ok]
  rw [createRemote, bind_eq_ok]
  constructor
  · rintro ⟨⟨path, source⟩, encrypted, ran⟩
    rcases bind_eq_ok.mp ran with ⟨uploaded, uploads, ran⟩
    rcases bind_eq_ok.mp ran with ⟨checked, verifies, ran⟩
    rcases bind_eq_ok.mp ran with ⟨retained, retains, ran⟩
    rcases bind_eq_ok.mp ran with ⟨found, looked, ran⟩
    cases found with
    | none => cases ran
    | some listed =>
        cases ran
        exact ⟨_, ⟨path, source, uploaded, checked, encrypted, uploads, verifies, rfl⟩, retains, looked⟩
  · rintro ⟨_, ⟨path, source, uploaded, checked, encrypted, uploads, verifies, rfl⟩, retains, looked⟩
    exact ⟨(path, source), encrypted, bind_eq_ok.mpr ⟨uploaded, uploads, bind_eq_ok.mpr ⟨checked, verifies,
      bind_eq_ok.mpr ⟨after, retains, bind_eq_ok.mpr ⟨some info, looked, rfl⟩⟩⟩⟩⟩

/-- What a creation asks for before it keeps the archive. -/
structure BackupMayStart (tools : BackupTools) (course : CreationCourse) (id storage : Text) (encrypt : Bool)
    (dir : List Text) : Prop where
  permit : course.faults .permit = none
  accepted : validateStorage storage = .ok ()
  valid : Paths.validateId id = .ok ()
  bucket : storage = "s3".toList -> tools.configured = true
  key : requireKey tools encrypt = .ok ()
  server : Exists fun place => Paths.serverDir tools.environment id = .ok place
  source : course.sourceExists = true
  located : creationDir tools id storage = .ok dir
  createDir : course.faults .createDir = none
  tarCreate : course.faults .tarCreate = none
  archiveSize : course.faults .archiveSize = none
  checksum : course.faults .checksum = none

theorem create_eq_ok {course : CreationCourse} {retention : Int} {encrypt : Bool} {info : BackupInfo} :
    create tools course id storage retention encrypt vault = .ok (info, after) <->
      Exists fun dir => BackupMayStart tools course id storage encrypt dir /\
        if storage = "local".toList then info = newInfo tools course id storage encrypt /\
          writeMetadata tools course.faults id info
            (vault.writeFile (dir ++ [course.backupId ++ ".tar.gz".toList]) course.archive) = .ok after
        else createRemote tools course id retention encrypt (dir ++ [course.backupId ++ ".tar.gz".toList])
          (newInfo tools course id storage encrypt)
          (vault.writeFile (dir ++ [course.backupId ++ ".tar.gz".toList]) course.archive) = .ok (info, after) := by
  have bucket_ok : (decide (storage = "s3".toList) && !tools.configured) = false <->
      (storage = "s3".toList -> tools.configured = true) := by
    by_cases remote : storage = "s3".toList
    · rw [decide_eq_true remote, Bool.true_and, Bool.not_eq_false', imp_iff_right remote]
    · rw [decide_eq_false remote, Bool.false_and]
      exact iff_of_true rfl fun same => absurd same remote
  rw [create, check_eq_ok, check_eq_ok, check_eq_ok, check_eq_ok, check_eq_ok]
  simp only [callOk_eq_ok, refuseIf_eq_ok, bucket_ok]
  constructor
  · rintro ⟨permit, storageOk, valid, bucket, key, ran⟩
    rcases bind_eq_ok.mp ran with ⟨place, server, ran⟩
    rcases check_eq_ok.mp ran with ⟨source, ran⟩
    rcases bind_eq_ok.mp ran with ⟨dir, located, ran⟩
    rcases check_eq_ok.mp ran with ⟨createDir, ran⟩
    rcases check_eq_ok.mp ran with ⟨tarCreate, ran⟩
    rcases check_eq_ok.mp ran with ⟨archiveSize, ran⟩
    rcases check_eq_ok.mp ran with ⟨checksum, ran⟩
    refine ⟨dir, ⟨permit, storageOk, valid, bucket, key, ⟨place, server⟩, ?_, located, callOk_eq_ok.mp createDir,
      callOk_eq_ok.mp tarCreate, callOk_eq_ok.mp archiveSize, callOk_eq_ok.mp checksum⟩, ?_⟩
    · rw [refuseIf_eq_ok, Bool.not_eq_false'] at source
      exact source
    · split at ran
      · next isLocal =>
          rcases bind_eq_ok.mp ran with ⟨written, writing, same⟩
          cases same
          rw [if_pos isLocal]
          exact ⟨rfl, writing⟩
      · next notLocal =>
          rw [if_neg notLocal]
          exact ran
  · rintro ⟨dir, able, made⟩
    rcases able.server with ⟨place, server⟩
    refine ⟨able.permit, able.accepted, able.valid, able.bucket, able.key, bind_eq_ok.mpr ⟨place, server, ?_⟩⟩
    refine check_eq_ok.mpr ⟨refuseIf_eq_ok.mpr (by rw [able.source]; rfl), bind_eq_ok.mpr ⟨dir, able.located, ?_⟩⟩
    refine check_eq_ok.mpr ⟨callOk_eq_ok.mpr able.createDir, check_eq_ok.mpr ⟨callOk_eq_ok.mpr able.tarCreate, ?_⟩⟩
    refine check_eq_ok.mpr ⟨callOk_eq_ok.mpr able.archiveSize, check_eq_ok.mpr ⟨callOk_eq_ok.mpr able.checksum, ?_⟩⟩
    split at made
    · next isLocal =>
        rcases made with ⟨rfl, writing⟩
        rw [if_pos isLocal]
        exact bind_eq_ok.mpr ⟨after, writing, rfl⟩
    · next notLocal =>
        rw [if_neg notLocal]
        exact made

end Storage
end Agapornis
