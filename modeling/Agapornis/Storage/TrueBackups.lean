import Mathlib.Data.Countable.Basic
import Mathlib.Logic.Encodable.Basic
import Mathlib.Logic.Equiv.List
import Agapornis.Storage.BackupRoundTrip

namespace Agapornis
namespace Storage

open Foundations Agapornis.Core Deletion

/-!
# What the metadata of a backup says of it

A backup is true to its storage when the bytes at rest are encrypted as its
metadata says, and a preparation brings the archive back.  A remote backup is
encrypted if that was asked for.  A local one never is, yet its metadata
repeats the request.
-/

variable {tools : BackupTools}

/-! ## Bytes at rest -/

/-- Some bytes are an archive in the encrypted format. -/
structure EncryptionOf (cipher : Aead) (archive : Bytes) (filePrefix : Bytes) (reads : List Bytes)
    (bytes : Bytes) : Prop where
  prefix_length : filePrefix.length = 8
  whole : reads.flatten = archive
  sizes : forall chunk, chunk ∈ reads -> 0 < chunk.length /\ chunk.length <= maxChunk
  result : (encryptFile cipher filePrefix reads).result = .ok ()
  written : (encryptFile cipher filePrefix reads).written = bytes

/-- Some bytes hold an archive, encrypted or as it is. -/
def StoredAs (tools : BackupTools) (archive bytes : Bytes) : Bool -> Prop
  | true => Exists fun cipher => tools.encryptionKey = .ok cipher /\
      Exists fun filePrefix => Exists fun reads => EncryptionOf cipher archive filePrefix reads bytes
  | false => bytes = archive

/-- An archive can be read from some bytes, by decryption or as they are. -/
def ReadFrom (tools : BackupTools) (archive bytes : Bytes) : Bool -> Prop
  | true => Exists fun cipher => tools.encryptionKey = .ok cipher /\
      decryptFile cipher bytes = (.ok (), archive)
  | false => bytes = archive

/-- Encryption makes a file longer. -/
theorem encryptChunks_longer {cipher : Aead} (correct : cipher.Correct) {filePrefix : Bytes}
    (length : filePrefix.length = 8) {reads : List Bytes} :
    forall {counter : Nat}, (forall chunk, chunk ∈ reads -> chunk.length <= maxChunk) ->
      (encryptChunks cipher filePrefix counter reads).result = .ok () ->
      reads.flatten.length < (encryptChunks cipher filePrefix counter reads).written.length := by
  induction reads with
  | nil =>
      intro counter _ _
      rw [encryptChunks, be32_length, List.flatten_nil, List.length_nil]
      omega
  | cons chunk reads induction =>
      intro counter sizes succeeded
      have nonceLength : (chunkNonce filePrefix counter).length = 12 := by
        rw [chunkNonce, List.length_append, be32_length, length]
      rcases correct _ (be32 counter) chunk nonceLength (sizes chunk List.mem_cons_self) with
        ⟨data, encryption, longer, _⟩
      rw [encryptChunks] at succeeded ⊢
      simp only [encryption] at succeeded ⊢
      split at succeeded
      · next counting =>
          have later := induction (fun other inside => sizes other (List.mem_cons_of_mem _ inside)) succeeded
          rw [if_pos counting]
          simp only [List.flatten_cons, List.length_append, be32_length, longer]
          omega
      · cases succeeded

theorem EncryptionOf.different {cipher : Aead} {archive filePrefix bytes : Bytes} {reads : List Bytes}
    (correct : cipher.Correct) (encryption : EncryptionOf cipher archive filePrefix reads bytes) :
    Not (bytes = archive) := by
  intro same
  have longer := encryptChunks_longer correct encryption.prefix_length
    (fun chunk inside => (encryption.sizes chunk inside).2) encryption.result
  have lengths := congrArg List.length encryption.written
  simp only [encryptFile, List.length_append] at lengths
  rw [encryption.whole, <- same] at longer
  omega

theorem EncryptionOf.decrypted {cipher : Aead} {archive filePrefix bytes : Bytes} {reads : List Bytes}
    (correct : cipher.Correct) (encryption : EncryptionOf cipher archive filePrefix reads bytes) :
    decryptFile cipher bytes = (.ok (), archive) := by
  rcases decryptFile_encryptFile cipher correct filePrefix encryption.prefix_length reads
      encryption.sizes with ⟨_, failed⟩ | ⟨_, _, _, decrypted⟩
  · rw [encryption.result] at failed
    cases failed
  · rw [encryption.written, encryption.whole] at decrypted
    exact decrypted

/-- The cipher of the agent, where it has a key, is correct. -/
def KeyCorrect (tools : BackupTools) : Prop :=
  forall cipher, tools.encryptionKey = .ok cipher -> cipher.Correct

theorem StoredAs.readFrom {archive bytes : Bytes} {encrypted : Bool} (correct : KeyCorrect tools)
    (stored : StoredAs tools archive bytes encrypted) : ReadFrom tools archive bytes encrypted := by
  cases encrypted with
  | false => exact stored
  | true =>
      rcases stored with ⟨cipher, key, filePrefix, reads, encryption⟩
      exact ⟨cipher, key, encryption.decrypted (correct cipher key)⟩

/-- What is read from the same bytes is the same. -/
theorem ReadFrom.unique {first second bytes : Bytes} {encrypted : Bool}
    (one : ReadFrom tools first bytes encrypted) (other : ReadFrom tools second bytes encrypted) :
    first = second := by
  cases encrypted with
  | false => exact one.symm.trans other
  | true =>
      rcases one with ⟨cipher, key, decrypted⟩
      rcases other with ⟨_, sameKey, decryptedAgain⟩
      cases key.symm.trans sameKey
      rw [decrypted] at decryptedAgain
      exact (Prod.mk.inj decryptedAgain).2

/-! ## Preparation -/

theorem discardFile_other (faults : BackupFaults) {path other : List Text} (vault : Vault)
    (different : Not (other = path)) : (discardFile faults path vault).files other = vault.files other := by
  unfold discardFile
  split
  · exact vault.removeFile_other different
  · rfl

theorem plainPath_ne_storedPath (tools : BackupTools) (uuid backupId : Text) :
    Not (plainPath tools uuid backupId = storedPath tools uuid backupId) := by
  intro reversed
  have same := reversed.symm
  have names := List.singleton_inj.mp (List.append_cancel_left same)
  have parts : Text.rsplitOnce '.' (backupId ++ '-' :: uuid ++ ".stored".toList) =
      some (backupId ++ '-' :: uuid, "stored".toList) :=
    Text.rsplitOnce_append (by decide) (backupId ++ '-' :: uuid)
  rw [withExtension, parts] at names
  have extensions := List.append_cancel_left names
  exact absurd extensions (by decide)

/-- A preparation from the bucket that succeeds reads the archive from the
object of the backup that was found. -/
theorem prepare_remote {faults : BackupFaults} {uuid id backupId : Text} {vault after : Vault}
    {prepared : PreparedBackup}
    (ran : prepare tools faults uuid id backupId "s3".toList vault = .ok (prepared, after)) :
    find tools faults id backupId "s3".toList vault = .ok (some prepared.info) /\
      after.objects = vault.objects /\ Exists fun bytes =>
        vault.objects.lookup (archiveKey tools.bucketPrefix id backupId prepared.info.encrypted) = some bytes /\
          Exists fun archive => ReadFrom tools archive bytes prepared.info.encrypted /\
            after.files prepared.path = some archive := by
  rcases prepare_remote_eq_ok.mp ran with ⟨info, found, rfl, fetched, downloaded, opening⟩
  rcases download_eq_ok.mp downloaded with ⟨_, _, bytes, stored, rfl⟩
  split at opening
  · next encrypted =>
      rcases opening with ⟨opened, decrypted, rfl⟩
      rcases decryptTo_eq_ok.mp decrypted with ⟨_, cipher, key, content, read, archive, decryption, rfl⟩
      rw [Vault.writeFile_self] at read
      cases read
      refine ⟨found, ?_, bytes, stored, archive, ?_, ?_⟩
      · rw [discardFile_objects, Vault.writeFile_objects, Vault.writeFile_objects]
      · rw [encrypted]
        exact ⟨cipher, key, decryption⟩
      · exact (discardFile_other faults _ (plainPath_ne_storedPath tools uuid backupId)).trans
          (Vault.writeFile_self _ _ _)
  · next notEncrypted =>
      rcases opening with ⟨_, content, read, rfl⟩
      rw [Vault.writeFile_self] at read
      cases read
      refine ⟨found, rfl, bytes, stored, bytes, ?_, Vault.writeFile_self _ _ _⟩
      rw [Bool.eq_false_of_not_eq_true notEncrypted]
      exact rfl

/-- Without faults a preparation succeeds for what can be found and read. -/
theorem prepare_remote_succeeds {id backupId : Text} {vault : Vault} {info : BackupInfo}
    {archive bytes : Bytes} (uuid : Text) (configured : tools.configured = true)
    (found : find tools noFaults id backupId "s3".toList vault = .ok (some info))
    (stored : vault.objects.lookup (archiveKey tools.bucketPrefix id backupId info.encrypted) = some bytes)
    (readFrom : ReadFrom tools archive bytes info.encrypted) :
    Exists fun prepared => Exists fun after =>
      prepare tools noFaults uuid id backupId "s3".toList vault = .ok (prepared, after) := by
  have downloaded (path : List Text) : download tools noFaults id backupId info.encrypted path vault =
      .ok (vault.writeFile path bytes) :=
    download_eq_ok.mpr ⟨configured, rfl, bytes, stored, rfl⟩
  have present : (vault.writeFile (storedPath tools uuid backupId) bytes).files
      (storedPath tools uuid backupId) = some bytes := Vault.writeFile_self _ _ _
  cases encrypted : info.encrypted with
  | true =>
      rw [encrypted] at readFrom
      rcases readFrom with ⟨cipher, key, decryption⟩
      have decrypted : decryptTo tools noFaults (storedPath tools uuid backupId) (plainPath tools uuid backupId)
          (vault.writeFile (storedPath tools uuid backupId) bytes) = .ok _ :=
        decryptTo_eq_ok.mpr ⟨rfl, cipher, key, bytes, present, archive, decryption, rfl⟩
      exact ⟨_, _, prepare_remote_eq_ok.mpr ⟨info, found, rfl, _, downloaded _,
        (if_pos encrypted).mpr ⟨_, decrypted, rfl⟩⟩⟩
  | false =>
      have plain : Not (info.encrypted = true) := by
        rw [encrypted]
        exact Bool.false_ne_true
      exact ⟨_, _, prepare_remote_eq_ok.mpr ⟨info, found, rfl, _, downloaded _,
        (if_neg plain).mpr ⟨rfl, bytes, present, rfl⟩⟩⟩

/-! ## The course of a creation -/

/-- The backup rests in the bucket under its own metadata. -/
structure AtRest (tools : BackupTools) (id : Text) (info : BackupInfo) (bytes : Bytes)
    (objects : Table Text Bytes) : Prop where
  metadata : objects.lookup (metadataKey tools.bucketPrefix id info.backupId) = some (tools.encode info)
  archive : objects.lookup (archiveKey tools.bucketPrefix id info.backupId info.encrypted) = some bytes
  bucket : AgentBucket tools objects

/-- New metadata for the same backup. -/
theorem AtRest.putMetadata {id : Text} {info : BackupInfo} {bytes : Bytes}
    {objects : Table Text Bytes} (rests : AtRest tools id info bytes objects) (newer : BackupInfo)
    (valid : Paths.validateId id = .ok ()) (sameId : newer.backupId = info.backupId)
    (sameFlag : newer.encrypted = info.encrypted) :
    AtRest tools id newer bytes
      (objects.insert (metadataKey tools.bucketPrefix id newer.backupId) (tools.encode newer)) := by
  refine ⟨AList.lookup_insert _, ?_, rests.bucket.metadata valid newer⟩
  rw [Table.lookup_insert_of_ne _ (archiveKey_ne_metadataKey _ _ _ _ _), sameId, sameFlag]
  exact rests.archive

/-- An upload leaves the bytes of its file at rest. -/
theorem upload_atRest {faults : BackupFaults} {id : Text} {path : List Text} {info : BackupInfo}
    {bytes : Bytes} {vault after : Vault} (valid : Paths.validateId id = .ok ())
    (bucket : AgentBucket tools vault.objects) (present : vault.files path = some bytes)
    (ran : upload tools faults id info.backupId path info info.encrypted vault = .ok after) :
    tools.configured = true /\ AtRest tools id info bytes after.objects := by
  rcases upload_eq_ok.mp ran with ⟨configured, _, _, content, read, rfl⟩
  rw [present] at read
  cases read
  refine ⟨configured, AList.lookup_insert _, ?_, ?_⟩
  · refine (Table.lookup_insert_of_ne _ (archiveKey_ne_metadataKey _ _ _ _ _)).trans ?_
    exact AList.lookup_insert _
  · exact (bucket.archive valid info.backupId info.encrypted bytes).metadata valid info

/-- The info that is found for a backup at rest is the one it was stored with. -/
theorem AtRest.find_eq {faults : BackupFaults} {id : Text} {info found : BackupInfo} {bytes : Bytes}
    {vault : Vault} (sound : tools.Sound) (valid : Paths.validateId id = .ok ())
    (rests : AtRest tools id info bytes vault.objects)
    (ran : find tools faults id info.backupId "s3".toList vault = .ok (some found)) :
    found = info := by
  rcases find_remote sound (rests.bucket.written sound valid) ran with ⟨_, data, stored, decoded⟩
  rw [rests.metadata] at stored
  cases stored
  rw [sound.decode_encode] at decoded
  exact (Option.some.inj decoded).symm

/-- A check notes its time in the metadata and changes no other object. -/
theorem verifyInner_atRest {faults : BackupFaults} {uuid now id : Text} {info : BackupInfo}
    {bytes : Bytes} {vault after : Vault} (sound : tools.Sound) (valid : Paths.validateId id = .ok ())
    (rests : AtRest tools id info bytes vault.objects)
    (ran : verifyInner tools faults uuid now id info.backupId "s3".toList vault = .ok after) :
    AtRest tools id { info with lastVerifiedAt := some now } bytes after.objects := by
  rcases verifyInner_eq_ok.mp ran with ⟨prepared, fetched, noted, content, verified⟩
  rcases prepare_remote verified.prepares with ⟨found, unchanged, _⟩
  have same := rests.find_eq sound valid found
  rcases putMetadata_eq_ok.mp verified.notes_remote with ⟨_, _, written⟩
  rw [verified.objects, <- written, same]
  change AtRest tools id _ bytes (fetched.objects.insert _ _)
  rw [unchanged]
  exact rests.putMetadata { info with lastVerifiedAt := some now } valid rfl rfl

/-- The removal of old backups takes the metadata of a backup with its archive. -/
theorem deleteOld_atRest {fault : Nat -> Option Failure} {id : Text} {info : BackupInfo}
    {bytes : Bytes} {olds : List BackupInfo} :
    forall {index : Nat} {vault after : Vault}, AgentBucket tools vault.objects ->
      (vault.objects.lookup (metadataKey tools.bucketPrefix id info.backupId) = none \/
        AtRest tools id info bytes vault.objects) ->
      deleteOld tools fault id index olds vault = .ok after ->
      AgentBucket tools after.objects /\
        (after.objects.lookup (metadataKey tools.bucketPrefix id info.backupId) = none \/
          AtRest tools id info bytes after.objects) := by
  induction olds with
  | nil =>
      intro index vault after bucket state ran
      cases ran
      exact ⟨bucket, state⟩
  | cons old rest induction =>
      intro index vault after bucket state ran
      rw [deleteOld] at ran
      split at ran
      · cases ran
      · refine induction ((bucket.erased _).erased _) ?_ ran
        by_cases own : old.backupId = info.backupId
        · left
          rw [own]
          exact AList.lookup_erase _ _
        · have otherMetadata : Not (metadataKey tools.bucketPrefix id info.backupId =
              metadataKey tools.bucketPrefix id old.backupId) :=
            fun same => own (metadataKey_injective same).symm
          have otherArchive : Not (archiveKey tools.bucketPrefix id info.backupId info.encrypted =
              archiveKey tools.bucketPrefix id old.backupId old.encrypted) :=
            fun same => own (archiveKey_injective same).1.symm
          have metadataKept : forall objects : Table Text Bytes,
              ((objects.erase (archiveKey tools.bucketPrefix id old.backupId old.encrypted)).erase
                (metadataKey tools.bucketPrefix id old.backupId)).lookup
                  (metadataKey tools.bucketPrefix id info.backupId) =
                objects.lookup (metadataKey tools.bucketPrefix id info.backupId) := by
            intro objects
            rw [Table.lookup_erase_of_ne otherMetadata, Table.lookup_erase_of_ne]
            exact fun same => archiveKey_ne_metadataKey _ _ _ _ _ same.symm
          rcases state with gone | rests
          · left
            exact (metadataKept _).trans gone
          · right
            refine ⟨(metadataKept _).trans rests.metadata, ?_, (bucket.erased _).erased _⟩
            refine (Table.lookup_erase_of_ne (archiveKey_ne_metadataKey _ _ _ _ _)).trans ?_
            exact (Table.lookup_erase_of_ne otherArchive).trans rests.archive

/-- An encryption that succeeds writes the archive in the encrypted format. -/
theorem encryptTo_stored {faults : BackupFaults} {input output : List Text} {archive : Bytes}
    {vault after : Vault} (sound : tools.Sound) (present : vault.files input = some archive)
    (ran : encryptTo tools faults input output vault = .ok after) :
    after.objects = vault.objects /\
      Exists fun bytes => after.files output = some bytes /\ StoredAs tools archive bytes true := by
  rcases encryptTo_eq_ok.mp ran with ⟨_, cipher, key, content, read, result, rfl⟩
  rw [present] at read
  cases read
  refine ⟨rfl, _, Vault.writeFile_self _ _ _, cipher, key, tools.filePrefix, tools.reads archive, ?_⟩
  exact ⟨sound.prefix_length, sound.reads_whole archive, sound.reads_sizes archive, result, rfl⟩

/-- The file that is uploaded holds the archive as the flag says. -/
theorem uploadSource_stored {faults : BackupFaults} {encrypt : Bool} {plain path : List Text}
    {archive : Bytes} {vault after : Vault} (sound : tools.Sound)
    (present : vault.files plain = some archive)
    (ran : uploadSource tools faults encrypt plain vault = .ok (path, after)) :
    after.objects = vault.objects /\
      Exists fun bytes => after.files path = some bytes /\ StoredAs tools archive bytes encrypt := by
  unfold uploadSource at ran
  cases encrypt with
  | true =>
      rw [if_pos rfl] at ran
      rcases bind_eq_ok.mp ran with ⟨encrypted, encryption, same⟩
      cases same
      exact encryptTo_stored sound present encryption
  | false =>
      rw [if_neg (by decide)] at ran
      cases ran
      exact ⟨rfl, archive, present, rfl⟩

theorem retain_atRest {course : CreationCourse} {id : Text} {retention : Int} {info : BackupInfo}
    {bytes : Bytes} {vault after : Vault} (rests : AtRest tools id info bytes vault.objects)
    (ran : retain tools course id retention vault = .ok after) :
    AgentBucket tools after.objects /\
      (after.objects.lookup (metadataKey tools.bucketPrefix id info.backupId) = none \/
        AtRest tools id info bytes after.objects) := by
  unfold retain at ran
  split at ran
  · rcases bind_eq_ok.mp ran with ⟨infos, _, ran⟩
    exact deleteOld_atRest rests.bucket (Or.inr rests) ran
  · cases ran
    exact ⟨rests.bucket, Or.inr rests⟩

/-- The metadata of a backup once it has been checked. -/
def checkedInfo (tools : BackupTools) (course : CreationCourse) (id : Text) (encrypt : Bool) : BackupInfo :=
  { newInfo tools course id "s3".toList encrypt with lastVerifiedAt := some course.verifiedAt }

/-- What is stored and checked is at rest. -/
theorem storeRemote_atRest {course : CreationCourse} {id : Text} {encrypt : Bool} {plain : List Text}
    {vault stored : Vault} (sound : tools.Sound) (valid : Paths.validateId id = .ok ())
    (bucket : AgentBucket tools vault.objects) (present : vault.files plain = some course.archive)
    (ran : storeRemote tools course id encrypt plain (newInfo tools course id "s3".toList encrypt) vault = .ok stored) :
    tools.configured = true /\ Exists fun bytes =>
      AtRest tools id (checkedInfo tools course id encrypt) bytes stored.objects /\
        StoredAs tools course.archive bytes encrypt := by
  rcases storeRemote_eq_ok.mp ran with ⟨path, source, uploaded, checked, encrypted, uploads, verifies, rfl⟩
  rcases uploadSource_stored sound present encrypted with ⟨unchanged, bytes, held, kept⟩
  have bucketSource : AgentBucket tools source.objects := by
    rw [unchanged]
    exact bucket
  have uploadRests : tools.configured = true /\
      AtRest tools id (newInfo tools course id "s3".toList encrypt) bytes uploaded.objects :=
    upload_atRest valid bucketSource held uploads
  rcases uploadRests with ⟨configured, rests⟩
  refine ⟨configured, bytes, ?_, kept⟩
  rw [discardFile_objects, discardFile_objects]
  exact verifyInner_atRest sound valid rests verifies

/-- A remote creation that succeeds leaves the backup at rest and finds it. -/
theorem createRemote_atRest {course : CreationCourse} {id : Text} {retention : Int} {encrypt : Bool}
    {plain : List Text} {vault after : Vault} {info : BackupInfo} (sound : tools.Sound)
    (valid : Paths.validateId id = .ok ()) (bucket : AgentBucket tools vault.objects)
    (present : vault.files plain = some course.archive)
    (ran : createRemote tools course id retention encrypt plain
      (newInfo tools course id "s3".toList encrypt) vault = .ok (info, after)) :
    info = checkedInfo tools course id encrypt /\ tools.configured = true /\
      find tools course.lookup id course.backupId "s3".toList after = .ok (some info) /\
        Exists fun bytes => AtRest tools id info bytes after.objects /\
          StoredAs tools course.archive bytes encrypt := by
  rcases createRemote_eq_ok.mp ran with ⟨stored, stores, retains, looked⟩
  rcases storeRemote_atRest sound valid bucket present stores with ⟨configured, bytes, rests, kept⟩
  rcases retain_atRest rests retains with ⟨bucketRetained, state⟩
  rcases find_remote sound (bucketRetained.written sound valid) looked with ⟨_, data, there, _⟩
  rcases state with gone | still
  · cases gone.symm.trans there
  · have same := still.find_eq sound valid looked
    subst same
    exact ⟨rfl, configured, looked, bytes, still, kept⟩

/-! ## What the metadata says -/

/-- The bytes of a backup, in its file or in its object. -/
def bytesAtRest (tools : BackupTools) (id storage : Text) (info : BackupInfo) (vault : Vault) : Option Bytes :=
  if storage = "local".toList then
    match Paths.archivePath tools.environment id info.backupId with
    | .ok path => vault.files path
    | .error _ => none
  else vault.objects.lookup (archiveKey tools.bucketPrefix id info.backupId info.encrypted)

/-- The bytes at rest are encrypted exactly if the metadata says so. -/
def TruthfulAtRest (tools : BackupTools) (id storage : Text) (archive : Bytes) (info : BackupInfo)
    (vault : Vault) : Prop :=
  Exists fun bytes => bytesAtRest tools id storage info vault = some bytes /\
    StoredAs tools archive bytes info.encrypted

/-- A preparation of the backup can be made, and each one brings back the
archive which the checksum and the size in the metadata are about. -/
structure ComesBack (tools : BackupTools) (id storage : Text) (archive : Bytes) (info : BackupInfo)
    (vault : Vault) : Prop where
  available : forall uuid, Exists fun prepared => Exists fun after =>
    prepare tools noFaults uuid id info.backupId storage vault = .ok (prepared, after)
  unchanged : forall faults uuid prepared after,
    prepare tools faults uuid id info.backupId storage vault = .ok (prepared, after) ->
      after.files prepared.path = some archive
  checksum : tools.sha256 archive = info.checksumSha256
  size : (archive.length : Int) = info.sizeBytes

/-- What a creation that succeeds has done. -/
theorem create_cases {course : CreationCourse} {id storage : Text} {retention : Int} {encrypt : Bool}
    {vault after : Vault} {info : BackupInfo}
    (ran : create tools course id storage retention encrypt vault = .ok (info, after)) :
    Paths.validateId id = .ok () /\
      ((storage = "local".toList /\ info = newInfo tools course id storage encrypt /\
          Exists fun dir => Paths.backupDir tools.environment id = .ok dir /\
            writeMetadata tools course.faults id info
              (vault.writeFile (dir ++ [course.backupId ++ ".tar.gz".toList]) course.archive) = .ok after) \/
        (storage = "s3".toList /\ Exists fun plain =>
          createRemote tools course id retention encrypt plain (newInfo tools course id storage encrypt)
            (vault.writeFile plain course.archive) = .ok (info, after))) := by
  rcases create_eq_ok.mp ran with ⟨dir, able, made⟩
  refine ⟨able.valid, ?_⟩
  split at made
  · next isLocal =>
      have located := able.located
      rw [creationDir, if_pos isLocal] at located
      exact Or.inl ⟨isLocal, made.1, dir, located, made.2⟩
  · next notLocal =>
      refine Or.inr ⟨?_, _, made⟩
      by_contra notRemote
      exact of_decide_eq_false (refuseIf_eq_ok.mp able.accepted) ⟨notLocal, notRemote⟩

/-- A local backup is a plain file, and comes back. -/
theorem writeMetadata_local {faults : BackupFaults} {course : CreationCourse} {id : Text} {encrypt : Bool}
    {dir : List Text} {vault after : Vault} (sound : tools.Sound)
    (located : Paths.backupDir tools.environment id = .ok dir)
    (ran : writeMetadata tools faults id (newInfo tools course id "local".toList encrypt)
      (vault.writeFile (dir ++ [course.backupId ++ ".tar.gz".toList]) course.archive) = .ok after) :
    bytesAtRest tools id "local".toList (newInfo tools course id "local".toList encrypt) after =
        some course.archive /\
      ComesBack tools id "local".toList course.archive (newInfo tools course id "local".toList encrypt)
        after := by
  rcases writeMetadata_eq_ok.mp ran with ⟨_, path, metadataAt, written⟩
  rcases Paths.metadataPath_eq_ok.mp metadataAt with ⟨validBackup, valid, metadataPath⟩
  rcases Paths.backupDir_eq_ok.mp located with ⟨_, isDir⟩
  have archiveAt : Paths.archivePath tools.environment id course.backupId =
      .ok (dir ++ [course.backupId ++ ".tar.gz".toList]) :=
    Paths.archivePath_eq_ok.mpr ⟨validBackup, valid, by rw [isDir]⟩
  rw [<- isDir] at metadataPath
  have twoFiles : Not (dir ++ [course.backupId ++ ".tar.gz".toList] = path) := by
    intro same
    have names := List.singleton_inj.mp (List.append_cancel_left (same.trans metadataPath))
    exact absurd (List.append_cancel_left names) (by decide)
  have archiveThere : after.files (dir ++ [course.backupId ++ ".tar.gz".toList]) = some course.archive := by
    rw [<- written, Vault.writeFile_other _ _ twoFiles]
    exact Vault.writeFile_self _ _ _
  have metadataThere : after.files path =
      some (tools.encodePretty (newInfo tools course id "local".toList encrypt)) := by
    rw [<- written]
    exact Vault.writeFile_self _ _ _
  have foundThere : find tools noFaults id course.backupId "local".toList after =
      .ok (some (newInfo tools course id "local".toList encrypt)) := by
    refine (find_local_eq_ok (by decide)).mpr ⟨validBackup, readMetadata_eq_ok.mpr ⟨rfl, path, metadataAt, ?_⟩⟩
    rw [metadataThere]
    exact sound.decode_encodePretty _
  refine ⟨?_, ?_, ?_, rfl, rfl⟩
  · unfold bytesAtRest
    rw [if_pos rfl]
    change (match Paths.archivePath tools.environment id course.backupId with
      | .ok path => after.files path
      | .error _ => none) = _
    rw [archiveAt]
    exact archiveThere
  · intro uuid
    exact ⟨_, _, prepare_local.mpr ⟨_, foundThere, _, archiveAt, rfl⟩⟩
  · intro faults uuid prepared later preparation
    rcases prepare_local.mp preparation with ⟨info, _, place, locatedPath, same⟩
    cases archiveAt.symm.trans locatedPath
    cases same
    exact archiveThere

/-- A remote backup that was made is encrypted as its metadata says, and comes back. -/
theorem createRemote_true {course : CreationCourse} {id : Text} {retention : Int} {encrypt : Bool}
    {plain : List Text} {vault after : Vault} {info : BackupInfo} (sound : tools.Sound)
    (correct : KeyCorrect tools) (valid : Paths.validateId id = .ok ())
    (bucket : AgentBucket tools vault.objects) (present : vault.files plain = some course.archive)
    (ran : createRemote tools course id retention encrypt plain
      (newInfo tools course id "s3".toList encrypt) vault = .ok (info, after)) :
    TruthfulAtRest tools id "s3".toList course.archive info after /\
      ComesBack tools id "s3".toList course.archive info after := by
  rcases createRemote_atRest sound valid bucket present ran with
    ⟨same, configured, found, bytes, rests, stored⟩
  subst same
  refine ⟨⟨bytes, rests.archive, stored⟩, ?_, ?_, rfl, rfl⟩
  · intro uuid
    exact prepare_remote_succeeds uuid configured (find_noFaults found) rests.archive
      (stored.readFrom correct)
  · intro faults uuid prepared later preparation
    rcases prepare_remote preparation with ⟨foundAgain, _, data, held, archive, readFrom, there⟩
    have same := rests.find_eq sound valid foundAgain
    rw [same] at held readFrom
    cases held.symm.trans rests.archive
    rw [there, readFrom.unique (stored.readFrom correct)]

/-- For every archive, storage and choice of encryption: a backup whose
creation succeeds is stored as its metadata says and comes back unchanged, if
and only if it is not a local one that was to be encrypted. -/
theorem create_true_iff (tools : BackupTools) (sound : tools.Sound) (correct : KeyCorrect tools)
    {course : CreationCourse} {id storage : Text} {retention : Int} {encrypt : Bool}
    {vault after : Vault} {info : BackupInfo} (bucket : AgentBucket tools vault.objects)
    (ran : create tools course id storage retention encrypt vault = .ok (info, after)) :
    (TruthfulAtRest tools id storage course.archive info after /\
        ComesBack tools id storage course.archive info after) <->
      Not (storage = "local".toList /\ encrypt = true) := by
  rcases create_cases ran with ⟨valid, ⟨isLocal, same, dir, located, writing⟩ | ⟨remote, plain, making⟩⟩
  · subst isLocal same
    rcases writeMetadata_local sound located writing with ⟨rests, back⟩
    constructor
    · rintro ⟨⟨bytes, held, stored⟩, _⟩ ⟨_, encrypted⟩
      cases rests.symm.trans held
      subst encrypted
      rcases stored with ⟨cipher, key, filePrefix, reads, encryption⟩
      exact encryption.different (correct cipher key) rfl
    · intro plainly
      refine ⟨⟨course.archive, rests, ?_⟩, back⟩
      cases encrypt with
      | true => exact absurd ⟨rfl, rfl⟩ plainly
      | false => exact rfl
  · subst remote
    have bucketWritten : AgentBucket tools (vault.writeFile plain course.archive).objects := bucket
    constructor
    · rintro _ ⟨isLocal, _⟩
      exact absurd isLocal (by decide)
    · intro _
      exact createRemote_true sound correct valid bucketWritten (Vault.writeFile_self _ _ _) making

/-! ## A local backup that was to be encrypted -/

/-- The metadata of a backup of the byte 1. -/
def sampleInfo (encrypted : Bool) : BackupInfo where
  backupId := "20250101-000000-00000001".toList
  serverId := "server-1".toList
  archiveName := "20250101-000000-00000001".toList ++ ".tar.gz".toList
  sizeBytes := 1
  createdAt := "2025-01-01T00:00:00+00:00".toList
  checksumSha256 := "4bf5122f344554c53bde2ebb8cd2b7e3d1600ad631c385a5d7cce23c7785459a".toList
  checksumType := "sha256".toList
  storage := "local".toList
  encrypted := encrypted
  lastVerifiedAt := none
  expiresAt := none

/-- The infos in some countable order. -/
theorem exists_info_code : Exists fun code : BackupInfo -> Nat => Function.Injective code := by
  have characters : Countable Char := by
    apply Function.Injective.countable (f := Char.toNat)
    intro first second same
    exact Char.ext (UInt32.toNat_inj.mp same)
  let fields (info : BackupInfo) := (info.backupId, info.serverId, info.archiveName, info.sizeBytes,
    info.createdAt, info.checksumSha256, info.checksumType, info.storage, info.encrypted,
    info.lastVerifiedAt, info.expiresAt)
  have separate : Function.Injective fields := by
    intro first second same
    cases first
    cases second
    simpa [fields] using same
  have infos : Countable BackupInfo := separate.countable
  exact exists_injective_nat BackupInfo

/-- The metadata of the sample up to the flag, without the opening brace. -/
def sampleFront : Text :=
  (String.intercalate "\n" ["", "  \"BackupId\": \"20250101-000000-00000001\",",
    "  \"ServerId\": \"server-1\",",
    "  \"ArchiveName\": \"20250101-000000-00000001.tar.gz\",",
    "  \"SizeBytes\": 1,",
    "  \"CreatedAt\": \"2025-01-01T00:00:00+00:00\",",
    "  \"ChecksumSha256\": \"4bf5122f344554c53bde2ebb8cd2b7e3d1600ad631c385a5d7cce23c7785459a\",",
    "  \"ChecksumType\": \"sha256\",",
    "  \"Storage\": \"local\",",
    "  \"Encrypted\": "]).toList

def sampleBack : Text :=
  ",\n  \"LastVerifiedAt\": null,\n  \"ExpiresAt\": null\n\x7d".toList

/-- The bytes of a text of one-byte characters. -/
def plainBytes (text : Text) : Bytes :=
  text.map (fun character => UInt8.ofNat character.toNat)

def sampleJson (encrypted : Bool) : Bytes :=
  123 :: (plainBytes sampleFront ++ plainBytes (if encrypted then "true".toList else "false".toList) ++
    plainBytes sampleBack)

theorem sampleJson_injective : Function.Injective sampleJson := by
  intro first second same
  have flags := List.append_cancel_left (List.append_cancel_right (List.cons.inj same).2)
  cases first <;> cases second
  · rfl
  · exact absurd flags (by decide)
  · exact absurd flags (by decide)
  · rfl

/-- The format at the sample, and a stand-in for it elsewhere. -/
noncomputable def sampleEncode (info : BackupInfo) : Bytes :=
  if info = sampleInfo info.encrypted then sampleJson info.encrypted
  else 0 :: List.replicate (exists_info_code.choose info) 0

theorem sampleEncode_injective : Function.Injective sampleEncode := by
  intro first second same
  have apart (encrypted : Bool) (rest : Bytes) : Not (sampleJson encrypted = 0 :: rest) := by
    intro equal
    exact absurd (List.cons.inj equal).1 (by decide)
  unfold sampleEncode at same
  by_cases firstSample : first = sampleInfo first.encrypted
  · rw [if_pos firstSample] at same
    by_cases secondSample : second = sampleInfo second.encrypted
    · rw [if_pos secondSample] at same
      rw [firstSample, secondSample, sampleJson_injective same]
    · rw [if_neg secondSample] at same
      exact absurd same (apart _ _)
  · rw [if_neg firstSample] at same
    by_cases secondSample : second = sampleInfo second.encrypted
    · rw [if_pos secondSample] at same
      exact absurd same.symm (apart _ _)
    · rw [if_neg secondSample] at same
      have lengths := congrArg List.length same
      simp only [List.length_cons, List.length_replicate, Nat.add_right_cancel_iff] at lengths
      exact exists_info_code.choose_spec lengths

/-- Tools which behave on the sample as the real ones do. -/
noncomputable def sampleTools : BackupTools where
  environment := defaultEnvironment
  tempDir := ["tmp".toList, "agapornis".toList]
  bucketPrefix := "agapornis".toList
  configured := false
  encryptionKey := .ok sampleCipher
  encode := sampleEncode
  encodePretty := sampleEncode
  decode := Function.partialInv sampleEncode
  sha256 _ := "4bf5122f344554c53bde2ebb8cd2b7e3d1600ad631c385a5d7cce23c7785459a".toList
  validateArchive _ := .ok ()
  extract _ := .ok ()
  page objects start := objects.keys.filter (fun key => start.isPrefixOf key)
  filePrefix := List.replicate 8 0
  reads content := content.map (fun byte => [byte])

theorem sampleTools_sound : sampleTools.Sound where
  decode_encode info := Function.partialInv_left sampleEncode_injective info
  decode_encodePretty info := Function.partialInv_left sampleEncode_injective info
  page_present objects start key onPage := by
    rcases List.mem_filter.mp onPage with ⟨inside, below⟩
    exact ⟨List.isPrefixOf_iff_prefix.mp below, AList.lookup_isSome.mpr (AList.mem_keys.mpr inside)⟩
  prefix_length := rfl
  reads_whole content := by
    change (content.map (fun byte => [byte])).flatten = content
    induction content with
    | nil => rfl
    | cons byte rest induction => simp only [List.map_cons, List.flatten_cons, induction, List.singleton_append]
  reads_sizes content chunk inside := by
    rcases List.mem_map.mp inside with ⟨byte, _, same⟩
    subst same
    rw [List.length_singleton, maxChunk]
    omega

theorem sampleTools_keyCorrect : KeyCorrect sampleTools := by
  intro cipher key
  cases key
  exact sampleCipher_correct

/-- A creation in which nothing fails, of an archive that is the byte 1. -/
def sampleCourse : CreationCourse where
  sourceExists := true
  archive := [1]
  backupId := "20250101-000000-00000001".toList
  uuid := "00000000-0000-4000-8000-000000000000".toList
  createdAt := "2025-01-01T00:00:00+00:00".toList
  verifiedAt := "2025-01-01T00:00:01+00:00".toList
  faults := noFaults
  verification := noFaults
  listing := noFaults
  deletion := fun _ => none
  lookup := noFaults

/-- An agent without backups. -/
def emptyVault : Vault := ⟨fun _ => none, ∅⟩

/-- The directory which the sample is made in. -/
def sampleDir : List Text :=
  Paths.backupsBase defaultEnvironment ++ ["server-1".toList]

/-- The agent once it has made the backup. -/
noncomputable def sampleVault (encrypt : Bool) : Vault :=
  (emptyVault.writeFile (sampleDir ++ ["20250101-000000-00000001".toList ++ ".tar.gz".toList]) [1]).writeFile
    (sampleDir ++ ["20250101-000000-00000001".toList ++ ".json".toList]) (sampleEncode (sampleInfo encrypt))

theorem sample_created (encrypt : Bool) :
    create sampleTools sampleCourse "server-1".toList "local".toList 0 encrypt emptyVault =
      .ok (sampleInfo encrypt, sampleVault encrypt) := by
  have key : requireKey sampleTools encrypt = .ok () := by cases encrypt <;> rfl
  have valid : Paths.validateId "server-1".toList = .ok () := by decide
  have validBackup : Paths.validateBackupId "20250101-000000-00000001".toList = .ok () := by
    decide +kernel
  have server : Paths.serverDir defaultEnvironment "server-1".toList = .ok _ :=
    Paths.serverDir_eq_ok.mpr ⟨valid, rfl⟩
  have dir : Paths.backupDir defaultEnvironment "server-1".toList = .ok sampleDir :=
    Paths.backupDir_eq_ok.mpr ⟨valid, rfl⟩
  have metadata : Paths.metadataPath defaultEnvironment "server-1".toList
      "20250101-000000-00000001".toList =
        .ok (sampleDir ++ ["20250101-000000-00000001".toList ++ ".json".toList]) :=
    bind_eq_ok.mpr ⟨(), validBackup, bind_eq_ok.mpr ⟨sampleDir, dir, rfl⟩⟩
  have written : writeMetadata sampleTools noFaults "server-1".toList (sampleInfo encrypt)
      (emptyVault.writeFile (sampleDir ++ ["20250101-000000-00000001".toList ++ ".tar.gz".toList]) [1]) =
        .ok (sampleVault encrypt) :=
    bind_eq_ok.mpr ⟨_, metadata, bind_eq_ok.mpr ⟨(), rfl, rfl⟩⟩
  have dirLocal : creationDir sampleTools "server-1".toList "local".toList = .ok sampleDir := dir
  exact create_eq_ok.mpr ⟨sampleDir, ⟨rfl, rfl, valid, fun remote => absurd remote (by decide), key, ⟨_, server⟩, rfl,
    dirLocal, rfl, rfl, rfl, rfl⟩, rfl, written⟩

theorem create_true_iff_sample :
    create sampleTools sampleCourse "server-1".toList "local".toList 0 false emptyVault =
        .ok (sampleInfo false, sampleVault false) /\
      ((TruthfulAtRest sampleTools "server-1".toList "local".toList [1] (sampleInfo false)
            (sampleVault false) /\
          ComesBack sampleTools "server-1".toList "local".toList [1] (sampleInfo false)
            (sampleVault false)) <->
        Not ("local".toList = "local".toList /\ false = true)) := by
  have bucket : AgentBucket sampleTools emptyVault.objects := AgentBucket.empty
  exact ⟨sample_created false,
    create_true_iff sampleTools sampleTools_sound sampleTools_keyCorrect bucket (sample_created false)⟩

/-- The metadata says that the backup is encrypted, and its file is the archive. -/
theorem plain_backup_called_encrypted :
    create sampleTools sampleCourse "server-1".toList "local".toList 0 true emptyVault =
        .ok (sampleInfo true, sampleVault true) /\
      bytesAtRest sampleTools "server-1".toList "local".toList (sampleInfo true) (sampleVault true) =
        some [1] /\
      Not (TruthfulAtRest sampleTools "server-1".toList "local".toList [1] (sampleInfo true)
        (sampleVault true)) := by
  have rests : bytesAtRest sampleTools "server-1".toList "local".toList (sampleInfo true)
      (sampleVault true) = some [1] := by
    rcases create_cases (sample_created true) with ⟨_, ⟨_, same, dir, located, writing⟩ | ⟨remote, _⟩⟩
    · rw [same] at writing ⊢
      exact (writeMetadata_local sampleTools_sound located writing).1
    · exact absurd remote (by decide)
  refine ⟨sample_created true, rests, ?_⟩
  rintro ⟨bytes, held, stored⟩
  have same : [1] = bytes := Option.some.inj (rests.symm.trans held)
  rcases stored with ⟨cipher, key, filePrefix, reads, encryption⟩
  exact encryption.different (sampleTools_keyCorrect cipher key) same.symm

end Storage
end Agapornis
