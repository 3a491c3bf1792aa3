import Mathlib.Data.Char
import Mathlib.Data.List.Lex
import Agapornis.Foundations.Numerals
import Agapornis.Foundations.Table
import Agapornis.Storage.Crypto
import Agapornis.Storage.Deletion

namespace Agapornis
namespace Storage

open Foundations Agapornis.Core Deletion

/-!
# Backups and where they are stored

A backup is an archive of the server directory with its metadata.  A local one
stays in the backup directory; a remote one goes to the bucket, encrypted if
that was asked for, and is fetched, checked and listed again before it counts
as made.  Any call may fail, and then the operation fails; only the removal of
a temporary file may fail unnoticed.
-/

structure BackupInfo where
  backupId : Text
  serverId : Text
  archiveName : Text
  sizeBytes : Int
  createdAt : Text
  checksumSha256 : Text
  checksumType : Text
  storage : Text
  encrypted : Bool
  lastVerifiedAt : Option Text
  expiresAt : Option Text
  deriving DecidableEq, Repr

/-- The files on the disk of the agent and the objects in its bucket. -/
structure Vault where
  files : List Text -> Option Bytes
  objects : Table Text Bytes

namespace Vault

def writeFile (vault : Vault) (path : List Text) (content : Bytes) : Vault :=
  { vault with files := fun other => if other = path then some content else vault.files other }

def removeFile (vault : Vault) (path : List Text) : Vault :=
  { vault with files := fun other => if other = path then none else vault.files other }

def putObject (vault : Vault) (key : Text) (content : Bytes) : Vault :=
  { vault with objects := vault.objects.insert key content }

@[simp] theorem writeFile_objects (vault : Vault) (path : List Text) (content : Bytes) :
    (vault.writeFile path content).objects = vault.objects := rfl

@[simp] theorem writeFile_self (vault : Vault) (path : List Text) (content : Bytes) :
    (vault.writeFile path content).files path = some content := if_pos rfl

theorem writeFile_other (vault : Vault) {path other : List Text} (content : Bytes)
    (different : Not (other = path)) : (vault.writeFile path content).files other = vault.files other :=
  if_neg different

theorem removeFile_other (vault : Vault) {path other : List Text} (different : Not (other = path)) :
    (vault.removeFile path).files other = vault.files other :=
  if_neg different

end Vault

/-- What the backups use of other programs: the format of the metadata, the
digest, the archiver, the listing of the bucket and the random choices. -/
structure BackupTools where
  environment : Environment
  tempDir : List Text
  bucketPrefix : Text
  configured : Bool
  encryptionKey : Except Failure Aead
  encode : BackupInfo -> Bytes
  encodePretty : BackupInfo -> Bytes
  decode : Bytes -> Option BackupInfo
  sha256 : Bytes -> Text
  validateArchive : Bytes -> Except Failure Unit
  extract : Bytes -> Except Failure Unit
  /-- The keys on the first page of a listing. -/
  page : Table Text Bytes -> Text -> List Text
  filePrefix : Bytes
  /-- The reads of a file that is being encrypted. -/
  reads : Bytes -> List Bytes

/-- Metadata can be read back, a page lists keys that are there, and the reads
of a file are its pieces. -/
structure BackupTools.Sound (tools : BackupTools) : Prop where
  decode_encode : forall info, tools.decode (tools.encode info) = some info
  decode_encodePretty : forall info, tools.decode (tools.encodePretty info) = some info
  page_present : forall objects start key, key ∈ tools.page objects start ->
    start <+: key /\ (objects.lookup key).isSome = true
  prefix_length : tools.filePrefix.length = 8
  reads_whole : forall content, (tools.reads content).flatten = content
  reads_sizes : forall content chunk, chunk ∈ tools.reads content ->
    0 < chunk.length /\ chunk.length <= maxChunk

/-- The calls which may fail. -/
inductive BackupCall where
  | permit
  | createDir
  | tarCreate
  | archiveSize
  | checksum
  | writeMetadata
  | readMetadata
  | encrypt
  | decrypt
  | upload
  | putMetadata
  | list
  | getMetadata
  | download
  | rename
  | deleteOld
  | makeTest
  | removeFile
  deriving DecidableEq, Repr

abbrev BackupFaults := BackupCall -> Option Failure

def noFaults : BackupFaults := fun _ => none

/-- A call that succeeds unless it has a fault. -/
def callOk (faults : BackupFaults) (call : BackupCall) : Except Failure Unit :=
  match faults call with
  | none => .ok ()
  | some failure => .error failure

theorem callOk_noFaults (call : BackupCall) : callOk noFaults call = .ok () := rfl

/-- Read a file of the agent. -/
def readFile (vault : Vault) (path : List Text) : Except Failure Bytes :=
  match vault.files path with
  | some content => .ok content
  | none => .error (.io .notFound)

def getObject (vault : Vault) (key : Text) : Except Failure Bytes :=
  match vault.objects.lookup key with
  | some content => .ok content
  | none => .error (.bail "NoSuchKey")

/-- Remove a temporary file without looking at the outcome. -/
def discardFile (faults : BackupFaults) (path : List Text) (vault : Vault) : Vault :=
  match faults .removeFile with
  | none => vault.removeFile path
  | some _ => vault

def validateStorage (storage : Text) : Except Failure Unit :=
  refuseIf (decide (Not (storage = "local".toList) /\ Not (storage = "s3".toList)))
    "Backup storage must be local or s3."

/-- A file name with another last extension. -/
def withExtension (name extension : Text) : Text :=
  match Text.rsplitOnce '.' name with
  | some (stem, _) => stem ++ '.' :: extension
  | none => name ++ '.' :: extension

def hashEq (first second : Text) : Bool :=
  match Text.hexDecode first, Text.hexDecode second with
  | some left, some right => decide (left = right)
  | _, _ => false

section Operations

variable (tools : BackupTools)

/-- The infos of the metadata objects among some keys. -/
def metadataOf (faults : BackupFaults) (vault : Vault) : List Text -> Except Failure (List BackupInfo)
  | [] => .ok []
  | key :: rest =>
      if ".metadata.json".toList.isSuffixOf key then do
        callOk faults .getMetadata
        let data <- getObject vault key
        let later <- metadataOf faults vault rest
        match tools.decode data with
        | some info => .ok (info :: later)
        | none => .ok later
      else metadataOf faults vault rest

/-- List the backups of a server in the bucket. -/
def listRemote (faults : BackupFaults) (id : Text) (vault : Vault) : Except Failure (List BackupInfo) := do
  refuseIf (!tools.configured) "S3 storage is not configured on this agent."
  callOk faults .list
  metadataOf tools faults vault (tools.page vault.objects (objectPrefix tools.bucketPrefix id))

def readMetadata (faults : BackupFaults) (id backupId : Text) (vault : Vault) :
    Except Failure (Option BackupInfo) := do
  let path <- Paths.metadataPath tools.environment id backupId
  callOk faults .readMetadata
  match vault.files path with
  | some data => .ok (tools.decode data)
  | none => .ok none

def find (faults : BackupFaults) (id backupId storage : Text) (vault : Vault) :
    Except Failure (Option BackupInfo) := do
  Paths.validateBackupId backupId
  if storage = "s3".toList then do
    let infos <- listRemote tools faults id vault
    .ok (infos.find? (fun info => decide (info.backupId = backupId)))
  else readMetadata tools faults id backupId vault

/-- Download an archive into a file. -/
def download (faults : BackupFaults) (id backupId : Text) (encrypted : Bool) (path : List Text)
    (vault : Vault) : Except Failure Vault := do
  refuseIf (!tools.configured) "S3 storage is not configured on this agent."
  callOk faults .download
  let content <- getObject vault (archiveKey tools.bucketPrefix id backupId encrypted)
  .ok (vault.writeFile path content)

def decryptTo (faults : BackupFaults) (input output : List Text) (vault : Vault) :
    Except Failure Vault := do
  let cipher <- tools.encryptionKey
  callOk faults .decrypt
  let content <- readFile vault input
  match decryptFile cipher content with
  | (.ok (), plain) => .ok (vault.writeFile output plain)
  | (.error failure, _) => .error failure

def encryptTo (faults : BackupFaults) (input output : List Text) (vault : Vault) :
    Except Failure Vault := do
  let cipher <- tools.encryptionKey
  callOk faults .encrypt
  let content <- readFile vault input
  let encryption := encryptFile cipher tools.filePrefix (tools.reads content)
  match encryption.result with
  | .ok () => .ok (vault.writeFile output encryption.written)
  | .error failure => .error failure

/-- Where a prepared archive lies, its info, and whether it is temporary. -/
structure PreparedBackup where
  path : List Text
  info : BackupInfo
  temporary : Bool

/-- Make the archive of a backup available as a file. -/
def prepare (faults : BackupFaults) (uuid id backupId storage : Text) (vault : Vault) :
    Except Failure (PreparedBackup × Vault) := do
  validateStorage storage
  match <- find tools faults id backupId storage vault with
  | none => .error (.bail "Backup not found.")
  | some info =>
      if storage = "local".toList then do
        let path <- Paths.archivePath tools.environment id backupId
        .ok (⟨path, info, false⟩, vault)
      else do
        let name := backupId ++ '-' :: uuid ++ ".stored".toList
        let stored := tools.tempDir ++ [name]
        let plain := tools.tempDir ++ [withExtension name "tar.gz".toList]
        let vault <- download tools faults id backupId info.encrypted stored vault
        if info.encrypted then do
          let vault <- decryptTo tools faults stored plain vault
          .ok (⟨plain, info, true⟩, discardFile faults stored vault)
        else do
          callOk faults .rename
          let content <- readFile vault stored
          .ok (⟨plain, info, true⟩, (vault.removeFile stored).writeFile plain content)

def verifyIntegrity (faults : BackupFaults) (path : List Text) (info : BackupInfo)
    (expected : Option Text) (vault : Vault) : Except Failure Unit := do
  callOk faults .checksum
  let content <- readFile vault path
  let actual := tools.sha256 content
  refuseIf (expected.any (fun expected => !hashEq actual expected))
    "Backup checksum did not match the requested restore."
  refuseIf (!info.checksumSha256.isEmpty && !hashEq actual info.checksumSha256)
    "Backup checksum did not match its metadata."
  callOk faults .archiveSize
  refuseIf (decide (Not ((content.length : Int) = info.sizeBytes)))
    "Backup size did not match its metadata."

def putMetadata (faults : BackupFaults) (id backupId : Text) (info : BackupInfo) (vault : Vault) :
    Except Failure Vault := do
  refuseIf (!tools.configured) "S3 storage is not configured on this agent."
  callOk faults .putMetadata
  .ok (vault.putObject (metadataKey tools.bucketPrefix id backupId) (tools.encode info))

def upload (faults : BackupFaults) (id backupId : Text) (path : List Text) (info : BackupInfo)
    (encrypted : Bool) (vault : Vault) : Except Failure Vault := do
  refuseIf (!tools.configured) "S3 storage is not configured on this agent."
  let content <- readFile vault path
  callOk faults .upload
  putMetadata tools faults id backupId info
    (vault.putObject (archiveKey tools.bucketPrefix id backupId encrypted) content)

def writeMetadata (faults : BackupFaults) (id : Text) (info : BackupInfo) (vault : Vault) :
    Except Failure Vault := do
  let path <- Paths.metadataPath tools.environment id info.backupId
  callOk faults .writeMetadata
  .ok (vault.writeFile path (tools.encodePretty info))

/-- Fetch a backup, look into it, and note the time in its metadata. -/
def verifyInner (faults : BackupFaults) (uuid now id backupId storage : Text) (vault : Vault) :
    Except Failure Vault := do
  let (prepared, vault) <- prepare tools faults uuid id backupId storage vault
  verifyIntegrity tools faults prepared.path prepared.info none vault
  let content <- readFile vault prepared.path
  tools.validateArchive content
  callOk faults .makeTest
  tools.extract content
  let info := { prepared.info with lastVerifiedAt := some now }
  let vault <-
    if storage = "s3".toList then putMetadata tools faults id backupId info vault
    else writeMetadata tools faults id info vault
  .ok (if prepared.temporary then discardFile faults prepared.path vault else vault)

/-- Delete the backups beyond the retained ones. -/
def deleteOld (fault : Nat -> Option Failure) (id : Text) :
    Nat -> List BackupInfo -> Vault -> Except Failure Vault
  | _, [], vault => .ok vault
  | index, old :: rest, vault => do
      match fault index with
      | some failure => .error failure
      | none =>
          let archive := archiveKey tools.bucketPrefix id old.backupId old.encrypted
          let metadata := metadataKey tools.bucketPrefix id old.backupId
          deleteOld fault id (index + 1) rest
            { vault with objects := (vault.objects.erase archive).erase metadata }

/-- Whether one backup comes before another, the later ones first. -/
def laterFirst (first second : BackupInfo) : Bool :=
  decide (second.createdAt ≤ first.createdAt)

/-- What a creation of a backup finds and draws. -/
structure CreationCourse where
  /-- Whether the server directory is there. -/
  sourceExists : Bool
  archive : Bytes
  backupId : Text
  uuid : Text
  createdAt : Text
  verifiedAt : Text
  faults : BackupFaults
  verification : BackupFaults
  listing : BackupFaults
  deletion : Nat -> Option Failure
  lookup : BackupFaults

/-- The metadata of a new backup. -/
def newInfo (course : CreationCourse) (id storage : Text) (encrypt : Bool) : BackupInfo where
  backupId := course.backupId
  serverId := id
  archiveName := course.backupId ++ ".tar.gz".toList
  sizeBytes := course.archive.length
  createdAt := course.createdAt
  checksumSha256 := tools.sha256 course.archive
  checksumType := "sha256".toList
  storage := storage
  encrypted := encrypt
  lastVerifiedAt := none
  expiresAt := none

/-- The file that is uploaded, the archive or its encryption. -/
def uploadSource (faults : BackupFaults) (encrypt : Bool) (plain : List Text) (vault : Vault) :
    Except Failure (List Text × Vault) :=
  if encrypt then do
    let uploaded := plain.dropLast ++ [withExtension (plain.getLastD []) "gz.agp".toList]
    let vault <- encryptTo tools faults plain uploaded vault
    .ok (uploaded, vault)
  else .ok (plain, vault)

/-- Keep the latest backups in the bucket, if the number of them is limited. -/
def retain (course : CreationCourse) (id : Text) (retention : Int) (vault : Vault) :
    Except Failure Vault :=
  if 0 < retention then do
    let list <- listRemote tools course.listing id vault
    deleteOld tools course.deletion id 0 ((list.mergeSort laterFirst).drop (max retention 1).toNat) vault
  else .ok vault

/-- The part of a creation that is about the bucket. -/
def createRemote (course : CreationCourse) (id : Text) (retention : Int) (encrypt : Bool)
    (plain : List Text) (info : BackupInfo) (vault : Vault) : Except Failure (BackupInfo × Vault) := do
  let (source, vault) <- uploadSource tools course.faults encrypt plain vault
  let vault <- upload tools course.faults id course.backupId source info encrypt vault
  let vault <- verifyInner tools course.verification course.uuid course.verifiedAt id course.backupId
    "s3".toList vault
  let vault <- retain tools course id retention
    (discardFile course.faults plain (discardFile course.faults source vault))
  match <- find tools course.lookup id course.backupId "s3".toList vault with
  | none => .error (.bail "new remote backup disappeared")
  | some info => .ok (info, vault)

/-- An encrypted backup asks for the key first. -/
def requireKey (encrypt : Bool) : Except Failure Unit :=
  if encrypt then do
    let _ <- tools.encryptionKey
    .ok ()
  else .ok ()

/-- The directory which the archive is written to. -/
def creationDir (id storage : Text) : Except Failure (List Text) :=
  if storage = "local".toList then Paths.backupDir tools.environment id else .ok tools.tempDir

/-- Make a backup of a server. -/
def create (course : CreationCourse) (id storage : Text) (retention : Int) (encrypt : Bool)
    (vault : Vault) : Except Failure (BackupInfo × Vault) := do
  callOk course.faults .permit
  validateStorage storage
  Paths.validateId id
  refuseIf (decide (storage = "s3".toList) && !tools.configured) "S3 storage is not configured on this agent."
  requireKey tools encrypt
  let _ <- Paths.serverDir tools.environment id
  refuseIf (!course.sourceExists) s!"Server volume not found: {String.ofList id}"
  let dir <- creationDir tools id storage
  callOk course.faults .createDir
  let plain := dir ++ [course.backupId ++ ".tar.gz".toList]
  callOk course.faults .tarCreate
  let vault := vault.writeFile plain course.archive
  callOk course.faults .archiveSize
  callOk course.faults .checksum
  let info := newInfo tools course id storage encrypt
  if storage = "local".toList then do
    let vault <- writeMetadata tools course.faults id info vault
    .ok (info, vault)
  else createRemote tools course id retention encrypt plain info vault

end Operations

end Storage
end Agapornis
