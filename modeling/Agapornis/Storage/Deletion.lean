import Agapornis.Core.ServerPaths
import Agapornis.Foundations.TreeMoves

namespace Agapornis
namespace Storage

open Foundations Agapornis.Core

/-!
# Deleting a server and its backups

A deletion takes the container, the data directory, the two metadata files and
what the agent remembers of a server; backups are deleted one by one or all
together.  Any call may fail, and a directory whose removal fails may have
lost some of what lay below it.  A deletion is confined to the places that are
the server's own, and the places of two servers overlap in few cases only.
-/

namespace Deletion

/-- What the agent keeps in memory for its servers. -/
inductive RuntimeTable where
  | consoleBindings
  | diskCache
  | startupReady
  | startupChecks
  | protection
  deriving DecidableEq, Repr

/-- What the agent and Docker keep for all servers. -/
structure Holdings where
  containers : List Text
  remembered : RuntimeTable -> List Text
  tree : FileTree Text Bytes
  objects : Text -> Option Bytes

namespace Holdings

def forget (tables : List RuntimeTable) (id : Text) (holdings : Holdings) : Holdings where
  containers := holdings.containers
  remembered table :=
    if table ∈ tables then (holdings.remembered table).filter (fun other => other ≠ id)
    else holdings.remembered table
  tree := holdings.tree
  objects := holdings.objects

def removeContainer (found : Option Text) (holdings : Holdings) : Holdings :=
  { holdings with containers := holdings.containers.filter (fun other => found ≠ some other) }

def removeObjects (keys : List Text) (holdings : Holdings) : Holdings :=
  { holdings with objects := fun key => if key ∈ keys then none else holdings.objects key }

end Holdings

/-- An error of the Docker client, with the status of a response if there was one. -/
structure DockerError where
  status : Option Nat
  message : String
  deriving DecidableEq, Repr

/-- How the removal of a directory turns out; a failed one has removed some of
what lay below. -/
structure Removal where
  error : Option Errno
  gone : List (List Text)

/-- How the calls of a deletion turn out.  A call that is `none` succeeds as
far as the tree allows. -/
structure DeletionCalls where
  container : Option DockerError
  /-- The container that Docker finds under a name. -/
  resolve : Text -> Option Text
  /-- A name finds the container of no other server: no id of a container begins with it. -/
  exact : forall {id found : Text}, resolve id = some found -> found = id
  /-- Whether the probe of an existing directory answers. -/
  probe : Bool
  directory : Removal
  limit : Option Errno
  config : Option Errno

def displayed (path : List Text) : String :=
  String.ofList ('/' :: Paths.display path)

/-- Remove a directory with all that lies in it; a link in its place is
removed itself. -/
def removeDirAll (removal : Removal) (dir : List Text) (tree : FileTree Text Bytes) :
    Except Errno Unit × FileTree Text Bytes :=
  match removal.error, tree.node dir with
  | some error, _ =>
      (.error error, tree.without (removal.gone.filter (fun place => decide (dir <+: place))))
  | none, none => (.error .notFound, tree)
  | none, some (.file _) => (.error .notADirectory, tree)
  | none, some _ => (.ok (), tree.without [dir])

def removeFile (fault : Option Errno) (path : List Text) (tree : FileTree Text Bytes) :
    Except Errno Unit × FileTree Text Bytes :=
  match fault with
  | some error => (.error error, tree)
  | none =>
      match tree.unlink path with
      | .error error => (.error error, tree)
      | .ok after => (.ok (), after)

/-- Remove a file that may be missing. -/
def removeMetadata (fault : Option Errno) (what : String) (path : List Text)
    (tree : FileTree Text Bytes) : Except Failure Unit × FileTree Text Bytes :=
  match removeFile fault path tree with
  | (.ok (), after) => (.ok (), after)
  | (.error .notFound, after) => (.ok (), after)
  | (.error error, after) =>
      (.error (.context ("remove " ++ what ++ " metadata " ++ displayed path) (.io error)), after)

/-- Remove a directory if the probe finds it. -/
def removeExisting (probe : Bool) (removal : Removal) (dir : List Text) (tree : FileTree Text Bytes) :
    Except Errno Unit × FileTree Text Bytes :=
  if (tree.node dir).isSome && probe then removeDirAll removal dir tree else (.ok (), tree)

/-- Remove a container.  Cleanup goes on when it has already vanished. -/
def removeContainer (calls : DeletionCalls) (id : Text) (holdings : Holdings) :
    Except DockerError Holdings :=
  match calls.container with
  | none => .ok (holdings.removeContainer (calls.resolve id))
  | some error => if error.status = some 404 then .ok holdings else .error error

section Deletions

variable (environment : Environment)

/-- The part of a deletion that is about the server's files. -/
def deleteFiles (calls : DeletionCalls) (id : Text) (tree : FileTree Text Bytes) :
    Except Failure Unit × FileTree Text Bytes :=
  match Paths.serverDir environment id, Paths.diskLimitPath environment id,
      Paths.configFilesPath environment id with
  | .ok dir, .ok limit, .ok config =>
      match removeExisting calls.probe calls.directory dir tree with
      | (.error error, after) =>
          (.error (.context ("remove server directory " ++ displayed dir) (.io error)), after)
      | (.ok (), after) =>
          match removeMetadata calls.limit "disk limit" limit after with
          | (.error failure, after) => (.error failure, after)
          | (.ok (), after) => removeMetadata calls.config "configuration" config after
  | .error failure, _, _ => (.error failure, tree)
  | _, .error failure, _ => (.error failure, tree)
  | _, _, .error failure => (.error failure, tree)

def delete (calls : DeletionCalls) (id : Text) (holdings : Holdings) : Except Failure Unit × Holdings :=
  match Paths.validateId id with
  | .error failure => (.error failure, holdings)
  | .ok () =>
      let detached := holdings.forget [.consoleBindings] id
      match removeContainer calls id detached with
      | .error error =>
          (.error (.context ("remove Docker container " ++ String.ofList id) (.bail error.message)),
            detached)
      | .ok cleared =>
          match deleteFiles environment calls id cleared.tree with
          | (.error failure, after) => (.error failure, { cleared with tree := after })
          | (.ok (), after) =>
              (.ok (), { cleared with tree := after }.forget
                [.diskCache, .startupReady, .startupChecks, .protection] id)

/-- The keys of the objects of a server begin with this. -/
def objectPrefix (base id : Text) : Text :=
  base ++ "/servers/".toList ++ id ++ "/backups/".toList

def archiveKey (base id backupId : Text) (encrypted : Bool) : Text :=
  objectPrefix base id ++ backupId ++ ".tar.gz".toList ++ (if encrypted then ".agp".toList else [])

def metadataKey (base id backupId : Text) : Text :=
  objectPrefix base id ++ backupId ++ ".metadata.json".toList

/-- How the calls of the deletion of one backup turn out.  For the bucket the
listing yields the metadata of the backup or nothing. -/
structure BackupDeletionCalls where
  listing : Except Failure (Option Bool)
  objects : Option Failure
  archive : Option Errno
  metadata : Option Errno

/-- Delete one backup.  The listing of the bucket says whether it is encrypted. -/
def deleteBackup (calls : BackupDeletionCalls) (base id backupId storage : Text) (holdings : Holdings) :
    Except Failure Unit × Holdings :=
  match Paths.validateBackupId backupId with
  | .error failure => (.error failure, holdings)
  | .ok () =>
      if storage = "s3".toList then
        match calls.listing with
        | .error failure => (.error failure, holdings)
        | .ok none => (.error (.bail "Backup not found."), holdings)
        | .ok (some encrypted) =>
            match calls.objects with
            | some failure => (.error failure, holdings)
            | none => (.ok (), holdings.removeObjects
                [archiveKey base id backupId encrypted, metadataKey base id backupId])
      else
        match Paths.archivePath environment id backupId, Paths.metadataPath environment id backupId with
        | .ok archive, .ok metadata =>
            match removeFile calls.archive archive holdings.tree with
            | (.error error, after) => (.error (.io error), { holdings with tree := after })
            | (.ok (), after) =>
                (.ok (), { holdings with tree := (removeFile calls.metadata metadata after).2 })
        | .error failure, _ => (.error failure, holdings)
        | _, .error failure => (.error failure, holdings)

/-- Delete all local backups of a server. -/
def deleteLocal (probe : Bool) (removal : Removal) (id : Text) (holdings : Holdings) :
    Except Failure Unit × Holdings :=
  match Paths.backupDir environment id with
  | .error failure => (.error failure, holdings)
  | .ok dir =>
      match removeExisting probe removal dir holdings.tree with
      | (.error error, after) => (.error (.io error), { holdings with tree := after })
      | (.ok (), after) => (.ok (), { holdings with tree := after })

/-- The places that are a server's own. -/
inductive OwnPlace (id : Text) : List Text -> Prop where
  | data {dir place : List Text} : Paths.serverDir environment id = .ok dir -> dir <+: place ->
      OwnPlace id place
  | limit {path : List Text} : Paths.diskLimitPath environment id = .ok path -> OwnPlace id path
  | config {path : List Text} : Paths.configFilesPath environment id = .ok path -> OwnPlace id path
  | backup {dir place : List Text} : Paths.backupDir environment id = .ok dir -> dir <+: place ->
      OwnPlace id place

/-- Nothing that belongs to a server is different afterwards. -/
structure Untouched (base id : Text) (before after : Holdings) : Prop where
  container : id ∈ after.containers <-> id ∈ before.containers
  remembered : forall table, id ∈ after.remembered table <-> id ∈ before.remembered table
  places : forall place, OwnPlace environment id place -> after.tree.node place = before.tree.node place
  objects : forall key, objectPrefix base id <+: key -> after.objects key = before.objects key

variable {environment}

/-! ## A deletion touches own places only -/

theorem removeDirAll_elsewhere {removal : Removal} {dir place : List Text}
    (tree : FileTree Text Bytes) (outside : Not (dir <+: place)) :
    (removeDirAll removal dir tree).2.node place = tree.node place := by
  unfold removeDirAll
  split
  · apply FileTree.without_node
    intro top member above
    have inside := of_decide_eq_true (List.mem_filter.mp member).2
    exact outside (inside.trans above)
  · rfl
  · rfl
  · apply FileTree.without_node
    intro top member
    rw [List.mem_singleton.mp member]
    exact outside

theorem removeExisting_elsewhere (probe : Bool) (removal : Removal) {dir place : List Text}
    (tree : FileTree Text Bytes) (outside : Not (dir <+: place)) :
    (removeExisting probe removal dir tree).2.node place = tree.node place := by
  unfold removeExisting
  split
  · exact removeDirAll_elsewhere tree outside
  · rfl

theorem removeFile_elsewhere (fault : Option Errno) {path place : List Text}
    (tree : FileTree Text Bytes) (different : Not (place = path)) :
    (removeFile fault path tree).2.node place = tree.node place := by
  unfold removeFile
  split
  · rfl
  · split
    · rfl
    · next removed => exact FileTree.unlink_elsewhere removed different

theorem removeMetadata_tree (fault : Option Errno) (what : String) (path : List Text)
    (tree : FileTree Text Bytes) :
    (removeMetadata fault what path tree).2 = (removeFile fault path tree).2 := by
  unfold removeMetadata
  split <;> next removed => rw [removed]

theorem deleteFiles_elsewhere (calls : DeletionCalls) {id : Text} (tree : FileTree Text Bytes)
    {place : List Text} (foreign : Not (OwnPlace environment id place)) :
    (deleteFiles environment calls id tree).2.node place = tree.node place := by
  unfold deleteFiles
  split
  · next dir limit config atDir atLimit atConfig =>
      have offDir : Not (dir <+: place) := fun below => foreign (.data atDir below)
      have offLimit : Not (place = limit) := fun same => foreign (same ▸ .limit atLimit)
      have offConfig : Not (place = config) := fun same => foreign (same ▸ .config atConfig)
      have first := removeExisting_elsewhere calls.probe calls.directory tree offDir
      split
      · next removed =>
          rw [removed] at first
          exact first
      · next after removed =>
          rw [removed] at first
          have second := removeFile_elsewhere calls.limit after offLimit
          rw [<- removeMetadata_tree calls.limit "disk limit"] at second
          split
          · next limited =>
              rw [limited] at second
              exact second.trans first
          · next later limited =>
              rw [limited] at second
              rw [removeMetadata_tree]
              exact (removeFile_elsewhere _ later offConfig).trans (second.trans first)
  · rfl
  · rfl
  · rfl

theorem mem_forget (tables : List RuntimeTable) {id other : Text} (different : Not (other = id))
    (holdings : Holdings) (table : RuntimeTable) :
    other ∈ (holdings.forget tables id).remembered table <-> other ∈ holdings.remembered table := by
  simp only [Holdings.forget]
  split
  · simp [different]
  · rfl

/-- Removing a container changes nothing but the containers, and of these no other. -/
theorem removeContainer_ok {calls : DeletionCalls} {id : Text} {holdings cleared : Holdings}
    (removed : removeContainer calls id holdings = .ok cleared) :
    cleared.tree = holdings.tree /\ cleared.remembered = holdings.remembered /\
      cleared.objects = holdings.objects /\
      forall other, Not (other = id) -> (other ∈ cleared.containers <-> other ∈ holdings.containers) := by
  unfold removeContainer at removed
  split at removed
  · cases removed
    refine ⟨rfl, rfl, rfl, fun other different => ?_⟩
    have kept : decide (calls.resolve id ≠ some other) = true :=
      decide_eq_true fun found => different (calls.exact found)
    rw [Holdings.removeContainer, List.mem_filter, and_iff_left kept]
  · split at removed
    · cases removed
      exact ⟨rfl, rfl, rfl, fun other different => Iff.rfl⟩
    · cases removed

theorem delete_elsewhere (calls : DeletionCalls) {id : Text} (holdings : Holdings)
    {place : List Text} (foreign : Not (OwnPlace environment id place)) :
    (delete environment calls id holdings).2.tree.node place = holdings.tree.node place := by
  unfold delete
  split
  · rfl
  · dsimp only
    split
    · rfl
    · next cleared removed =>
        have kept := deleteFiles_elsewhere calls cleared.tree foreign
        rw [(removeContainer_ok removed).1] at kept
        rw [(removeContainer_ok removed).1]
        split <;> next files =>
          rw [files] at kept
          exact kept

/-- A deletion forgets no other server. -/
theorem delete_remembered (environment : Environment) (calls : DeletionCalls) {id other : Text}
    (different : Not (other = id)) (holdings : Holdings) :
    (other ∈ (delete environment calls id holdings).2.containers <-> other ∈ holdings.containers) /\
      (forall table, other ∈ (delete environment calls id holdings).2.remembered table <->
        other ∈ holdings.remembered table) /\
      (delete environment calls id holdings).2.objects = holdings.objects := by
  have detached := mem_forget [.consoleBindings] different holdings
  unfold delete
  split
  · exact ⟨Iff.rfl, fun table => Iff.rfl, rfl⟩
  · dsimp only
    split
    · exact ⟨Iff.rfl, detached, rfl⟩
    · next cleared removed =>
        rcases removeContainer_ok removed with ⟨_, sameTables, sameObjects, others⟩
        split
        · exact ⟨others other different, fun table => by rw [sameTables]; exact detached table, sameObjects⟩
        · next after files =>
            refine ⟨others other different, fun table => ?_, sameObjects⟩
            rw [mem_forget _ different { cleared with tree := after } table]
            change other ∈ cleared.remembered table <-> _
            rw [sameTables]
            exact detached table

/-- The deletion of one backup touches the server's own places only. -/
theorem deleteBackup_elsewhere (calls : BackupDeletionCalls) (base : Text) {id : Text}
    (backupId storage : Text) (holdings : Holdings) {place : List Text}
    (foreign : Not (OwnPlace environment id place)) :
    (deleteBackup environment calls base id backupId storage holdings).2.tree.node place =
      holdings.tree.node place := by
  unfold deleteBackup
  split
  · rfl
  · split
    · split
      · rfl
      · rfl
      · split <;> rfl
    · split
      · next archive metadata atArchive atMetadata =>
          have offArchive : Not (place = archive) := by
            rcases Paths.archivePath_below atArchive with ⟨dir, atDir, below⟩
            exact fun same => foreign (same ▸ .backup atDir below)
          have offMetadata : Not (place = metadata) := by
            rcases Paths.metadataPath_below atMetadata with ⟨dir, atDir, below⟩
            exact fun same => foreign (same ▸ .backup atDir below)
          have first := removeFile_elsewhere calls.archive holdings.tree offArchive
          split
          · next removed =>
              rw [removed] at first
              exact first
          · next after removed =>
              rw [removed] at first
              exact (removeFile_elsewhere _ after offMetadata).trans first
      · rfl
      · rfl

theorem deleteBackup_remembered (environment : Environment) (calls : BackupDeletionCalls)
    (base id backupId storage : Text) (holdings : Holdings) :
    (deleteBackup environment calls base id backupId storage holdings).2.containers = holdings.containers /\
      (deleteBackup environment calls base id backupId storage holdings).2.remembered =
        holdings.remembered := by
  unfold deleteBackup
  split
  · exact ⟨rfl, rfl⟩
  · split
    · split
      · exact ⟨rfl, rfl⟩
      · exact ⟨rfl, rfl⟩
      · split <;> exact ⟨rfl, rfl⟩
    · split
      · split <;> exact ⟨rfl, rfl⟩
      · exact ⟨rfl, rfl⟩
      · exact ⟨rfl, rfl⟩

/-- Of the bucket, the deletion of one backup takes objects of the server only. -/
theorem deleteBackup_objects (calls : BackupDeletionCalls) {base id : Text} (backupId storage : Text)
    (holdings : Holdings) {key : Text} (foreign : Not (objectPrefix base id <+: key)) :
    (deleteBackup environment calls base id backupId storage holdings).2.objects key =
      holdings.objects key := by
  have offKeys (encrypted : Bool) :
      key ∉ [archiveKey base id backupId encrypted, metadataKey base id backupId] := by
    intro member
    apply foreign
    simp only [List.mem_cons, List.not_mem_nil, or_false] at member
    rcases member with archive | metadata
    · rw [archive, archiveKey, List.append_assoc, List.append_assoc]
      exact List.prefix_append _ _
    · rw [metadata, metadataKey, List.append_assoc]
      exact List.prefix_append _ _
  unfold deleteBackup
  split
  · rfl
  · split
    · split
      · rfl
      · rfl
      · next encrypted listed =>
          split
          · rfl
          · exact if_neg (offKeys encrypted)
    · split
      · split <;> rfl
      · rfl
      · rfl

theorem deleteLocal_elsewhere (probe : Bool) (removal : Removal) {id : Text} (holdings : Holdings)
    {place : List Text} (foreign : Not (OwnPlace environment id place)) :
    (deleteLocal environment probe removal id holdings).2.tree.node place = holdings.tree.node place := by
  unfold deleteLocal
  split
  · rfl
  · next dir atDir =>
      have kept := removeExisting_elsewhere probe removal holdings.tree
        (fun below => foreign (.backup atDir below))
      split <;> next removed =>
        rw [removed] at kept
        exact kept

theorem deleteLocal_remembered (environment : Environment) (probe : Bool) (removal : Removal) (id : Text)
    (holdings : Holdings) :
    (deleteLocal environment probe removal id holdings).2.containers = holdings.containers /\
      (deleteLocal environment probe removal id holdings).2.remembered = holdings.remembered /\
      (deleteLocal environment probe removal id holdings).2.objects = holdings.objects := by
  unfold deleteLocal
  split
  · exact ⟨rfl, rfl, rfl⟩
  · split <;> exact ⟨rfl, rfl, rfl⟩

end Deletions

end Deletion

end Storage
end Agapornis
