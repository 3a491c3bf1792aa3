import Agapornis.Foundations.TextLines
import Agapornis.Storage.TrueBackups

namespace Agapornis
namespace Storage

open Foundations Agapornis.Core Deletion

/-!
# Local backups that are listed and local backups that are found

The listing of the local backups walks over the files of the backup directory.
An archive with metadata is listed as the metadata says, and for an archive
without metadata an entry is made from its name.  A backup is looked up by its
metadata alone.
-/

/-- A file in a directory, with its length and its time if they are known. -/
structure LocalEntry where
  fileName : Bytes
  metadata : Except Failure (Nat × Text)

/-- The name of the backup whose archive a file is. -/
def LocalEntry.backupId (entry : LocalEntry) : Option Text :=
  Text.stripSuffix ".tar.gz".toList (fromUtf8Lossy entry.fileName)

/-- What reading a directory gives: the files, some of which may not be read. -/
abbrev LocalDirectory := Except Failure (List (Except Failure LocalEntry))

section Listing

variable (tools : BackupTools) (faults : Text -> BackupFaults) (id : Text) (vault : Vault)

/-- The info of an archive without metadata. -/
def inventedInfo (backupId name : Text) (size : Nat) (createdAt : Text) : BackupInfo where
  backupId := backupId
  serverId := id
  archiveName := name
  sizeBytes := size
  createdAt := createdAt
  checksumSha256 := []
  checksumType := "sha256".toList
  storage := "local".toList
  encrypted := false
  lastVerifiedAt := none
  expiresAt := none

/-- What is listed of one file; the faults are those of the metadata of each backup. -/
def listEntry (entry : LocalEntry) : Except Failure (Option BackupInfo) :=
  match entry.backupId with
  | none => .ok none
  | some backupId => do
      match <- readMetadata tools (faults backupId) id backupId vault with
      | some info => .ok (some info)
      | none => do
          let (size, createdAt) <- entry.metadata
          .ok (some (inventedInfo id backupId (fromUtf8Lossy entry.fileName) size createdAt))

/-- The loop of the listing. -/
def listEntries : List (Except Failure LocalEntry) -> Except Failure (List BackupInfo)
  | [] => .ok []
  | next :: rest => do
      let entry <- next
      let listed <- listEntry tools faults id vault entry
      let later <- listEntries rest
      .ok (listed.toList ++ later)

/-- List the backups in the directory of a server, which need not be there. -/
def listLocal (directory : LocalDirectory) : Except Failure (List BackupInfo) := do
  let _ <- Paths.backupDir tools.environment id
  match directory with
  | .error (.io .notFound) => .ok []
  | .error failure => .error failure
  | .ok entries => listEntries tools faults id vault entries

/-- Each backup is found when it is to be used. -/
def Findable (uuid : Text) (infos : List BackupInfo) : Prop :=
  forall info, info ∈ infos -> Exists fun prepared =>
    prepare tools (faults info.backupId) uuid id info.backupId "local".toList vault = .ok prepared

/-- The backups can be listed, and each one in the listing is found. -/
def ListedAreFound (uuid : Text) (directory : LocalDirectory) : Prop :=
  Exists fun infos => listLocal tools faults id vault directory = .ok infos /\
    Findable tools faults id vault uuid infos

/-- The metadata of a backup is there and can be read. -/
structure Described (backupId : Text) (info : BackupInfo) : Prop where
  valid : Paths.validateBackupId backupId = .ok ()
  readable : faults backupId .readMetadata = none
  content : Exists fun data =>
    vault.files (Paths.backupsBase tools.environment ++ [id] ++ [backupId ++ ".json".toList]) = some data /\
      tools.decode data = some info

/-- A file that is no archive, or one with metadata of a backup with metadata. -/
def Accounted (entry : LocalEntry) : Prop :=
  forall backupId, entry.backupId = some backupId -> Exists fun info =>
    Described tools faults id vault backupId info /\ Exists fun own => Described tools faults id vault info.backupId own

/-- The directory is not there, or all its archives have metadata. -/
structure AllDescribed (directory : LocalDirectory) : Prop where
  valid : Paths.validateId id = .ok ()
  accounted : directory = .error (.io .notFound) \/ Exists fun entries : List LocalEntry =>
    directory = .ok (entries.map Except.ok) /\ forall entry, entry ∈ entries -> Accounted tools faults id vault entry

end Listing

section Lookup

variable {tools : BackupTools} {faults : Text -> BackupFaults} {id : Text} {vault : Vault}

theorem readMetadata_some {backupId : Text} {info : BackupInfo} (valid : Paths.validateId id = .ok ()) :
    readMetadata tools (faults backupId) id backupId vault = .ok (some info) <->
      Described tools faults id vault backupId info := by
  rw [readMetadata_eq_ok]
  constructor
  · rintro ⟨unfailing, path, located, decoded⟩
    rcases Paths.metadataPath_eq_ok.mp located with ⟨validBackup, _, rfl⟩
    rcases Option.bind_eq_some_iff.mp decoded with ⟨data, held, decodes⟩
    exact ⟨validBackup, unfailing, data, held, decodes⟩
  · rintro ⟨validBackup, readable, data, held, decoded⟩
    exact ⟨readable, _, Paths.metadataPath_eq_ok.mpr ⟨validBackup, valid, rfl⟩,
      Option.bind_eq_some_iff.mpr ⟨data, held, decoded⟩⟩

/-- A local backup is found when its metadata is. -/
theorem prepare_local_found {uuid backupId : Text} (valid : Paths.validateId id = .ok ()) :
    (Exists fun prepared => prepare tools (faults backupId) uuid id backupId "local".toList vault = .ok prepared) <->
      Exists fun info => Described tools faults id vault backupId info := by
  constructor
  · rintro ⟨prepared, ran⟩
    rcases prepare_local.mp ran with ⟨info, found, _⟩
    exact ⟨info, (readMetadata_some valid).mp ((find_local_eq_ok (by decide)).mp found).2⟩
  · rintro ⟨info, described⟩
    have found : find tools (faults backupId) id backupId "local".toList vault = .ok (some info) :=
      (find_local_eq_ok (by decide)).mpr ⟨described.valid, (readMetadata_some valid).mpr described⟩
    exact ⟨_, prepare_local.mpr ⟨info, found, _, Paths.archivePath_eq_ok.mpr ⟨described.valid, valid, rfl⟩, rfl⟩⟩

/-- What is listed of a file is found exactly when the file is accounted for. -/
theorem listEntry_found {uuid : Text} (valid : Paths.validateId id = .ok ()) (entry : LocalEntry) :
    (Exists fun listed => listEntry tools faults id vault entry = .ok listed /\
      Findable tools faults id vault uuid listed.toList) <-> Accounted tools faults id vault entry := by
  unfold listEntry Accounted
  cases entry.backupId with
  | none => exact ⟨fun _ => nofun, fun _ => ⟨none, rfl, nofun⟩⟩
  | some backupId =>
      constructor
      · rintro ⟨listed, ran, found⟩ own same
        cases same
        rcases bind_eq_ok.mp ran with ⟨known, read, ran⟩
        cases known with
        | none =>
            -- the invented entry is not found, for the metadata is not there
            rcases bind_eq_ok.mp ran with ⟨⟨size, createdAt⟩, _, invented⟩
            cases invented
            rcases (prepare_local_found valid).mp (found _ List.mem_cons_self) with ⟨info, described⟩
            have there := (readMetadata_some valid).mpr described
            exact absurd (read.symm.trans there) nofun
        | some info =>
            cases ran
            exact ⟨info, (readMetadata_some valid).mp read,
              (prepare_local_found valid).mp (found info List.mem_cons_self)⟩
      · intro accounted
        rcases accounted backupId rfl with ⟨info, described, own⟩
        refine ⟨some info, bind_eq_ok.mpr ⟨_, (readMetadata_some valid).mpr described, rfl⟩, ?_⟩
        intro other member
        rw [List.mem_singleton.mp member]
        exact (prepare_local_found valid).mpr own

theorem listEntries_found {uuid : Text} (valid : Paths.validateId id = .ok ())
    (entries : List (Except Failure LocalEntry)) :
    (Exists fun infos => listEntries tools faults id vault entries = .ok infos /\
      Findable tools faults id vault uuid infos) <->
      Exists fun files : List LocalEntry => entries = files.map Except.ok /\
        forall entry, entry ∈ files -> Accounted tools faults id vault entry := by
  induction entries with
  | nil => exact ⟨fun _ => ⟨[], rfl, nofun⟩, fun _ => ⟨[], rfl, nofun⟩⟩
  | cons next rest induction =>
      constructor
      · rintro ⟨infos, ran, found⟩
        rcases bind_eq_ok.mp ran with ⟨entry, isEntry, ran⟩
        rcases bind_eq_ok.mp ran with ⟨listed, first, ran⟩
        rcases bind_eq_ok.mp ran with ⟨later, others, same⟩
        cases same
        have foundFirst := (listEntry_found valid entry).mp
          ⟨listed, first, fun info member => found info (List.mem_append_left _ member)⟩
        rcases induction.mp ⟨later, others, fun info member => found info (List.mem_append_right _ member)⟩ with
          ⟨files, areFiles, accounted⟩
        refine ⟨entry :: files, ?_, List.forall_mem_cons.mpr ⟨foundFirst, accounted⟩⟩
        rw [isEntry, areFiles, List.map_cons]
      · rintro ⟨files, areFiles, accounted⟩
        cases files with
        | nil => cases areFiles
        | cons entry files =>
            rcases List.cons.inj areFiles with ⟨isEntry, areFiles⟩
            have both := List.forall_mem_cons.mp accounted
            rcases (listEntry_found valid entry).mpr both.1 with ⟨listed, first, foundFirst⟩
            rcases induction.mpr ⟨files, areFiles, both.2⟩ with ⟨later, others, foundLater⟩
            refine ⟨listed.toList ++ later, ?_, ?_⟩
            · exact bind_eq_ok.mpr ⟨entry, isEntry, bind_eq_ok.mpr ⟨listed, first, bind_eq_ok.mpr ⟨later, others, rfl⟩⟩⟩
            · intro info member
              rcases List.mem_append.mp member with inFirst | inLater
              · exact foundFirst info inFirst
              · exact foundLater info inLater

end Lookup

/-- The listing of the local backups succeeds and each entry is found, exactly
when every archive in the directory has metadata, of a backup that has metadata. -/
theorem listed_found_iff (tools : BackupTools) (faults : Text -> BackupFaults) (id uuid : Text) (vault : Vault)
    (directory : LocalDirectory) :
    ListedAreFound tools faults id vault uuid directory <-> AllDescribed tools faults id vault directory := by
  unfold ListedAreFound listLocal
  constructor
  · rintro ⟨infos, ran, found⟩
    rcases bind_eq_ok.mp ran with ⟨dir, inDir, ran⟩
    have valid := (Paths.backupDir_eq_ok.mp inDir).1
    refine ⟨valid, ?_⟩
    split at ran
    · exact Or.inl rfl
    · cases ran
    · next entries _ =>
        rcases (listEntries_found valid entries).mp ⟨infos, ran, found⟩ with ⟨files, same, accounted⟩
        exact Or.inr ⟨files, congrArg Except.ok same, accounted⟩
  · rintro ⟨valid, missing | ⟨files, same, accounted⟩⟩
    · have inDir : Paths.backupDir tools.environment id = .ok _ := Paths.backupDir_eq_ok.mpr ⟨valid, rfl⟩
      rw [missing]
      exact ⟨[], bind_eq_ok.mpr ⟨_, inDir, rfl⟩, nofun⟩
    · have inDir : Paths.backupDir tools.environment id = .ok _ := Paths.backupDir_eq_ok.mpr ⟨valid, rfl⟩
      rcases (listEntries_found valid (files.map Except.ok)).mpr ⟨files, rfl, accounted⟩ with ⟨infos, ran, found⟩
      rw [same]
      exact ⟨infos, bind_eq_ok.mpr ⟨_, inDir, ran⟩, found⟩

/-! ## An archive without metadata -/

/-- The one file of a directory. -/
def loneEntry (name : Text) : LocalEntry :=
  ⟨encodeUtf8 name, .ok (1, "2025-01-01T00:00:00+00:00".toList)⟩

/-- The agent with that file and no others. -/
def loneVault (name : Text) : Vault :=
  emptyVault.writeFile (sampleDir ++ [name]) [1]

theorem loneEntry_backupId (backupId : Text) :
    (loneEntry (backupId ++ ".tar.gz".toList)).backupId = some backupId := by
  rw [LocalEntry.backupId, Text.stripSuffix_eq_some]
  exact fromUtf8Lossy_encodeUtf8 _

/-- Its metadata is not there. -/
theorem loneVault_metadata {name backupId : Text} (validBackup : Paths.validateBackupId backupId = .ok ())
    (other : Not (backupId ++ ".json".toList = name)) :
    readMetadata sampleTools noFaults "server-1".toList backupId (loneVault name) = .ok none := by
  have located : Paths.metadataPath defaultEnvironment "server-1".toList backupId =
      .ok (sampleDir ++ [backupId ++ ".json".toList]) :=
    Paths.metadataPath_eq_ok.mpr ⟨validBackup, by decide, rfl⟩
  have absent : (loneVault name).files (sampleDir ++ [backupId ++ ".json".toList]) = none := by
    apply Vault.writeFile_other
    intro same
    exact other (List.singleton_inj.mp (List.append_cancel_left same))
  refine readMetadata_eq_ok.mpr ⟨rfl, _, located, ?_⟩
  rw [absent, Option.bind_none]

/-- An archive without metadata is listed and then not found, and one with
nothing in front of its ending keeps all from being listed. -/
theorem archive_without_metadata_not_found :
    (listLocal sampleTools (fun _ => noFaults) "server-1".toList (loneVault "world.tar.gz".toList)
          (.ok [.ok (loneEntry "world.tar.gz".toList)]) =
        .ok [inventedInfo "server-1".toList "world".toList "world.tar.gz".toList 1
          "2025-01-01T00:00:00+00:00".toList] /\
      prepare sampleTools noFaults [] "server-1".toList "world".toList "local".toList
          (loneVault "world.tar.gz".toList) = .error (.bail "Backup not found.")) /\
    listLocal sampleTools (fun _ => noFaults) "server-1".toList (loneVault ".tar.gz".toList)
      (.ok [.ok (loneEntry ".tar.gz".toList)]) = .error (.bail "Invalid backup id.") := by
  have inDir : Paths.backupDir defaultEnvironment "server-1".toList = .ok sampleDir :=
    Paths.backupDir_eq_ok.mpr ⟨by decide, rfl⟩
  have validBackup : Paths.validateBackupId "world".toList = .ok () := by decide
  have other : Not ("world".toList ++ ".json".toList = "world.tar.gz".toList) := by decide
  have absent := loneVault_metadata validBackup other
  refine ⟨⟨?_, ?_⟩, ?_⟩
  · have named : (loneEntry "world.tar.gz".toList).backupId = some "world".toList :=
      loneEntry_backupId "world".toList
    have listed : listEntry sampleTools (fun _ => noFaults) "server-1".toList (loneVault "world.tar.gz".toList)
        (loneEntry "world.tar.gz".toList) = .ok (some (inventedInfo "server-1".toList "world".toList
          "world.tar.gz".toList 1 "2025-01-01T00:00:00+00:00".toList)) := by
      unfold listEntry
      rw [named]
      refine bind_eq_ok.mpr ⟨none, absent, bind_eq_ok.mpr ⟨_, rfl, ?_⟩⟩
      rw [loneEntry, fromUtf8Lossy_encodeUtf8]
    exact bind_eq_ok.mpr ⟨_, inDir, bind_eq_ok.mpr ⟨_, rfl, bind_eq_ok.mpr ⟨_, listed, rfl⟩⟩⟩
  · have found : find sampleTools noFaults "server-1".toList "world".toList "local".toList
        (loneVault "world.tar.gz".toList) = .ok none :=
      (find_local_eq_ok (by decide)).mpr ⟨validBackup, absent⟩
    unfold prepare
    rw [found]
    rfl
  · have named : (loneEntry ".tar.gz".toList).backupId = some [] := loneEntry_backupId []
    have refused : listEntry sampleTools (fun _ => noFaults) "server-1".toList (loneVault ".tar.gz".toList)
        (loneEntry ".tar.gz".toList) = .error (.bail "Invalid backup id.") := by
      unfold listEntry
      rw [named]
      rfl
    have stopped : listEntries sampleTools (fun _ => noFaults) "server-1".toList (loneVault ".tar.gz".toList)
        [.ok (loneEntry ".tar.gz".toList)] = .error (.bail "Invalid backup id.") := by
      unfold listEntries
      dsimp only [bind, Except.bind]
      rw [refused]
    have directory : Paths.backupDir sampleTools.environment "server-1".toList = .ok sampleDir := inDir
    unfold listLocal
    rw [directory]
    exact stopped

end Storage
end Agapornis
