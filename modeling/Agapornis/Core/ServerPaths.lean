import Agapornis.Core.Paths

namespace Agapornis
namespace Core

open Foundations

/-!
# Where the files of a server lie

All servers share one base directory for their data and one for their
backups.  The paths of a server are put together from its id: its data
directory, two files in the metadata directory that all servers share, and
its backup directory.  A base directory is written as its place, the names on
the way down to it.
-/

/-- The variables which the process was started with. -/
structure Environment where
  serversDir : Option (List Text)
  backupsDir : Option (List Text)
  deriving DecidableEq, Repr

namespace Paths

variable (environment : Environment)

def baseServersDir : List Text :=
  environment.serversDir.getD ["var".toList, "lib".toList, "agapornis".toList, "servers".toList]

/-- The directory which holds the metadata files of all servers. -/
def metadataName : Text :=
  ".metadata".toList

def serverDir (id : Text) : Except Failure (List Text) := do
  validateId id
  .ok (baseServersDir environment ++ [id])

def diskLimitName (id : Text) : Text :=
  id ++ ".disk-limit".toList

def configFilesName (id : Text) : Text :=
  id ++ ".config-files.json".toList

def diskLimitPath (id : Text) : Except Failure (List Text) := do
  validateId id
  .ok (baseServersDir environment ++ [metadataName, diskLimitName id])

def configFilesPath (id : Text) : Except Failure (List Text) := do
  validateId id
  .ok (baseServersDir environment ++ [metadataName, configFilesName id])

def backupsBase : List Text :=
  environment.backupsDir.getD ["var".toList, "lib".toList, "agapornis".toList, "backups".toList]

def backupDir (id : Text) : Except Failure (List Text) := do
  validateId id
  .ok (backupsBase environment ++ [id])

def validateBackupId (id : Text) : Except Failure Unit :=
  refuseIf (id.isEmpty || decide (['.', '.'] <:+: id) || id.contains '/' || id.contains '\\')
    "Invalid backup id."

def archivePath (id backupId : Text) : Except Failure (List Text) := do
  validateBackupId backupId
  let dir <- backupDir environment id
  .ok (dir ++ [backupId ++ ".tar.gz".toList])

def metadataPath (id backupId : Text) : Except Failure (List Text) := do
  validateBackupId backupId
  let dir <- backupDir environment id
  .ok (dir ++ [backupId ++ ".json".toList])

variable {environment}

/-- A check in front of a path lets the path through exactly if it succeeds. -/
theorem checked_eq_ok {Result : Type} {check : Except Failure Unit} {value result : Result} :
    (do check; .ok value) = Except.ok result <-> check = .ok () /\ result = value := by
  rw [bind_eq_ok]
  constructor
  · rintro ⟨_, passed, same⟩
    cases same
    exact ⟨passed, rfl⟩
  · rintro ⟨passed, same⟩
    exact ⟨(), passed, by rw [same]⟩

theorem serverDir_eq_ok {id : Text} {dir : List Text} :
    serverDir environment id = .ok dir <->
      validateId id = .ok () /\ dir = baseServersDir environment ++ [id] :=
  checked_eq_ok

theorem diskLimitPath_eq_ok {id : Text} {path : List Text} :
    diskLimitPath environment id = .ok path <-> validateId id = .ok () /\
      path = baseServersDir environment ++ [metadataName, diskLimitName id] :=
  checked_eq_ok

theorem configFilesPath_eq_ok {id : Text} {path : List Text} :
    configFilesPath environment id = .ok path <-> validateId id = .ok () /\
      path = baseServersDir environment ++ [metadataName, configFilesName id] :=
  checked_eq_ok

theorem backupDir_eq_ok {id : Text} {dir : List Text} :
    backupDir environment id = .ok dir <->
      validateId id = .ok () /\ dir = backupsBase environment ++ [id] :=
  checked_eq_ok

/-- A file in the backup directory of a server. -/
theorem backupFile_eq_ok {id backupId name : Text} {path : List Text} :
    (do
      validateBackupId backupId
      let dir <- backupDir environment id
      .ok (dir ++ [name])) = Except.ok path <->
      validateBackupId backupId = .ok () /\ validateId id = .ok () /\
        path = backupsBase environment ++ [id] ++ [name] := by
  rw [check_eq_ok, bind_eq_ok]
  refine and_congr_right fun _ => ?_
  constructor
  · rintro ⟨dir, inDir, same⟩
    rcases backupDir_eq_ok.mp inDir with ⟨valid, rfl⟩
    exact ⟨valid, (Except.ok.inj same).symm⟩
  · rintro ⟨valid, rfl⟩
    exact ⟨_, backupDir_eq_ok.mpr ⟨valid, rfl⟩, rfl⟩

theorem archivePath_eq_ok {id backupId : Text} {path : List Text} :
    archivePath environment id backupId = .ok path <->
      validateBackupId backupId = .ok () /\ validateId id = .ok () /\
        path = backupsBase environment ++ [id] ++ [backupId ++ ".tar.gz".toList] :=
  backupFile_eq_ok

theorem metadataPath_eq_ok {id backupId : Text} {path : List Text} :
    metadataPath environment id backupId = .ok path <->
      validateBackupId backupId = .ok () /\ validateId id = .ok () /\
        path = backupsBase environment ++ [id] ++ [backupId ++ ".json".toList] :=
  backupFile_eq_ok

/-- Both files of a backup lie in the backup directory of the server. -/
theorem archivePath_below {id backupId : Text} {path : List Text}
    (accepted : archivePath environment id backupId = .ok path) :
    Exists fun dir => backupDir environment id = .ok dir /\ dir <+: path := by
  rcases archivePath_eq_ok.mp accepted with ⟨_, valid, rfl⟩
  exact ⟨_, backupDir_eq_ok.mpr ⟨valid, rfl⟩, List.prefix_append _ _⟩

theorem metadataPath_below {id backupId : Text} {path : List Text}
    (accepted : metadataPath environment id backupId = .ok path) :
    Exists fun dir => backupDir environment id = .ok dir /\ dir <+: path := by
  rcases metadataPath_eq_ok.mp accepted with ⟨_, valid, rfl⟩
  exact ⟨_, backupDir_eq_ok.mpr ⟨valid, rfl⟩, List.prefix_append _ _⟩

theorem no_slash_of_validateId {id : Text} (valid : validateId id = .ok ()) : '/' ∉ id := by
  intro slash
  simp [validateId, refuseIf, slash] at valid

/-! ## The names in the metadata directory -/

/-- The two names which the metadata files of a server have. -/
def metadataNames (id : Text) : List Text :=
  [diskLimitName id, configFilesName id]

theorem diskLimitName_ne_configFilesName (first second : Text) :
    Not (diskLimitName first = configFilesName second) := by
  intro same
  have limitEnd : (diskLimitName first).getLast? = some 't' := List.getLast?_append
  have configEnd : (configFilesName second).getLast? = some 'n' := List.getLast?_append
  rw [same, configEnd] at limitEnd
  exact absurd limitEnd (by decide)

/-- The metadata files of two servers have different names. -/
theorem eq_of_metadataName {first second name : Text} (ofFirst : name ∈ metadataNames first)
    (ofSecond : name ∈ metadataNames second) : first = second := by
  simp only [metadataNames, List.mem_cons, List.not_mem_nil, or_false] at ofFirst ofSecond
  rcases ofFirst with limit | config <;> rcases ofSecond with otherLimit | otherConfig
  · exact List.append_cancel_right (limit.symm.trans otherLimit)
  · exact absurd (limit.symm.trans otherConfig) (diskLimitName_ne_configFilesName first second)
  · exact absurd (otherLimit.symm.trans config) (diskLimitName_ne_configFilesName second first)
  · exact List.append_cancel_right (config.symm.trans otherConfig)

end Paths

end Core
end Agapornis
