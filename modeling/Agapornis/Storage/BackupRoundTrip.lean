import Agapornis.Storage.BackupSteps
import Agapornis.Storage.Separation

namespace Agapornis
namespace Storage

open Foundations Agapornis.Core Deletion

/-!
# Backups come back as they were

What a creation leaves at rest is followed through the upload, the check and
the deletion of old backups.  The keys of one server are told apart by their
endings, so that nothing but the metadata of the backup itself can answer for
it, and a listing which still finds it shows that its archive is still there.
-/

/-! ## Keys -/

/-- The last character of an archive's key tells whether it is encrypted. -/
theorem archiveKey_getLast (base id backupId : Text) (encrypted : Bool) :
    (archiveKey base id backupId encrypted).getLast? = some (if encrypted then 'p' else 'z') := by
  unfold archiveKey
  cases encrypted <;> simp [List.getLast?_append]

theorem archiveKey_injective {base id first second : Text} {left right : Bool}
    (same : archiveKey base id first left = archiveKey base id second right) :
    first = second /\ left = right := by
  have ends := congrArg List.getLast? same
  rw [archiveKey_getLast, archiveKey_getLast] at ends
  have equal : left = right := by
    cases left <;> cases right <;> simp at ends ⊢
  subst equal
  unfold archiveKey at same
  simp only [List.append_assoc, List.append_cancel_left_eq] at same
  exact ⟨List.append_cancel_right same, rfl⟩

theorem metadataKey_suffix (base id backupId : Text) :
    ".metadata.json".toList <:+ metadataKey base id backupId :=
  List.suffix_append _ _

theorem archiveKey_not_suffix (base id backupId : Text) (encrypted : Bool) :
    Not (".metadata.json".toList <:+ archiveKey base id backupId encrypted) := by
  rintro ⟨front, whole⟩
  have ends := congrArg List.getLast? whole
  rw [archiveKey_getLast] at ends
  cases encrypted <;> simp [List.getLast?_append] at ends

theorem archiveKey_ne_metadataKey (base id first second : Text) (encrypted : Bool) :
    Not (archiveKey base id first encrypted = metadataKey base id second) := by
  intro same
  exact archiveKey_not_suffix base id first encrypted (same ▸ metadataKey_suffix base id second)

theorem metadataKey_injective {base id first second : Text}
    (same : metadataKey base id first = metadataKey base id second) : first = second := by
  unfold metadataKey at same
  simp only [List.append_assoc, List.append_cancel_left_eq] at same
  exact List.append_cancel_right same

/-! ## What the bucket holds -/

variable {tools : BackupTools}

/-- The metadata objects of a server name the backups they are kept under. -/
def AgentWritten (tools : BackupTools) (id : Text) (objects : Table Text Bytes) : Prop :=
  forall key data info, objects.lookup key = some data -> objectPrefix tools.bucketPrefix id <+: key ->
    ".metadata.json".toList <:+ key -> tools.decode data = some info ->
    key = metadataKey tools.bucketPrefix id info.backupId

theorem AgentWritten.putArchive {id : Text} {objects : Table Text Bytes}
    (written : AgentWritten tools id objects) (backupId : Text) (encrypted : Bool) (content : Bytes) :
    AgentWritten tools id (objects.insert (archiveKey tools.bucketPrefix id backupId encrypted) content) := by
  intro key data info found below ending decoded
  have other : Not (key = archiveKey tools.bucketPrefix id backupId encrypted) :=
    fun same => archiveKey_not_suffix _ _ _ _ (same ▸ ending)
  rw [Table.lookup_insert_of_ne content other] at found
  exact written key data info found below ending decoded

theorem AgentWritten.putMetadata {id : Text} {objects : Table Text Bytes}
    (sound : tools.Sound) (written : AgentWritten tools id objects) (info : BackupInfo) :
    AgentWritten tools id
      (objects.insert (metadataKey tools.bucketPrefix id info.backupId) (tools.encode info)) := by
  intro key data other found below ending decoded
  by_cases same : key = metadataKey tools.bucketPrefix id info.backupId
  · rw [same, AList.lookup_insert] at found
    cases found
    rw [sound.decode_encode] at decoded
    cases decoded
    exact same
  · rw [Table.lookup_insert_of_ne _ same] at found
    exact written key data other found below ending decoded

theorem AgentWritten.erase {id : Text} {objects : Table Text Bytes}
    (written : AgentWritten tools id objects) (gone : Text) : AgentWritten tools id (objects.erase gone) := by
  intro key data info found below ending decoded
  have other : Not (key = gone) := by
    intro same
    rw [same, AList.lookup_erase] at found
    cases found
  rw [Table.lookup_erase_of_ne other] at found
  exact written key data info found below ending decoded

/-- The buckets that the writes of the agent lead to from an empty one. -/
inductive AgentBucket (tools : BackupTools) : Table Text Bytes -> Prop where
  | empty : AgentBucket tools ∅
  | archive {objects : Table Text Bytes} {id : Text} (held : AgentBucket tools objects)
      (valid : Paths.validateId id = .ok ()) (backupId : Text) (encrypted : Bool) (content : Bytes) :
      AgentBucket tools (objects.insert (archiveKey tools.bucketPrefix id backupId encrypted) content)
  | metadata {objects : Table Text Bytes} {id : Text} (held : AgentBucket tools objects)
      (valid : Paths.validateId id = .ok ()) (info : BackupInfo) :
      AgentBucket tools
        (objects.insert (metadataKey tools.bucketPrefix id info.backupId) (tools.encode info))
  | erased {objects : Table Text Bytes} (held : AgentBucket tools objects) (gone : Text) :
      AgentBucket tools (objects.erase gone)

/-- What another server's write does is not seen below the prefix. -/
theorem AgentWritten.foreign {id other : Text} {objects : Table Text Bytes}
    (written : AgentWritten tools id objects) (valid : Paths.validateId id = .ok ())
    (validOther : Paths.validateId other = .ok ()) (different : Not (other = id)) {key : Text}
    (ofOther : objectPrefix tools.bucketPrefix other <+: key) (content : Bytes) :
    AgentWritten tools id (objects.insert key content) := by
  intro place data info found below ending decoded
  have elsewhere : Not (place = key) := by
    intro same
    subst same
    exact objectPrefix_apart validOther valid different ofOther below
  rw [Table.lookup_insert_of_ne content elsewhere] at found
  exact written place data info found below ending decoded

theorem AgentBucket.written {objects : Table Text Bytes} (sound : tools.Sound)
    (held : AgentBucket tools objects) {id : Text} (valid : Paths.validateId id = .ok ()) :
    AgentWritten tools id objects := by
  induction held with
  | empty =>
      intro key data info found
      cases found
  | @archive objects other held validOther backupId encrypted content induction =>
      by_cases own : other = id
      · subst own
        exact induction.putArchive backupId encrypted content
      · refine induction.foreign valid validOther own ?_ content
        rw [archiveKey, List.append_assoc, List.append_assoc]
        exact List.prefix_append _ _
  | @metadata objects other held validOther info induction =>
      by_cases own : other = id
      · subst own
        exact induction.putMetadata sound info
      · refine induction.foreign valid validOther own ?_ _
        rw [metadataKey, List.append_assoc]
        exact List.prefix_append _ _
  | erased held gone induction => exact induction.erase gone

/-- An info in a listing is read from a metadata object among the keys. -/
theorem metadataOf_mem {faults : BackupFaults} {vault : Vault} {keys : List Text} :
    forall {infos : List BackupInfo} {info : BackupInfo},
      metadataOf tools faults vault keys = .ok infos -> info ∈ infos ->
      Exists fun key => key ∈ keys /\ ".metadata.json".toList <:+ key /\
        Exists fun data => vault.objects.lookup key = some data /\ tools.decode data = some info := by
  induction keys with
  | nil =>
      intro infos info listed member
      cases listed
      cases member
  | cons key rest induction =>
      intro infos info listed member
      by_cases ending : ".metadata.json".toList.isSuffixOf key = true
      · rcases (metadataOf_cons_eq_ok ending).mp listed with ⟨_, data, found, later, listedLater, rfl⟩
        rcases List.mem_append.mp member with own | inLater
        · exact ⟨key, List.mem_cons_self, List.isSuffixOf_iff_suffix.mp ending, data, found,
            Option.mem_toList.mp own⟩
        · rcases induction listedLater inLater with ⟨other, inKeys, rest⟩
          exact ⟨other, List.mem_cons_of_mem key inKeys, rest⟩
      · rw [metadataOf, if_neg ending] at listed
        rcases induction listed member with ⟨other, inKeys, rest⟩
        exact ⟨other, List.mem_cons_of_mem key inKeys, rest⟩

/-- A listing that succeeds is the listing without faults. -/
theorem metadataOf_noFaults {faults : BackupFaults} {vault : Vault} {keys : List Text} :
    forall {infos : List BackupInfo}, metadataOf tools faults vault keys = .ok infos ->
      metadataOf tools noFaults vault keys = .ok infos := by
  induction keys with
  | nil =>
      intro infos listed
      exact listed
  | cons key rest induction =>
      intro infos listed
      by_cases ending : ".metadata.json".toList.isSuffixOf key = true
      · rcases (metadataOf_cons_eq_ok ending).mp listed with ⟨_, data, found, later, listedLater, same⟩
        exact (metadataOf_cons_eq_ok ending).mpr ⟨rfl, data, found, later, induction listedLater, same⟩
      · rw [metadataOf, if_neg ending] at listed ⊢
        exact induction listed

theorem find_noFaults {faults : BackupFaults} {id backupId storage : Text} {vault : Vault}
    {found : Option BackupInfo} (ran : find tools faults id backupId storage vault = .ok found) :
    find tools noFaults id backupId storage vault = .ok found := by
  by_cases remote : storage = "s3".toList
  · subst remote
    rcases find_remote_eq_ok.mp ran with ⟨valid, infos, listed, same⟩
    rcases listRemote_eq_ok.mp listed with ⟨configured, _, read⟩
    exact find_remote_eq_ok.mpr ⟨valid, infos,
      listRemote_eq_ok.mpr ⟨configured, rfl, metadataOf_noFaults read⟩, same⟩
  · rcases (find_local_eq_ok remote).mp ran with ⟨valid, read⟩
    exact (find_local_eq_ok remote).mpr ⟨valid, readMetadata_eq_ok.mpr ⟨rfl, (readMetadata_eq_ok.mp read).2⟩⟩

/-- What is found in the bucket is the metadata kept under the backup's key. -/
theorem find_remote {faults : BackupFaults} {id backupId : Text} {vault : Vault} {info : BackupInfo}
    (sound : tools.Sound) (written : AgentWritten tools id vault.objects)
    (found : find tools faults id backupId "s3".toList vault = .ok (some info)) :
    info.backupId = backupId /\ Exists fun data =>
      vault.objects.lookup (metadataKey tools.bucketPrefix id backupId) = some data /\
        tools.decode data = some info := by
  rcases find_remote_eq_ok.mp found with ⟨_, infos, listed, isFound⟩
  have named : info.backupId = backupId := by simpa using List.find?_some isFound
  rcases listRemote_eq_ok.mp listed with ⟨_, _, listed⟩
  rcases metadataOf_mem listed (List.mem_of_find?_eq_some isFound) with
    ⟨key, onPage, ending, data, stored, decoded⟩
  have below := (sound.page_present _ _ key onPage).1
  have atKey := written key data info stored below ending decoded
  rw [named] at atKey
  exact ⟨named, data, atKey ▸ stored, decoded⟩

end Storage
end Agapornis
