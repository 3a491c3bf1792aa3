import Agapornis.Foundations.StableRank
import Agapornis.Storage.RemoteListing

namespace Agapornis
namespace Storage

open Foundations Agapornis.Core Deletion StableRank

/-!
# Which backups are retained

After a backup has been stored and checked, the listing of the bucket is sorted
by the times in the metadata, the later ones first and those with equal times
in the order of the listing, and all behind the first ones are deleted.  The
newest backups stay when not too many others stand ahead of them in that order.
-/

section Run

variable (tools : BackupTools)

/-- What the retention reads and leaves. -/
structure Retained (course : CreationCourse) (id : Text) (retention : Int) (encrypt : Bool) (vault stored : Vault)
    (listed : List BackupInfo) (after : Vault) : Prop where
  valid : Paths.validateId id = .ok ()
  stores : Exists fun plain => storeRemote tools course id encrypt plain
    (newInfo tools course id "s3".toList encrypt) (vault.writeFile plain course.archive) = .ok stored
  lists : listRemote tools course.listing id stored = .ok listed
  deletes : deleteOld tools course.deletion id 0 ((listed.mergeSort laterFirst).drop retention.toNat) stored = .ok after

/-- The new backup and those that were made before it, the latest first, as
many as are to be retained. -/
def newest (course : CreationCourse) (retention : Int) (others : List Text) : List Text :=
  course.backupId :: others.take (retention.toNat - 1)

/-- The objects of a backup. -/
def objectsOf (id backupId : Text) : List Text :=
  [metadataKey tools.bucketPrefix id backupId, archiveKey tools.bucketPrefix id backupId false,
    archiveKey tools.bucketPrefix id backupId true]

/-- The objects of some backups stay, and what goes are objects of other backups of the server. -/
structure Keeps (id : Text) (retained : List Text) (before after : Table Text Bytes) : Prop where
  kept : forall backupId, backupId ∈ retained -> forall key, key ∈ objectsOf tools id backupId ->
    after.lookup key = before.lookup key
  others : forall key, Not (after.lookup key = before.lookup key) -> after.lookup key = none /\
    Exists fun backupId => backupId ∉ retained /\ key ∈ objectsOf tools id backupId /\
      (before.lookup (metadataKey tools.bucketPrefix id backupId)).isSome = true

end Run

section Deletions

variable {tools : BackupTools} {id : Text}

theorem mem_objectsOf {key backupId : Text} : key ∈ objectsOf tools id backupId <->
    key = metadataKey tools.bucketPrefix id backupId \/
      Exists fun encrypted => key = archiveKey tools.bucketPrefix id backupId encrypted := by
  simp only [objectsOf, List.mem_cons, List.not_mem_nil, or_false, Bool.exists_bool]

/-- Two backups have no object in common. -/
theorem objectsOf_apart {key first second : Text} (inFirst : key ∈ objectsOf tools id first)
    (inSecond : key ∈ objectsOf tools id second) : first = second := by
  rcases mem_objectsOf.mp inFirst with isMetadata | ⟨encrypted, isArchive⟩
  · rcases mem_objectsOf.mp inSecond with same | ⟨_, same⟩
    · exact metadataKey_injective (isMetadata.symm.trans same)
    · exact absurd (same.symm.trans isMetadata) (archiveKey_ne_metadataKey _ _ _ _ _)
  · rcases mem_objectsOf.mp inSecond with same | ⟨_, same⟩
    · exact absurd (isArchive.symm.trans same) (archiveKey_ne_metadataKey _ _ _ _ _)
    · exact (archiveKey_injective (isArchive.symm.trans same)).1

/-- The objects that are deleted with a backup. -/
def deletedWith (tools : BackupTools) (id : Text) (old : BackupInfo) : List Text :=
  [archiveKey tools.bucketPrefix id old.backupId old.encrypted, metadataKey tools.bucketPrefix id old.backupId]

theorem deletedWith_subset {old : BackupInfo} {key : Text} (inside : key ∈ deletedWith tools id old) :
    key ∈ objectsOf tools id old.backupId := by
  rcases List.mem_cons.mp inside with isArchive | isMetadata
  · exact mem_objectsOf.mpr (Or.inr ⟨_, isArchive⟩)
  · exact mem_objectsOf.mpr (Or.inl (List.mem_singleton.mp isMetadata))

/-- Deletions take the objects of what they delete and no others. -/
theorem deleteOld_lookup {fault : Nat -> Option Failure} {olds : List BackupInfo} :
    forall {index : Nat} {vault after : Vault}, deleteOld tools fault id index olds vault = .ok after ->
      forall key,
        ((Exists fun old => old ∈ olds /\ key ∈ deletedWith tools id old) -> after.objects.lookup key = none) /\
        ((forall old, old ∈ olds -> key ∉ deletedWith tools id old) ->
          after.objects.lookup key = vault.objects.lookup key) := by
  induction olds with
  | nil =>
      intro index vault after ran key
      cases ran
      exact ⟨fun ⟨_, member, _⟩ => absurd member List.not_mem_nil, fun _ => rfl⟩
  | cons old rest induction =>
      intro index vault after ran key
      rw [deleteOld] at ran
      split at ran
      · cases ran
      · rcases induction ran key with ⟨gone, stays⟩
        have erased (outside : key ∉ deletedWith tools id old) :
            ((vault.objects.erase (archiveKey tools.bucketPrefix id old.backupId old.encrypted)).erase
              (metadataKey tools.bucketPrefix id old.backupId)).lookup key = vault.objects.lookup key := by
          have apart := not_or.mp (mt List.mem_cons.mpr outside)
          rw [Table.lookup_erase_of_ne fun same => apart.2 (List.mem_singleton.mpr same),
            Table.lookup_erase_of_ne apart.1]
        have absent (inside : key ∈ deletedWith tools id old) :
            ((vault.objects.erase (archiveKey tools.bucketPrefix id old.backupId old.encrypted)).erase
              (metadataKey tools.bucketPrefix id old.backupId)).lookup key = none := by
          by_cases isMetadata : key = metadataKey tools.bucketPrefix id old.backupId
          · rw [isMetadata]
            exact AList.lookup_erase _ _
          · rw [Table.lookup_erase_of_ne isMetadata]
            rcases List.mem_cons.mp inside with isArchive | same
            · rw [isArchive]
              exact AList.lookup_erase _ _
            · exact absurd (List.mem_singleton.mp same) isMetadata
        constructor
        · rintro ⟨other, member, inside⟩
          by_cases again : Exists fun later => later ∈ rest /\ key ∈ deletedWith tools id later
          · exact gone again
          · have untouched : forall later, later ∈ rest -> key ∉ deletedWith tools id later :=
              fun later inRest touched => again ⟨later, inRest, touched⟩
            rcases List.mem_cons.mp member with same | inRest
            · rw [stays untouched]
              exact absent (same ▸ inside)
            · exact absurd inside (untouched other inRest)
        · intro outside
          rw [stays fun later member => outside later (List.mem_cons_of_mem old member)]
          exact erased (outside old List.mem_cons_self)

end Deletions

/-! ## What the listing says of the newest -/

theorem laterFirst_transitive (first second third : BackupInfo) :
    laterFirst first second = true -> laterFirst second third = true -> laterFirst first third = true := by
  unfold laterFirst
  rw [decide_eq_true_eq, decide_eq_true_eq, decide_eq_true_eq]
  exact fun earlier later => le_trans later earlier

theorem laterFirst_total (first second : BackupInfo) : (laterFirst first second || laterFirst second first) = true := by
  unfold laterFirst
  rw [Bool.or_eq_true, decide_eq_true_eq, decide_eq_true_eq]
  exact le_total second.createdAt first.createdAt

section Retention

variable {tools : BackupTools} {id : Text}

/-- A listing that succeeds has the infos on the page. -/
theorem listed_eq {faults : BackupFaults} {vault : Vault} {listed : List BackupInfo} (paged : tools.Paged)
    (lists : listRemote tools faults id vault = .ok listed) :
    listed = (tools.page vault.objects (objectPrefix tools.bucketPrefix id)).filterMap
      (infoAt tools vault.objects) := by
  rcases listRemote_eq_ok.mp lists with ⟨_, _, lists⟩
  have whole := metadataOf_noFaults lists
  rw [metadataOf_present fun key member => (mem_keysUnder.mp ((paged.first _ _).subset member)).1] at whole
  exact (Except.ok.inj whole).symm

theorem infoAt_eq_some {objects : Table Text Bytes} {key : Text} {info : BackupInfo} :
    infoAt tools objects key = some info <-> ".metadata.json".toList <:+ key /\
      Exists fun data => objects.lookup key = some data /\ tools.decode data = some info := by
  rw [infoAt]
  split
  · next ending =>
      rw [Option.bind_eq_some_iff]
      exact (and_iff_right (List.isSuffixOf_iff_suffix.mp ending)).symm
  · next other =>
      constructor
      · intro impossible
        cases impossible
      · rintro ⟨ending, _⟩
        exact absurd (List.isSuffixOf_iff_suffix.mpr ending) other

variable {stored after : Vault} {listed : List BackupInfo} {faults : BackupFaults}

/-- An info in the listing is kept under the name of its backup. -/
theorem listed_key (paged : tools.Paged) (written : AgentWritten tools id stored.objects)
    (lists : listRemote tools faults id stored = .ok listed) {info : BackupInfo} (member : info ∈ listed) :
    infoAt tools stored.objects (metadataKey tools.bucketPrefix id info.backupId) = some info := by
  rw [listed_eq paged lists] at member
  rcases List.mem_filterMap.mp member with ⟨key, onPage, read⟩
  rcases infoAt_eq_some.mp read with ⟨ending, data, held, decoded⟩
  have below := (mem_keysUnder.mp ((paged.first _ _).subset onPage)).2
  rw [← written key data info held below ending decoded]
  exact read

theorem listed_nodup (paged : tools.Paged) (written : AgentWritten tools id stored.objects)
    (lists : listRemote tools faults id stored = .ok listed) : listed.Nodup := by
  rw [listed_eq paged lists]
  have onPage := (nodup_keysUnder stored.objects (objectPrefix tools.bucketPrefix id)).sublist (paged.first _ _).sublist
  have keyed (key : Text) (member : key ∈ tools.page stored.objects (objectPrefix tools.bucketPrefix id))
      (info : BackupInfo) (read : infoAt tools stored.objects key = some info) :
      key = metadataKey tools.bucketPrefix id info.backupId := by
    rcases infoAt_eq_some.mp read with ⟨ending, data, held, decoded⟩
    exact written key data info held (mem_keysUnder.mp ((paged.first _ _).subset member)).2 ending decoded
  generalize tools.page stored.objects (objectPrefix tools.bucketPrefix id) = keys at onPage keyed
  induction keys with
  | nil => exact List.nodup_nil
  | cons key rest induction =>
      have parts := List.nodup_cons.mp onPage
      have later := induction parts.2 fun other member => keyed other (List.mem_cons_of_mem key member)
      rw [List.filterMap_cons]
      split
      · exact later
      · next info read =>
          refine List.nodup_cons.mpr ⟨?_, later⟩
          intro again
          rcases List.mem_filterMap.mp again with ⟨other, member, same⟩
          have isKey := keyed key List.mem_cons_self info read
          rw [← keyed other (List.mem_cons_of_mem key member) info same] at isKey
          exact parts.1 (isKey ▸ member)

/-- Some backups stay exactly when fewer than the retained number stand ahead of
each of them that is listed. -/
theorem keeps_iff (paged : tools.Paged) (written : AgentWritten tools id stored.objects)
    (lists : listRemote tools faults id stored = .ok listed) {fault : Nat -> Option Failure} {count : Nat}
    (deletes : deleteOld tools fault id 0 ((listed.mergeSort laterFirst).drop count) stored = .ok after)
    (retained : List Text) :
    Keeps tools id retained stored.objects after.objects <->
      forall info, info ∈ listed -> info.backupId ∈ retained -> ahead laterFirst listed info < count := by
  have distinct := listed_nodup paged written lists
  have deleted {info : BackupInfo} (member : info ∈ listed) :
      info ∈ (listed.mergeSort laterFirst).drop count <-> count <= ahead laterFirst listed info :=
    mem_drop_mergeSort laterFirst_transitive laterFirst_total distinct member count
  have isListed {info : BackupInfo} (member : info ∈ (listed.mergeSort laterFirst).drop count) : info ∈ listed :=
    List.mem_mergeSort.mp (List.mem_of_mem_drop member)
  have outcome := deleteOld_lookup deletes
  constructor
  · intro keeps info member inside
    by_contra beyond
    have isDeleted := (deleted member).mpr (Nat.le_of_not_lt beyond)
    have gone := (outcome (metadataKey tools.bucketPrefix id info.backupId)).1
      ⟨info, isDeleted, List.mem_cons_of_mem _ List.mem_cons_self⟩
    rw [keeps.kept info.backupId inside _ (mem_objectsOf.mpr (Or.inl rfl))] at gone
    rcases infoAt_eq_some.mp (listed_key paged written lists member) with ⟨_, data, held, _⟩
    rw [gone] at held
    cases held
  · intro few
    have notRetained {info : BackupInfo} (member : info ∈ (listed.mergeSort laterFirst).drop count) :
        info.backupId ∉ retained := by
      intro inside
      have enough := (deleted (isListed member)).mp member
      have less := few info (isListed member) inside
      omega
    constructor
    · intro backupId inside key own
      apply (outcome key).2
      intro old member touched
      exact notRetained member (objectsOf_apart own (deletedWith_subset touched) ▸ inside)
    · intro key changed
      have touched : Exists fun old => old ∈ (listed.mergeSort laterFirst).drop count /\
        key ∈ deletedWith tools id old := by
        by_contra nothing
        exact changed ((outcome key).2 fun old member inside => nothing ⟨old, member, inside⟩)
      refine ⟨(outcome key).1 touched, ?_⟩
      rcases touched with ⟨old, member, inside⟩
      refine ⟨old.backupId, notRetained member, deletedWith_subset inside, ?_⟩
      rcases infoAt_eq_some.mp (listed_key paged written lists (isListed member)) with ⟨_, data, held, _⟩
      rw [held]
      rfl

end Retention

/-! ## The whole creation -/

section Creation

variable {tools : BackupTools}

/-- An upload writes the objects of its backup. -/
theorem upload_lookup {faults : BackupFaults} {id backupId : Text} {path : List Text} {info : BackupInfo}
    {encrypted : Bool} {vault after : Vault}
    (ran : upload tools faults id backupId path info encrypted vault = .ok after) {key : Text}
    (foreign : key ∉ objectsOf tools id backupId) : after.objects.lookup key = vault.objects.lookup key := by
  have apart := not_or.mp (mt mem_objectsOf.mpr foreign)
  rcases upload_eq_ok.mp ran with ⟨_, _, _, content, _, rfl⟩
  exact (Table.lookup_insert_of_ne _ apart.1).trans
    (Table.lookup_insert_of_ne _ fun isArchive => apart.2 ⟨encrypted, isArchive⟩)

/-- A check writes the metadata of its backup. -/
theorem verifyInner_lookup {faults : BackupFaults} {uuid now id backupId : Text} {vault after : Vault}
    (ran : verifyInner tools faults uuid now id backupId "s3".toList vault = .ok after) {key : Text}
    (foreign : key ∉ objectsOf tools id backupId) : after.objects.lookup key = vault.objects.lookup key := by
  have apart := not_or.mp (mt mem_objectsOf.mpr foreign)
  rcases verifyInner_eq_ok.mp ran with ⟨prepared, fetched, noted, content, verified⟩
  rcases prepare_remote verified.prepares with ⟨_, unchanged, _⟩
  rcases putMetadata_eq_ok.mp verified.notes_remote with ⟨_, _, written⟩
  rw [verified.objects, <- written]
  exact (Table.lookup_insert_of_ne _ apart.1).trans (congrArg _ unchanged)

variable {course : CreationCourse} {id : Text} {retention : Int} {encrypt : Bool}

/-- The new backup is in the bucket, and no other object has changed. -/
theorem storeRemote_rests {plain : List Text} {vault stored : Vault} (sound : tools.Sound)
    (valid : Paths.validateId id = .ok ()) (bucket : AgentBucket tools vault.objects)
    (present : vault.files plain = some course.archive)
    (ran : storeRemote tools course id encrypt plain (newInfo tools course id "s3".toList encrypt) vault = .ok stored) :
    (Exists fun bytes => AtRest tools id (checkedInfo tools course id encrypt) bytes stored.objects) /\
      forall key, key ∉ objectsOf tools id course.backupId -> stored.objects.lookup key = vault.objects.lookup key := by
  rcases storeRemote_atRest sound valid bucket present ran with ⟨_, bytes, rests, _⟩
  refine ⟨⟨bytes, rests⟩, ?_⟩
  intro key foreign
  rcases storeRemote_eq_ok.mp ran with ⟨path, source, uploaded, checked, encrypted, uploads, verifies, rfl⟩
  rcases uploadSource_stored sound present encrypted with ⟨unchanged, _⟩
  rw [discardFile_objects, discardFile_objects, verifyInner_lookup verifies foreign, upload_lookup uploads foreign,
    unchanged]

theorem create_retains {vault after : Vault} {info : BackupInfo} (positive : 0 < retention)
    (ran : create tools course id "s3".toList retention encrypt vault = .ok (info, after)) :
    Exists fun stored => Exists fun listed =>
      Retained tools course id retention encrypt vault stored listed after := by
  rcases create_cases ran with ⟨valid, ⟨isLocal, _⟩ | ⟨_, plain, making⟩⟩
  · exact absurd isLocal (by decide)
  · rcases createRemote_eq_ok.mp making with ⟨stored, stores, retains, _⟩
    unfold retain at retains
    rw [if_pos positive] at retains
    rcases bind_eq_ok.mp retains with ⟨listed, lists, deletes⟩
    rw [Int.max_eq_left (by omega)] at deletes
    exact ⟨stored, listed, valid, ⟨plain, stores⟩, lists, deletes⟩

end Creation

/-- A creation stores and checks its backup, and the retention then leaves the
newest backups alone and deletes only others, exactly when in the listing fewer
than the retained number stand ahead of each of the newest. -/
theorem newest_retained_iff (tools : BackupTools) (sound : tools.Sound) (paged : tools.Paged)
    {course : CreationCourse} {id : Text} {retention : Int} {encrypt : Bool} {vault : Vault}
    (bucket : AgentBucket tools vault.objects) (positive : 0 < retention) :
    (forall info after, create tools course id "s3".toList retention encrypt vault = .ok (info, after) ->
      Exists fun stored => Exists fun listed =>
        Retained tools course id retention encrypt vault stored listed after) /\
    forall stored listed after, Retained tools course id retention encrypt vault stored listed after ->
      ((Exists fun bytes => AtRest tools id (checkedInfo tools course id encrypt) bytes stored.objects) /\
        forall key, key ∉ objectsOf tools id course.backupId -> stored.objects.lookup key = vault.objects.lookup key) /\
      forall others,
        Keeps tools id (newest course retention others) stored.objects after.objects <->
          forall info, info ∈ listed -> info.backupId ∈ newest course retention others ->
            ahead laterFirst listed info < retention.toNat := by
  refine ⟨fun info after ran => create_retains positive ran, ?_⟩
  rintro stored listed after ⟨valid, ⟨plain, stores⟩, lists, deletes⟩
  have written : AgentBucket tools (vault.writeFile plain course.archive).objects := bucket
  have rests := storeRemote_rests sound valid written (Vault.writeFile_self _ _ _) stores
  refine ⟨rests, fun others => ?_⟩
  rcases rests.1 with ⟨bytes, atRest⟩
  exact keeps_iff paged (atRest.bucket.written sound valid) lists deletes _

/-! ## Runs without faults -/

section Succeeds

variable {tools : BackupTools} {id : Text} {info : BackupInfo} {bytes : Bytes} {vault : Vault}

/-- A backup at rest whose key is on the page is found. -/
theorem AtRest.found (sound : tools.Sound) (paged : tools.Paged) (configured : tools.configured = true)
    (valid : Paths.validateId id = .ok ()) (rests : AtRest tools id info bytes vault.objects)
    (validBackup : Paths.validateBackupId info.backupId = .ok ())
    (onPage : metadataKey tools.bucketPrefix id info.backupId ∈
      tools.page vault.objects (objectPrefix tools.bucketPrefix id)) :
    find tools noFaults id info.backupId "s3".toList vault = .ok (some info) := by
  have listed : listRemote tools noFaults id vault = .ok _ := listRemote_page configured paged
  have read : infoAt tools vault.objects (metadataKey tools.bucketPrefix id info.backupId) = some info :=
    infoAt_eq_some.mpr ⟨metadataKey_suffix _ _ _, _, rests.metadata, sound.decode_encode info⟩
  have member : info.backupId ∈ (List.filterMap (infoAt tools vault.objects)
      (tools.page vault.objects (objectPrefix tools.bucketPrefix id))).map BackupInfo.backupId :=
    List.mem_map_of_mem (List.mem_filterMap.mpr ⟨_, onPage, read⟩)
  rcases (find_listed listed).mpr ⟨validBackup, member⟩ with ⟨found, ran, _⟩
  rw [rests.find_eq sound valid ran] at ran
  exact ran

/-- A plain backup that is found, and is what its metadata says, passes the check. -/
theorem verifyInner_succeeds (configured : tools.configured = true) (uuid now : Text)
    (found : find tools noFaults id info.backupId "s3".toList vault = .ok (some info))
    (plainly : info.encrypted = false)
    (rests : AtRest tools id info bytes vault.objects)
    (checksum : hashEq (tools.sha256 bytes) info.checksumSha256 = true)
    (size : (bytes.length : Int) = info.sizeBytes) (lists : tools.validateArchive bytes = .ok ())
    (extracts : tools.extract bytes = .ok ()) :
    Exists fun after => verifyInner tools noFaults uuid now id info.backupId "s3".toList vault = .ok after := by
  have readFrom : ReadFrom tools bytes bytes info.encrypted := by
    rw [plainly]
    exact rfl
  rcases prepare_remote_succeeds uuid configured found rests.archive readFrom with ⟨prepared, fetched, preparation⟩
  rcases prepare_remote preparation with ⟨same, unchanged, other, held, archive, ofArchive, present⟩
  rw [found] at same
  have isInfo : info = prepared.info := Option.some.inj (Except.ok.inj same)
  rw [← isInfo, rests.archive] at held
  rw [← isInfo, plainly, ← Option.some.inj held] at ofArchive
  have isBytes : bytes = archive := ofArchive
  rw [← isBytes] at present
  have read : readFile fetched prepared.path = .ok bytes := readFile_eq_ok.mpr present
  have integrity : verifyIntegrity tools noFaults prepared.path prepared.info none fetched = .ok () := by
    unfold verifyIntegrity
    refine bind_eq_ok.mpr ⟨(), rfl, bind_eq_ok.mpr ⟨bytes, read, bind_eq_ok.mpr ⟨(), rfl, ?_⟩⟩⟩
    rw [← isInfo]
    refine bind_eq_ok.mpr ⟨(), refuseIf_eq_ok.mpr ?_, bind_eq_ok.mpr ⟨(), rfl, refuseIf_eq_ok.mpr ?_⟩⟩
    · rw [checksum, Bool.not_true, Bool.and_false]
    · exact decide_eq_false fun different => different size
  have noted : putMetadata tools noFaults id info.backupId { prepared.info with lastVerifiedAt := some now } fetched =
      .ok _ := putMetadata_eq_ok.mpr ⟨configured, rfl, rfl⟩
  exact ⟨_, verifyInner_eq_ok.mpr ⟨prepared, fetched, _, bytes, preparation, integrity, present, lists, rfl, extracts,
    noted, rfl⟩⟩

theorem deleteOld_succeeds (id : Text) (olds : List BackupInfo) : forall (index : Nat) (vault : Vault),
    Exists fun after => deleteOld tools (fun _ => none) id index olds vault = .ok after := by
  induction olds with
  | nil => exact fun index vault => ⟨vault, rfl⟩
  | cons old rest induction => exact fun index vault => induction (index + 1) _

/-- The keys below a prefix are no more than the known ones. -/
theorem length_keysUnder {objects : Table Text Bytes} {start : Text} {known : List Text}
    (covers : forall key, (objects.lookup key).isSome = true -> key ∈ known) :
    (keysUnder objects start).length <= known.length := by
  apply List.Subperm.length_le
  apply List.subperm_of_subset (nodup_keysUnder objects start)
  intro key member
  exact covers key (mem_keysUnder.mp member).1

end Succeeds

/-! ## A clock that was set back -/

theorem listingTools_sound : listingTools.Sound where
  decode_encode info := Function.partialInv_left storedEncode_injective info
  decode_encodePretty info := Function.partialInv_left storedEncode_injective info
  page_present objects start key onPage := by
    rcases mem_keysUnder.mp (List.mem_of_mem_take onPage) with ⟨held, below⟩
    exact ⟨below, held⟩
  prefix_length := rfl
  reads_whole content := by
    change (content.map (fun byte => [byte])).flatten = content
    induction content with
    | nil => rfl
    | cons byte rest induction => simp only [List.map_cons, List.flatten_cons, induction, List.singleton_append]
  reads_sizes content chunk inside := by
    rcases List.mem_map.mp inside with ⟨byte, _, same⟩
    subst same
    rw [List.length_singleton, maxChunk]
    omega

/-- The first backup was made before the clock was set back. -/
def firstBackup : BackupInfo :=
  storedInfo "20250103-000000-00000001".toList "2025-01-03T00:00:00+00:00".toList none

def secondBackup : BackupInfo :=
  storedInfo "20250101-000000-00000002".toList "2025-01-01T00:00:00+00:00".toList none

/-- A third backup, without faults. -/
def thirdCourse : CreationCourse where
  sourceExists := true
  archive := [1]
  backupId := "20250102-000000-00000003".toList
  uuid := "00000000-0000-4000-8000-000000000000".toList
  createdAt := "2025-01-02T00:00:00+00:00".toList
  verifiedAt := "2025-01-02T00:00:01+00:00".toList
  faults := noFaults
  verification := noFaults
  listing := noFaults
  deletion := fun _ => none
  lookup := noFaults

noncomputable def twoStored : Vault :=
  ⟨fun _ => none, AList.insert (metadataKey "agapornis".toList "server-1".toList secondBackup.backupId)
    (storedEncode secondBackup)
    (AList.insert (archiveKey "agapornis".toList "server-1".toList secondBackup.backupId false) [1]
      (AList.insert (metadataKey "agapornis".toList "server-1".toList firstBackup.backupId) (storedEncode firstBackup)
        (AList.insert (archiveKey "agapornis".toList "server-1".toList firstBackup.backupId false) [1] ∅)))⟩

theorem validServer : Paths.validateId "server-1".toList = .ok () := by decide

theorem twoStored_bucket : AgentBucket listingTools twoStored.objects :=
  (((@AgentBucket.empty listingTools).archive validServer firstBackup.backupId false [1]).metadata
    validServer firstBackup |>.archive validServer secondBackup.backupId false [1]).metadata validServer secondBackup

theorem newest_retained_iff_third :
    (forall info after, create listingTools thirdCourse "server-1".toList "s3".toList 2 false twoStored =
        .ok (info, after) ->
      Exists fun stored => Exists fun listed =>
        Retained listingTools thirdCourse "server-1".toList 2 false twoStored stored listed after) /\
    forall stored listed after,
      Retained listingTools thirdCourse "server-1".toList 2 false twoStored stored listed after ->
      ((Exists fun bytes =>
          AtRest listingTools "server-1".toList (checkedInfo listingTools thirdCourse "server-1".toList false) bytes
            stored.objects) /\
        forall key, key ∉ objectsOf listingTools "server-1".toList thirdCourse.backupId ->
          stored.objects.lookup key = twoStored.objects.lookup key) /\
      forall others,
        Keeps listingTools "server-1".toList (newest thirdCourse 2 others) stored.objects after.objects <->
          forall info, info ∈ listed -> info.backupId ∈ newest thirdCourse 2 others ->
            ahead laterFirst listed info < (2 : Int).toNat :=
  newest_retained_iff listingTools listingTools_sound listingTools_paged twoStored_bucket (by decide)

/-- The file of the third archive. -/
def thirdFile : List Text :=
  ["tmp".toList, "agapornis-backups".toList, "20250102-000000-00000003".toList ++ ".tar.gz".toList]

theorem twoStored_lookup_first :
    twoStored.objects.lookup (metadataKey "agapornis".toList "server-1".toList firstBackup.backupId) =
      some (storedEncode firstBackup) := by
  have apart : Not (metadataKey "agapornis".toList "server-1".toList firstBackup.backupId =
      metadataKey "agapornis".toList "server-1".toList secondBackup.backupId) :=
    fun same => absurd (metadataKey_injective same) (by decide)
  refine (Table.lookup_insert_of_ne _ apart).trans ?_
  refine (Table.lookup_insert_of_ne _ fun same => archiveKey_ne_metadataKey _ _ _ _ _ same.symm).trans ?_
  exact AList.lookup_insert _

theorem twoStored_lookup_second :
    twoStored.objects.lookup (metadataKey "agapornis".toList "server-1".toList secondBackup.backupId) =
      some (storedEncode secondBackup) :=
  AList.lookup_insert _

/-- The names of the backups whose metadata is there. -/
theorem twoStored_names {backupId : Text}
    (held : (twoStored.objects.lookup (metadataKey "agapornis".toList "server-1".toList backupId)).isSome = true) :
    backupId = firstBackup.backupId \/ backupId = secondBackup.backupId := by
  by_contra neither
  rcases not_or.mp neither with ⟨notFirst, notSecond⟩
  have noArchive (other : Text) : Not (metadataKey "agapornis".toList "server-1".toList backupId =
      archiveKey "agapornis".toList "server-1".toList other false) :=
    fun same => archiveKey_ne_metadataKey _ _ _ _ _ same.symm
  have absent : twoStored.objects.lookup (metadataKey "agapornis".toList "server-1".toList backupId) = none := by
    refine (Table.lookup_insert_of_ne _ fun same => notSecond (metadataKey_injective same)).trans ?_
    refine (Table.lookup_insert_of_ne _ (noArchive _)).trans ?_
    refine (Table.lookup_insert_of_ne _ fun same => notFirst (metadataKey_injective same)).trans ?_
    exact Table.lookup_insert_of_ne _ (noArchive _)
  rw [absent] at held
  cases held

/-- The two backups are still there, besides the objects of a third one. -/
def WithThird (objects : Table Text Bytes) : Prop :=
  forall key, key ∉ objectsOf listingTools "server-1".toList thirdCourse.backupId ->
    objects.lookup key = twoStored.objects.lookup key

section Third

variable {objects : Table Text Bytes}

/-- All keys fit on a page. -/
theorem page_all (covers : forall key, (objects.lookup key).isSome = true ->
      key ∈ objectsOf listingTools "server-1".toList thirdCourse.backupId ++ twoStored.objects.keys) (start : Text) :
    listingTools.page objects start = keysUnder objects start := by
  have few : (keysUnder objects start).length <=
      (objectsOf listingTools "server-1".toList thirdCourse.backupId ++ twoStored.objects.keys).length :=
    length_keysUnder covers
  have known :
      (objectsOf listingTools "server-1".toList thirdCourse.backupId ++ twoStored.objects.keys).length <= 7 := by
    decide
  exact List.take_of_length_le (few.trans (known.trans (by decide)))

theorem WithThird.covers (around : WithThird objects) (key : Text) (held : (objects.lookup key).isSome = true) :
    key ∈ objectsOf listingTools "server-1".toList thirdCourse.backupId ++ twoStored.objects.keys := by
  rw [List.mem_append]
  by_cases own : key ∈ objectsOf listingTools "server-1".toList thirdCourse.backupId
  · exact Or.inl own
  · rw [around key own] at held
    exact Or.inr (AList.mem_keys.mp (AList.lookup_isSome.mp held))

theorem metadata_foreign {backupId : Text} (other : Not (backupId = thirdCourse.backupId)) :
    metadataKey "agapornis".toList "server-1".toList backupId ∉
      objectsOf listingTools "server-1".toList thirdCourse.backupId := by
  intro own
  have here : metadataKey "agapornis".toList "server-1".toList backupId ∈
      objectsOf listingTools "server-1".toList backupId := mem_objectsOf.mpr (Or.inl rfl)
  exact other (objectsOf_apart here own)

end Third

/-- The third backup, and then once it has been checked. -/
noncomputable def thirdNew : BackupInfo :=
  newInfo listingTools thirdCourse "server-1".toList "s3".toList false

noncomputable def thirdBackup : BackupInfo :=
  checkedInfo listingTools thirdCourse "server-1".toList false

theorem third_uploaded : Exists fun uploaded =>
    upload listingTools noFaults "server-1".toList thirdCourse.backupId thirdFile thirdNew false
      (twoStored.writeFile thirdFile thirdCourse.archive) = .ok uploaded := by
  have present : (twoStored.writeFile thirdFile thirdCourse.archive).files thirdFile = some [1] :=
    Vault.writeFile_self _ _ _
  exact ⟨_, upload_eq_ok.mpr ⟨rfl, rfl, rfl, [1], present, rfl⟩⟩

/-- A third backup that is in the bucket is found. -/
theorem third_found {info : BackupInfo} {vault : Vault} {bytes : Bytes} (named : info.backupId = thirdCourse.backupId)
    (rests : AtRest listingTools "server-1".toList info bytes vault.objects)
    (covers : forall key, (vault.objects.lookup key).isSome = true ->
      key ∈ objectsOf listingTools "server-1".toList thirdCourse.backupId ++ twoStored.objects.keys) :
    find listingTools noFaults "server-1".toList info.backupId "s3".toList vault = .ok (some info) := by
  have validBackup : Paths.validateBackupId info.backupId = .ok () := by
    rw [named]
    decide +kernel
  apply AtRest.found listingTools_sound listingTools_paged rfl validServer rests validBackup
  have held := rests.metadata
  rw [page_all covers]
  refine mem_keysUnder.mpr ⟨Option.isSome_of_eq_some held, ?_⟩
  rw [metadataKey, List.append_assoc]
  exact List.prefix_append _ _

theorem third_stored : Exists fun stored =>
    storeRemote listingTools thirdCourse "server-1".toList false thirdFile thirdNew
      (twoStored.writeFile thirdFile thirdCourse.archive) = .ok stored := by
  have present : (twoStored.writeFile thirdFile thirdCourse.archive).files thirdFile = some [1] :=
    Vault.writeFile_self _ _ _
  have bucket : AgentBucket listingTools (twoStored.writeFile thirdFile thirdCourse.archive).objects := twoStored_bucket
  rcases third_uploaded with ⟨uploaded, upload⟩
  have rests : listingTools.configured = true /\
      AtRest listingTools "server-1".toList thirdNew [1] uploaded.objects :=
    upload_atRest validServer bucket present upload
  have around : WithThird uploaded.objects := fun key foreign => upload_lookup upload foreign
  have found := third_found rfl rests.2 around.covers
  have checksum : hashEq (listingTools.sha256 [1]) thirdNew.checksumSha256 = true := by decide +kernel
  have plainly : thirdNew.encrypted = false := rfl
  have size : (([1] : Bytes).length : Int) = thirdNew.sizeBytes := rfl
  rcases verifyInner_succeeds rfl thirdCourse.uuid thirdCourse.verifiedAt found plainly rests.2 checksum size rfl
    rfl with
    ⟨checked, verification⟩
  exact ⟨_, storeRemote_eq_ok.mpr ⟨thirdFile, _, uploaded, checked, rfl, upload, verification, rfl⟩⟩

section Deleted

variable {stored : Vault} {listed : List BackupInfo} {bytes : Bytes}
  (rests : AtRest listingTools "server-1".toList thirdBackup bytes stored.objects) (around : WithThird stored.objects)
  (lists : listRemote listingTools noFaults "server-1".toList stored = .ok listed)

include rests around in
/-- The metadata of the three backups. -/
theorem third_lookups :
    stored.objects.lookup (metadataKey "agapornis".toList "server-1".toList firstBackup.backupId) =
        some (storedEncode firstBackup) /\
      stored.objects.lookup (metadataKey "agapornis".toList "server-1".toList secondBackup.backupId) =
        some (storedEncode secondBackup) /\
      stored.objects.lookup (metadataKey "agapornis".toList "server-1".toList thirdCourse.backupId) =
        some (storedEncode thirdBackup) := by
  have firstForeign : Not (firstBackup.backupId = thirdCourse.backupId) := by decide
  have secondForeign : Not (secondBackup.backupId = thirdCourse.backupId) := by decide
  have first := around _ (metadata_foreign firstForeign)
  have second := around _ (metadata_foreign secondForeign)
  exact ⟨first.trans twoStored_lookup_first, second.trans twoStored_lookup_second, rests.metadata⟩

include rests around lists

/-- The listing has the metadata of the three backups. -/
theorem listed_three (info : BackupInfo) :
    info ∈ listed <-> info = firstBackup \/ info = secondBackup \/ info = thirdBackup := by
  have written := rests.bucket.written listingTools_sound validServer
  have decoded (other : BackupInfo) : listingTools.decode (storedEncode other) = some other :=
    listingTools_sound.decode_encode other
  rcases third_lookups rests around with ⟨first, second, third⟩
  have only {other : BackupInfo} {key : Text} (held : stored.objects.lookup key = some (storedEncode other))
      (read : infoAt listingTools stored.objects key = some info) : info = other := by
    rcases infoAt_eq_some.mp read with ⟨_, data, here, same⟩
    rw [held] at here
    rw [← Option.some.inj here, decoded] at same
    exact (Option.some.inj same).symm
  constructor
  · intro member
    have read := listed_key listingTools_paged written lists member
    by_cases isThird : info.backupId = thirdCourse.backupId
    · rw [isThird] at read
      exact Or.inr (Or.inr (only third read))
    · rcases infoAt_eq_some.mp read with ⟨_, data, here, _⟩
      have known := around _ (metadata_foreign isThird)
      have held := Option.isSome_of_eq_some (known.symm.trans here)
      rcases twoStored_names held with isFirst | isSecond
      · rw [isFirst] at read
        exact Or.inl (only first read)
      · rw [isSecond] at read
        exact Or.inr (Or.inl (only second read))
  · have present {other : BackupInfo} (held : stored.objects.lookup
        (metadataKey "agapornis".toList "server-1".toList other.backupId) = some (storedEncode other)) :
        other ∈ listed := by
      rw [listed_eq listingTools_paged lists, page_all around.covers]
      refine List.mem_filterMap.mpr ⟨_, mem_keysUnder.mpr ⟨Option.isSome_of_eq_some held, ?_⟩,
        infoAt_eq_some.mpr ⟨metadataKey_suffix _ _ _, _, held, decoded other⟩⟩
      rw [metadataKey, List.append_assoc]
      exact List.prefix_append _ _
    rintro (isFirst | isSecond | isThird)
    · exact isFirst ▸ present first
    · exact isSecond ▸ present second
    · exact isThird ▸ present third

theorem listed_perm : listed.Perm [firstBackup, secondBackup, thirdBackup] := by
  have distinct := listed_nodup listingTools_paged (rests.bucket.written listingTools_sound validServer) lists
  have names : ([firstBackup, secondBackup, thirdBackup].map BackupInfo.backupId).Nodup := by decide
  refine (List.perm_ext_iff_of_nodup distinct (List.Nodup.of_map _ names)).mpr fun info => ?_
  rw [listed_three rests around lists, List.mem_cons, List.mem_cons, List.mem_singleton]

/-- The first backup alone is ahead of the third. -/
theorem third_ahead : ahead laterFirst listed thirdBackup = 1 := by
  have first : laterFirst thirdBackup firstBackup = false := by decide
  have second : laterFirst secondBackup thirdBackup = false := by decide
  have later : laterFirst thirdBackup secondBackup = true := by decide
  have itself : laterFirst thirdBackup thirdBackup = true := by decide
  have strict : listed.countP (fun other => !laterFirst thirdBackup other) = 1 := by
    rw [(listed_perm rests around lists).countP_eq]
    simp only [List.countP_cons, List.countP_nil, first, later, itself, Bool.not_false, Bool.not_true,
      if_true, if_false, Bool.false_eq_true]
  have tied : (listed.takeWhile (fun other => decide (other ≠ thirdBackup))).countP
      (fun other => laterFirst thirdBackup other && laterFirst other thirdBackup) = 0 := by
    rw [List.countP_eq_zero]
    intro other inFront
    have apart := List.mem_takeWhile_imp (p := fun other => decide (other ≠ thirdBackup)) inFront
    rcases (listed_three rests around lists other).mp
      (List.takeWhile_subset _ inFront) with isFirst | isSecond | isThird
    · rw [isFirst, first, Bool.false_and]
      exact Bool.false_ne_true
    · rw [isSecond, second, Bool.and_false]
      exact Bool.false_ne_true
    · exact absurd isThird (of_decide_eq_true apart)
  rw [ahead, strict, tied]

/-- Both the other backups are ahead of the second. -/
theorem second_ahead : 2 <= ahead laterFirst listed secondBackup := by
  have first : laterFirst secondBackup firstBackup = false := by decide
  have third : laterFirst secondBackup thirdBackup = false := by decide
  have itself : laterFirst secondBackup secondBackup = true := by decide
  have strict : listed.countP (fun other => !laterFirst secondBackup other) = 2 := by
    rw [(listed_perm rests around lists).countP_eq]
    simp only [List.countP_cons, List.countP_nil, first, third, itself, Bool.not_false, Bool.not_true,
      if_true, if_false, Bool.false_eq_true]
  rw [ahead, strict]
  exact Nat.le_add_right 2 _

end Deleted

theorem third_created {stored after : Vault}
    (stores : storeRemote listingTools thirdCourse "server-1".toList false thirdFile thirdNew
      (twoStored.writeFile thirdFile thirdCourse.archive) = .ok stored)
    (retains : retain listingTools thirdCourse "server-1".toList 2 stored = .ok after)
    (found : find listingTools noFaults "server-1".toList thirdCourse.backupId "s3".toList after =
      .ok (some thirdBackup)) :
    create listingTools thirdCourse "server-1".toList "s3".toList 2 false twoStored = .ok (thirdBackup, after) := by
  have server : Paths.serverDir defaultEnvironment "server-1".toList = .ok _ :=
    Paths.serverDir_eq_ok.mpr ⟨validServer, rfl⟩
  refine create_eq_ok.mpr ⟨listingTools.tempDir, ⟨rfl, rfl, validServer, fun _ => rfl, rfl, ⟨_, server⟩, rfl, rfl, rfl,
    rfl, rfl, rfl⟩, ?_⟩
  rw [if_neg (by decide)]
  exact createRemote_eq_ok.mpr ⟨stored, stores, retains, found⟩

/-- The second backup is one of the two newest, and is deleted when the third
one is made.  Where one backup is to be retained the third is deleted itself. -/
theorem newer_backup_deleted : Exists fun stored => Exists fun listed => Exists fun after => Exists fun alone =>
    (create listingTools thirdCourse "server-1".toList "s3".toList 2 false twoStored = .ok (thirdBackup, after) /\
      Retained listingTools thirdCourse "server-1".toList 2 false twoStored stored listed after /\
        Not (Keeps listingTools "server-1".toList
          (newest thirdCourse 2 [secondBackup.backupId, firstBackup.backupId]) stored.objects after.objects)) /\
      Retained listingTools thirdCourse "server-1".toList 1 false twoStored stored listed alone /\
        Not (Keeps listingTools "server-1".toList
          (newest thirdCourse 1 [secondBackup.backupId, firstBackup.backupId]) stored.objects alone.objects) := by
  rcases third_stored with ⟨stored, stores⟩
  have bucket : AgentBucket listingTools (twoStored.writeFile thirdFile thirdCourse.archive).objects := twoStored_bucket
  rcases storeRemote_rests listingTools_sound validServer bucket (Vault.writeFile_self _ _ _) stores with
    ⟨⟨bytes, rests⟩, around⟩
  have around : WithThird stored.objects := around
  have rests : AtRest listingTools "server-1".toList thirdBackup bytes stored.objects := rests
  have written := rests.bucket.written listingTools_sound validServer
  have page : listRemote listingTools noFaults "server-1".toList stored = .ok _ :=
    listRemote_page rfl listingTools_paged
  obtain ⟨listed, lists⟩ : Exists fun listed =>
      listRemote listingTools noFaults "server-1".toList stored = .ok listed := ⟨_, page⟩
  obtain ⟨after, deletes⟩ : Exists fun after => deleteOld listingTools (fun _ => none) "server-1".toList 0
      ((listed.mergeSort laterFirst).drop 2) stored = .ok after := deleteOld_succeeds _ _ _ _
  obtain ⟨alone, deletesNew⟩ : Exists fun after => deleteOld listingTools (fun _ => none) "server-1".toList 0
      ((listed.mergeSort laterFirst).drop 1) stored = .ok after := deleteOld_succeeds _ _ _ _
  have thirdStays : Keeps listingTools "server-1".toList [thirdCourse.backupId] stored.objects after.objects := by
    refine (keeps_iff listingTools_paged written lists deletes _).mpr ?_
    intro info member isThird
    rcases (listed_three rests around lists info).mp member with isFirst | isSecond | same
    · rw [isFirst] at isThird
      exact absurd isThird (by decide)
    · rw [isSecond] at isThird
      exact absurd isThird (by decide)
    · rw [same, third_ahead rests around lists]
      exact Nat.one_lt_two
  have retains : retain listingTools thirdCourse "server-1".toList 2 stored = .ok after := by
    unfold retain
    rw [if_pos (by decide)]
    exact bind_eq_ok.mpr ⟨listed, lists, deletes⟩
  have restsAfter : AtRest listingTools "server-1".toList thirdBackup bytes after.objects := by
    rcases (retain_atRest rests retains).2 with gone | restsAfter
    · have own : metadataKey "agapornis".toList "server-1".toList thirdCourse.backupId ∈
          objectsOf listingTools "server-1".toList thirdCourse.backupId := List.mem_cons_self
      have kept := (thirdStays.kept thirdCourse.backupId List.mem_cons_self _ own).trans rests.metadata
      exact absurd (gone.symm.trans kept) nofun
    · exact restsAfter
  have covers (key : Text) (held : (after.objects.lookup key).isSome = true) :
      key ∈ objectsOf listingTools "server-1".toList thirdCourse.backupId ++ twoStored.objects.keys := by
    by_cases same : after.objects.lookup key = stored.objects.lookup key
    · rw [same] at held
      exact around.covers key held
    · rw [(thirdStays.others key same).1] at held
      cases held
  have found : find listingTools noFaults "server-1".toList thirdBackup.backupId "s3".toList after =
      .ok (some thirdBackup) := @third_found thirdBackup after bytes rfl restsAfter covers
  refine ⟨stored, listed, after, alone, ⟨third_created stores retains found, ?_, ?_⟩, ?_, ?_⟩
  · exact ⟨validServer, ⟨thirdFile, stores⟩, lists, deletes⟩
  · intro keeps
    have few := (keeps_iff listingTools_paged written lists deletes _).mp keeps secondBackup
      ((listed_three rests around lists _).mpr (Or.inr (Or.inl rfl)))
      (List.mem_cons_of_mem _ List.mem_cons_self)
    have enough := second_ahead rests around lists
    omega
  · exact ⟨validServer, ⟨thirdFile, stores⟩, lists, deletesNew⟩
  · intro keeps
    have few := (keeps_iff listingTools_paged written lists deletesNew _).mp keeps thirdBackup
      ((listed_three rests around lists _).mpr (Or.inr (Or.inr rfl))) List.mem_cons_self
    rw [third_ahead rests around lists] at few
    exact absurd few (Nat.lt_irrefl 1)

end Storage
end Agapornis
