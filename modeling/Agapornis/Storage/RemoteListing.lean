import Mathlib.Data.List.Sort
import Agapornis.Foundations.TextLines
import Agapornis.Storage.TrueBackups

namespace Agapornis
namespace Storage

open Foundations Agapornis.Core Deletion

/-!
# What a listing of the bucket shows

The bucket is asked once for the keys below the prefix of a server, and answers
with a page of them.  The listing is complete when no metadata is left for
another page.
-/

/-- The keys below a prefix in the order of the bucket. -/
def keysUnder (objects : Table Text Bytes) (start : Text) : List Text :=
  (objects.keys.filter (fun key => start.isPrefixOf key)).mergeSort (fun first second => decide (first ≤ second))

/-- A response has the first keys, a thousand at most. -/
structure BackupTools.Paged (tools : BackupTools) : Prop where
  first : forall objects start, tools.page objects start <+: keysUnder objects start
  most : forall objects start, (tools.page objects start).length <= 1000

theorem mem_keysUnder {objects : Table Text Bytes} {start key : Text} :
    key ∈ keysUnder objects start <-> (objects.lookup key).isSome = true /\ start <+: key := by
  rw [keysUnder, List.mem_mergeSort, List.mem_filter, List.isPrefixOf_iff_prefix, AList.lookup_isSome, AList.mem_keys]

theorem nodup_keysUnder (objects : Table Text Bytes) (start : Text) : (keysUnder objects start).Nodup := by
  rw [keysUnder, (List.mergeSort_perm _ _).nodup_iff]
  exact objects.keys_nodup.filter _

section Listing

variable (tools : BackupTools)

/-- The info in a metadata object. -/
def infoAt (objects : Table Text Bytes) (key : Text) : Option BackupInfo :=
  if ".metadata.json".toList.isSuffixOf key then (objects.lookup key).bind tools.decode else none

/-- The infos of all metadata objects of a server. -/
def storedInfos (objects : Table Text Bytes) (id : Text) : List BackupInfo :=
  (keysUnder objects (objectPrefix tools.bucketPrefix id)).filterMap (infoAt tools objects)

/-- Every backup whose metadata can be read is listed and found. -/
def ListingComplete (id : Text) (vault : Vault) : Prop :=
  listRemote tools noFaults id vault = .ok (storedInfos tools vault.objects id) /\
    forall info, info ∈ storedInfos tools vault.objects id -> Exists fun found =>
      find tools noFaults id info.backupId "s3".toList vault = .ok (some found) /\ found.backupId = info.backupId

end Listing

section Pages

variable {tools : BackupTools} {id : Text} {vault : Vault}

/-- The infos of the objects with some keys, if these are there. -/
theorem metadataOf_present {keys : List Text}
    (present : forall key, key ∈ keys -> (vault.objects.lookup key).isSome = true) :
    metadataOf tools noFaults vault keys = .ok (keys.filterMap (infoAt tools vault.objects)) := by
  induction keys with
  | nil => rfl
  | cons key rest induction =>
      have later := induction fun other member => present other (List.mem_cons_of_mem key member)
      rcases Option.isSome_iff_exists.mp (present key List.mem_cons_self) with ⟨data, held⟩
      have got : getObject vault key = .ok data := by rw [getObject, held]
      rw [metadataOf, List.filterMap_cons, infoAt]
      split
      · next isMetadata =>
          rw [held, Option.bind_some]
          refine bind_eq_ok.mpr ⟨(), callOk_noFaults _, bind_eq_ok.mpr ⟨data, got, bind_eq_ok.mpr ⟨_, later, ?_⟩⟩⟩
          cases tools.decode data <;> rfl
      · next other => exact later

theorem listRemote_page (configured : tools.configured = true) (paged : tools.Paged) :
    listRemote tools noFaults id vault = .ok
      ((tools.page vault.objects (objectPrefix tools.bucketPrefix id)).filterMap (infoAt tools vault.objects)) := by
  rw [listRemote, configured]
  apply metadataOf_present
  intro key member
  exact (mem_keysUnder.mp ((paged.first _ _).subset member)).1

/-- Nothing is left out exactly when there is no info behind the page. -/
theorem page_infos (paged : tools.Paged) (start : Text) :
    (tools.page vault.objects start).filterMap (infoAt tools vault.objects) =
        (keysUnder vault.objects start).filterMap (infoAt tools vault.objects) <->
      forall key, key ∈ keysUnder vault.objects start -> (infoAt tools vault.objects key).isSome = true ->
        key ∈ tools.page vault.objects start := by
  rcases paged.first vault.objects start with ⟨rest, whole⟩
  have distinct := nodup_keysUnder vault.objects start
  rw [← whole] at distinct ⊢
  rw [List.filterMap_append, List.self_eq_append_right, List.filterMap_eq_nil_iff]
  constructor
  · intro nothing key member isInfo
    rcases List.mem_append.mp member with onPage | behind
    · exact onPage
    · rw [nothing key behind] at isInfo
      cases isInfo
  · intro shown key behind
    cases info : infoAt tools vault.objects key with
    | none => rfl
    | some _ =>
        have onPage := shown key (List.mem_append_right _ behind) (by rw [info]; rfl)
        exact absurd rfl ((List.nodup_append.mp distinct).2.2 key onPage key behind)

theorem find_listed {infos : List BackupInfo} (listed : listRemote tools noFaults id vault = .ok infos)
    {backupId : Text} :
    (Exists fun found => find tools noFaults id backupId "s3".toList vault = .ok (some found) /\
        found.backupId = backupId) <->
      Paths.validateBackupId backupId = .ok () /\ backupId ∈ infos.map BackupInfo.backupId := by
  have outcome : find tools noFaults id backupId "s3".toList vault =
      (Paths.validateBackupId backupId).bind fun _ =>
        .ok (infos.find? (fun info => decide (info.backupId = backupId))) := by
    rw [find, if_pos rfl, listed]
    rfl
  rw [outcome]
  constructor
  · rintro ⟨found, ran, named⟩
    rcases bind_eq_ok.mp ran with ⟨_, valid, same⟩
    refine ⟨valid, ?_⟩
    rw [← named]
    exact List.mem_map_of_mem (List.mem_of_find?_eq_some (Except.ok.inj same))
  · rintro ⟨valid, member⟩
    rcases List.mem_map.mp member with ⟨info, inside, named⟩
    have present : (infos.find? (fun info => decide (info.backupId = backupId))).isSome = true :=
      List.find?_isSome.mpr ⟨info, inside, decide_eq_true named⟩
    rcases Option.isSome_iff_exists.mp present with ⟨found, isFound⟩
    refine ⟨found, ?_, by simpa using List.find?_some isFound⟩
    rw [valid, isFound]
    rfl

end Pages

/-- A listing is complete exactly when the page has every metadata object that
can be read, and all of these have names which a search accepts. -/
theorem listing_complete_iff (tools : BackupTools) (paged : tools.Paged) (configured : tools.configured = true)
    (id : Text) (vault : Vault) :
    ListingComplete tools id vault <->
      forall key info, key ∈ keysUnder vault.objects (objectPrefix tools.bucketPrefix id) ->
        infoAt tools vault.objects key = some info ->
          key ∈ tools.page vault.objects (objectPrefix tools.bucketPrefix id) /\
            Paths.validateBackupId info.backupId = .ok () := by
  have listed : listRemote tools noFaults id vault = .ok _ := listRemote_page configured paged
  rw [ListingComplete, listed]
  constructor
  · rintro ⟨same, isFound⟩ key info inside read
    have whole := (page_infos paged _).mp (Except.ok.inj same) key inside (by rw [read]; rfl)
    have member : info ∈ storedInfos tools vault.objects id := List.mem_filterMap.mpr ⟨key, inside, read⟩
    exact ⟨whole, ((find_listed listed).mp (isFound info member)).1⟩
  · intro every
    have whole := (page_infos paged (objectPrefix tools.bucketPrefix id)).mpr fun key inside isInfo =>
      (Option.isSome_iff_exists.mp isInfo).elim fun info read => (every key info inside read).1
    refine ⟨congrArg Except.ok whole, ?_⟩
    intro info member
    rcases List.mem_filterMap.mp member with ⟨key, inside, read⟩
    refine (find_listed listed).mpr ⟨(every key info inside read).2, ?_⟩
    rw [whole]
    exact List.mem_map_of_mem member

/-! ## More backups than a page has keys -/

/-- The metadata of a backup of the byte 1 in the bucket. -/
def storedInfo (backupId createdAt : Text) (verified : Option Text) : BackupInfo where
  backupId := backupId
  serverId := "server-1".toList
  archiveName := backupId ++ ".tar.gz".toList
  sizeBytes := 1
  createdAt := createdAt
  checksumSha256 := "4bf5122f344554c53bde2ebb8cd2b7e3d1600ad631c385a5d7cce23c7785459a".toList
  checksumType := "sha256".toList
  storage := "s3".toList
  encrypted := false
  lastVerifiedAt := verified
  expiresAt := none

def jsonFront : Text := "\x7b\"BackupId\":\"".toList

def jsonMiddle : Text := '"' :: ",\"ServerId\":\"server-1\",\"ArchiveName\":\"".toList

def jsonCreated : Text := ".tar.gz\",\"SizeBytes\":1,\"CreatedAt\":\"".toList

def jsonVerified : Text :=
  '"' :: (",\"ChecksumSha256\":\"4bf5122f344554c53bde2ebb8cd2b7e3d1600ad631c385a5d7cce23c7785459a\"," ++
    "\"ChecksumType\":\"sha256\",\"Storage\":\"s3\",\"Encrypted\":false,\"LastVerifiedAt\":").toList

def jsonBack : Text := ",\"ExpiresAt\":null\x7d".toList

def jsonTime : Option Text -> Text
  | none => "null".toList
  | some time => '"' :: (time ++ ['"'])

def jsonHead (backupId : Text) : Text :=
  jsonFront ++ (backupId ++ (jsonMiddle ++ (backupId ++ jsonCreated)))

def storedJson (backupId createdAt : Text) (verified : Option Text) : Text :=
  jsonHead backupId ++ (createdAt ++ (jsonVerified ++ (jsonTime verified ++ jsonBack)))

/-- No quotation mark has to be escaped. -/
def Unquoted (backupId createdAt : Text) (verified : Option Text) : Prop :=
  '"' ∉ backupId /\ '"' ∉ createdAt /\ forall time, verified = some time -> '"' ∉ time

theorem parts_of_quoted {first second front back : Text} (firstPlain : '"' ∉ first) (secondPlain : '"' ∉ second)
    (same : first ++ '"' :: front = second ++ '"' :: back) : first = second /\ front = back :=
  parts_of_separator firstPlain secondPlain same

theorem jsonTime_injective {first second : Option Text} (firstPlain : forall time, first = some time -> '"' ∉ time)
    (secondPlain : forall time, second = some time -> '"' ∉ time)
    (same : jsonTime first ++ jsonBack = jsonTime second ++ jsonBack) :
    first = second := by
  have times := List.append_cancel_right same
  cases first with
  | none =>
      cases second with
      | none => rfl
      | some other => exact absurd (List.cons.inj times).1 (by decide)
  | some time =>
      cases second with
      | none => exact absurd (List.cons.inj times).1 (by decide)
      | some other =>
          exact congrArg some (parts_of_quoted (firstPlain time rfl) (secondPlain other rfl) (List.cons.inj times).2).1

/-- The quotation marks that end the texts in the metadata. -/
theorem storedJson_quotes (backupId createdAt : Text) (verified : Option Text) :
    storedJson backupId createdAt verified =
      jsonFront ++ (backupId ++ '"' :: (jsonMiddle.tail ++ (backupId ++ (jsonCreated ++
        (createdAt ++ '"' :: (jsonVerified.tail ++ (jsonTime verified ++ jsonBack))))))) := by
  unfold storedJson jsonHead jsonMiddle jsonVerified
  rw [List.append_assoc, List.append_assoc, List.append_assoc, List.append_assoc, List.cons_append, List.cons_append,
    List.tail_cons, List.tail_cons]

/-- The metadata of two backups differ where the backups do. -/
theorem storedJson_injective {first second firstTime secondTime : Text} {firstVerified secondVerified : Option Text}
    (firstPlain : Unquoted first firstTime firstVerified) (secondPlain : Unquoted second secondTime secondVerified)
    (same : storedJson first firstTime firstVerified = storedJson second secondTime secondVerified) :
    first = second /\ firstTime = secondTime /\ firstVerified = secondVerified := by
  rw [storedJson_quotes, storedJson_quotes] at same
  rcases parts_of_quoted firstPlain.1 secondPlain.1 (List.append_cancel_left same) with ⟨ids, rest⟩
  subst ids
  have created := List.append_cancel_left (List.append_cancel_left (List.append_cancel_left rest))
  rcases parts_of_quoted firstPlain.2.1 secondPlain.2.1 created with ⟨times, verified⟩
  exact ⟨rfl, times, jsonTime_injective firstPlain.2.2 secondPlain.2.2 (List.append_cancel_left verified)⟩

/-- The format at such backups, and a stand-in for it elsewhere. -/
noncomputable def storedEncode (info : BackupInfo) : Bytes :=
  open Classical in
  if info = storedInfo info.backupId info.createdAt info.lastVerifiedAt /\
      Unquoted info.backupId info.createdAt info.lastVerifiedAt then
    encodeUtf8 (storedJson info.backupId info.createdAt info.lastVerifiedAt)
  else 0 :: List.replicate (exists_info_code.choose info) 0

theorem storedEncode_storedInfo {backupId createdAt : Text} {verified : Option Text}
    (plain : Unquoted backupId createdAt verified) :
    storedEncode (storedInfo backupId createdAt verified) = encodeUtf8 (storedJson backupId createdAt verified) :=
  if_pos ⟨rfl, plain⟩

theorem storedEncode_injective : Function.Injective storedEncode := by
  intro first second same
  have apart (backupId createdAt : Text) (verified : Option Text) (rest : Bytes) :
      Not (encodeUtf8 (storedJson backupId createdAt verified) = 0 :: rest) := by
    intro equal
    exact absurd (List.cons.inj equal).1 (by decide)
  unfold storedEncode at same
  split at same
  · next firstStored =>
      split at same
      · next secondStored =>
          rcases storedJson_injective firstStored.2 secondStored.2
            (encodeUtf8_injective same) with ⟨ids, times, verified⟩
          rw [firstStored.1, secondStored.1, ids, times, verified]
      · exact absurd same (apart _ _ _ _)
  · split at same
    · exact absurd same.symm (apart _ _ _ _)
    · have lengths := congrArg List.length same
      simp only [List.length_cons, List.length_replicate, Nat.add_right_cancel_iff] at lengths
      exact exists_info_code.choose_spec lengths

/-- Tools with pages of a thousand keys. -/
noncomputable def listingTools : BackupTools where
  environment := defaultEnvironment
  tempDir := ["tmp".toList, "agapornis-backups".toList]
  bucketPrefix := "agapornis".toList
  configured := true
  encryptionKey := .ok sampleCipher
  encode := storedEncode
  encodePretty := storedEncode
  decode := Function.partialInv storedEncode
  sha256 _ := "4bf5122f344554c53bde2ebb8cd2b7e3d1600ad631c385a5d7cce23c7785459a".toList
  validateArchive _ := .ok ()
  extract _ := .ok ()
  page objects start := (keysUnder objects start).take 1000
  filePrefix := List.replicate 8 0
  reads content := content.map (fun byte => [byte])

theorem listingTools_paged : listingTools.Paged where
  first _ _ := List.take_prefix _ _
  most _ _ := List.length_take_le _ _

theorem decode_storedInfo {backupId createdAt : Text} {verified : Option Text}
    (plain : Unquoted backupId createdAt verified) :
    listingTools.decode (encodeUtf8 (storedJson backupId createdAt verified)) =
      some (storedInfo backupId createdAt verified) := by
  rw [← storedEncode_storedInfo plain]
  exact Function.partialInv_left storedEncode_injective _

/-- The key and the metadata of a backup. -/
def storedRow (backupId createdAt : Text) : Sigma fun _ : Text => Bytes :=
  ⟨metadataKey "agapornis".toList "server-1".toList backupId, encodeUtf8 (storedJson backupId createdAt none)⟩

/-- A bucket with the metadata of some backups. -/
def stored (backups : List (Text × Text)) (distinct : (backups.map Prod.fst).Nodup) : Table Text Bytes :=
  ⟨backups.map fun backup => storedRow backup.1 backup.2, by
    rw [List.NodupKeys, List.keys, List.map_map]
    have apart : Function.Injective (metadataKey "agapornis".toList "server-1".toList) :=
      fun _ _ same => metadataKey_injective same
    have keyed := distinct.map apart
    rw [List.map_map] at keyed
    exact keyed⟩

section Stored

variable {backups : List (Text × Text)} {distinct : (backups.map Prod.fst).Nodup}

theorem infoAt_stored {backup : Text × Text} (member : backup ∈ backups)
    (plain : '"' ∉ backup.1 /\ '"' ∉ backup.2) :
    infoAt listingTools (stored backups distinct) (metadataKey "agapornis".toList "server-1".toList backup.1) =
      some (storedInfo backup.1 backup.2 none) := by
  have held : (stored backups distinct).lookup (metadataKey "agapornis".toList "server-1".toList backup.1) =
      some (encodeUtf8 (storedJson backup.1 backup.2 none)) := by
    have row : storedRow backup.1 backup.2 ∈ (stored backups distinct).entries :=
      List.mem_map.mpr ⟨backup, member, rfl⟩
    exact Table.mem_entries.mp row
  have isMetadata := List.isSuffixOf_iff_suffix.mpr (metadataKey_suffix "agapornis".toList "server-1".toList backup.1)
  rw [infoAt, if_pos isMetadata, held]
  exact decode_storedInfo ⟨plain.1, plain.2, nofun⟩

theorem keysUnder_stored :
    List.Perm (keysUnder (stored backups distinct) (objectPrefix "agapornis".toList "server-1".toList))
      (backups.map fun backup => metadataKey "agapornis".toList "server-1".toList backup.1) := by
  have own : (stored backups distinct).keys =
      backups.map fun backup => metadataKey "agapornis".toList "server-1".toList backup.1 := by
    rw [AList.keys, stored, List.keys, List.map_map]
    rfl
  rw [keysUnder]
  refine (List.mergeSort_perm _ _).trans ?_
  rw [own, List.filter_eq_self.mpr]
  intro key member
  rcases List.mem_map.mp member with ⟨backup, _, same⟩
  rw [← same, metadataKey, List.append_assoc, List.isPrefixOf_iff_prefix]
  exact List.prefix_append _ _

theorem storedInfos_stored (plain : forall backup, backup ∈ backups -> '"' ∉ backup.1 /\ '"' ∉ backup.2) :
    List.Perm (storedInfos listingTools (stored backups distinct) "server-1".toList)
      (backups.map fun backup => storedInfo backup.1 backup.2 none) := by
  refine (keysUnder_stored.filterMap _).trans ?_
  rw [List.filterMap_map]
  apply List.Perm.of_eq
  rw [← List.filterMap_eq_map]
  apply List.filterMap_congr
  intro backup member
  exact infoAt_stored member (plain backup member)

end Stored

/-- A complete listing has no more infos than a page has keys. -/
theorem length_of_complete {tools : BackupTools} (paged : tools.Paged) (configured : tools.configured = true)
    {id : Text} {vault : Vault} (complete : ListingComplete tools id vault) :
    (storedInfos tools vault.objects id).length <= 1000 := by
  have same := complete.1
  rw [listRemote_page configured paged] at same
  rw [← Except.ok.inj same]
  exact (List.length_filterMap_le _ _).trans (paged.most _ _)

def twoBackups : List (Text × Text) :=
  [("20250101-000000-00000001".toList, "2025-01-01T00:00:00+00:00".toList),
    ("20250102-000000-00000002".toList, "2025-01-02T00:00:00+00:00".toList)]

theorem listing_complete_iff_two :
    ListingComplete listingTools "server-1".toList ⟨fun _ => none, stored twoBackups (by decide)⟩ <->
      forall key info,
        key ∈ keysUnder (stored twoBackups (by decide)) (objectPrefix "agapornis".toList "server-1".toList) ->
        infoAt listingTools (stored twoBackups (by decide)) key = some info ->
          key ∈ listingTools.page (stored twoBackups (by decide)) (objectPrefix "agapornis".toList "server-1".toList) /\
            Paths.validateBackupId info.backupId = .ok () :=
  listing_complete_iff listingTools listingTools_paged rfl "server-1".toList
    ⟨fun _ => none, stored twoBackups (by decide)⟩

/-- One backup more than a page has keys. -/
def manyBackups : List (Text × Text) :=
  (List.range 1001).map fun index =>
    ("20250101-000000-".toList ++ Text.decimal index, "2025-01-01T00:00:00+00:00".toList)

theorem manyBackups_distinct : (manyBackups.map Prod.fst).Nodup := by
  rw [manyBackups, List.map_map]
  apply List.nodup_range.map
  intro first second same
  exact Text.decimal_injective (List.append_cancel_left same)

theorem manyBackups_plain : forall backup, backup ∈ manyBackups -> '"' ∉ backup.1 /\ '"' ∉ backup.2 := by
  intro backup member
  rcases List.mem_map.mp member with ⟨index, _, rfl⟩
  have plainTime : '"' ∉ "2025-01-01T00:00:00+00:00".toList := by decide
  refine ⟨?_, plainTime⟩
  rw [List.mem_append, not_or]
  exact ⟨by decide, Text.not_mem_decimal (by decide) index⟩

theorem thousand_and_one_not_listed :
    Not (ListingComplete listingTools "server-1".toList ⟨fun _ => none, stored manyBackups manyBackups_distinct⟩) := by
  intro complete
  have few := length_of_complete listingTools_paged rfl complete
  rw [(storedInfos_stored manyBackups_plain).length_eq, List.length_map, manyBackups, List.length_map,
    List.length_range] at few
  exact absurd few (by decide)

end Storage
end Agapornis
