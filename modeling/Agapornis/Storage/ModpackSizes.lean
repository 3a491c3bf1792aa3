import Agapornis.Foundations.RunRecords
import Agapornis.Storage.Modpack

namespace Agapornis
namespace Storage

open Foundations Agapornis.Core

/-!
# How much a modpack installation writes

The downloads of a pack are counted while they are received.  The overrides
are unpacked as they are.
-/

/-- The bytes that a call has written to a file. -/
def writtenBy : (request : PackCall) -> request.Reply -> List Nat
  | .create _ bytes, .ok () => [bytes.length]
  | _, _ => []

section Sizes

variable (listing : Listing Text Bytes) (tools : DownloadTools) (root : List Text)

/-- The sizes of the files an installation writes, in the order in which it writes them. -/
def writtenSizes (files : List PackFile) (archive : Except Failure (List (Except Failure ZipEntry)))
    (state : PackState) : List Nat :=
  (installFiles tools root files archive).record (performPack listing) writtenBy state

def chunkSize : Except Failure Bytes -> Nat
  | .ok chunk => chunk.length
  | .error _ => 0

/-- The bytes of a response. -/
def Response.size (response : Response) : Nat :=
  (response.chunks.map chunkSize).sum

/-- What a file of the manifest takes. -/
def downloadSizes (file : PackFile) : List Nat :=
  if file.1.isUnsupportedOnServer then []
  else match file.2 with
    | .ok response => [response.size]
    | .error _ => []

/-- The file an override is to be unpacked to, with its bytes. -/
def overrideFile (item : Override) : Option (PackTarget × Bytes) :=
  match item.entry with
  | .error _ => none
  | .ok entry =>
      match Text.stripPrefix item.front entry.name with
      | none => none
      | some relativeName =>
          match overrideNames entry relativeName with
          | .error _ => none
          | .ok names => if relativeName.isEmpty || entry.isDir then none
            else some (packTarget root names, entry.content)

/-- What an override takes. -/
def overrideSizes (item : Override) : List Nat :=
  (overrideFile root item).toList.map (fun file => file.2.length)

/-- What a pack takes as a whole. -/
def packSizes (files : List PackFile) (entries : List (Except Failure ZipEntry)) : List Nat :=
  files.flatMap downloadSizes ++ (overridesOf entries).flatMap (overrideSizes root)

/-- No file is too large, and together they are not. -/
structure WithinLimits (sizes : List Nat) : Prop where
  each : forall size, size ∈ sizes -> size <= maxFileBytes
  total : sizes.sum <= maxTotalBytes

/-- What is written is within the limits, and a pack that is not is refused. -/
structure LimitsRespected (files : List PackFile) (archive : Except Failure (List (Except Failure ZipEntry)))
    (state : PackState) : Prop where
  written : WithinLimits (writtenSizes listing tools root files archive state)
  refused : forall entries after, archive = .ok entries ->
    (installFiles tools root files archive).run (performPack listing) state = (.ok (), after) ->
      WithinLimits (packSizes root files entries)

/-- Whether the directory above a file can be made and its temporary file be created in it. -/
def Creatable (file : PackTarget × Bytes) (state : PackState) : Prop :=
  (performPack listing (.createDirAll file.1.parent) state).1 = .ok () /\
    (performPack listing (.create file.1.temporary file.2)
      (performPack listing (.createDirAll file.1.parent) state).2).1 = .ok ()

/-- Each override, when its turn comes and it can be created, fits in beside
what the files before it take. -/
def OverridesFit : List Nat -> List Override -> PackState -> Prop
  | _, [], _ => True
  | sizes, item :: rest, state =>
      (forall file, overrideFile root item = some file -> Creatable listing file state ->
        file.2.length <= maxFileBytes /\ sizes.sum + file.2.length <= maxTotalBytes) /\
      forall after, (extractOverride root item).run (performPack listing) state = (.ok (), after) ->
        OverridesFit (sizes ++ overrideSizes root item) rest after

end Sizes

section Files

variable {listing : Listing Text Bytes} {target : PackTarget} {tolerant : Bool} {bytes : Bytes} {ending : Ending}

/-- The calls that write nothing. -/
def Unwriting : PackCall -> Prop
  | .create _ _ => False
  | _ => True

theorem writtenBy_unwriting (request : PackCall) (reply : request.Reply) (unwriting : Unwriting request) :
    writtenBy request reply = [] := by
  cases request with
  | create path bytes => exact unwriting.elim
  | createDirAll path => rfl
  | tryExists path => rfl
  | removeFile path => rfl
  | rename source target => rfl

theorem finishFile_unwriting : (finishFile target tolerant ending).Only Unwriting := by
  cases ending with
  | interrupted failure => trivial
  | discarded failure => exact ⟨trivial, fun _ => trivial⟩
  | complete =>
      refine Program.only_bind ⟨trivial, fun _ => trivial⟩ fun found => ?_
      split
      · trivial
      · refine Program.only_bind (Program.only_required _ ⟨trivial, fun _ => trivial⟩) fun _ => ?_
        exact Program.only_required _ ⟨trivial, fun _ => trivial⟩
      · exact Program.only_required _ ⟨trivial, fun _ => trivial⟩

/-- What is written of a file that is put into its place: its bytes if it can
be created, and otherwise nothing, and then the installation fails. -/
theorem placeFile_record (state : PackState) :
    (Creatable listing (target, bytes) state ->
      (placeFile target tolerant bytes ending).record (performPack listing) writtenBy state = [bytes.length]) /\
    (Not (Creatable listing (target, bytes) state) ->
      (placeFile target tolerant bytes ending).record (performPack listing) writtenBy state = [] /\
        Exists fun failure => ((placeFile target tolerant bytes ending).run (performPack listing) state).1 =
          .error failure) := by
  unfold placeFile Creatable
  rw [Program.record_required_bind, Program.run_required_bind, Program.record_ask, Program.run_ask]
  dsimp only
  rcases performPack listing (.createDirAll target.parent) state with ⟨error | made, between⟩
  · exact ⟨fun creatable => absurd creatable.1 nofun, fun _ => ⟨rfl, _, rfl⟩⟩
  · dsimp only
    rw [Program.record_required_bind, Program.run_required_bind, Program.record_ask, Program.run_ask]
    rcases performPack listing (.create target.temporary bytes) between with ⟨error | created, after⟩
    · exact ⟨fun creatable => absurd creatable.2 nofun, fun _ => ⟨rfl, _, rfl⟩⟩
    · refine ⟨fun _ => ?_, fun uncreatable => absurd ⟨rfl, rfl⟩ uncreatable⟩
      dsimp only
      rw [Program.record_of_only writtenBy_unwriting finishFile_unwriting]
      rfl

/-- A file that has come to its place was complete and could be created. -/
theorem placeFile_ok {state : PackState}
    (ran : ((placeFile target tolerant bytes ending).run (performPack listing) state).1 = .ok ()) :
    ending = .complete /\ Creatable listing (target, bytes) state := by
  constructor
  · cases ending with
    | complete => rfl
    | interrupted failure =>
        unfold placeFile at ran
        rw [Program.run_required_bind] at ran
        split at ran
        · rw [Program.run_required_bind] at ran
          split at ran <;> cases ran
        · cases ran
        · cases ran
    | discarded failure =>
        unfold placeFile at ran
        rw [Program.run_required_bind] at ran
        split at ran
        · rw [Program.run_required_bind] at ran
          split at ran <;> cases ran
        · cases ran
        · cases ran
  · by_contra uncreatable
    rcases ((placeFile_record state).2 uncreatable).2 with ⟨failure, failed⟩
    rw [ran] at failed
    cases failed

end Files

/-! ## The downloads are counted -/

section Downloads

variable {listing : Listing Text Bytes} {tools : DownloadTools} {root : List Text}

/-- What is received of a file, given what was received of it and of all files before. -/
structure ReceivedWithin (bytes : Bytes) (before : Nat) (chunks : List (Except Failure Bytes)) (received : Received) :
    Prop where
  each : received.bytes.length <= maxFileBytes
  together : before + received.bytes.length <= maxTotalBytes + bytes.length
  whole : received.breakdown = none -> received.bytes.length = bytes.length + (chunks.map chunkSize).sum /\
    received.total = before + (chunks.map chunkSize).sum

theorem receive_within (chunks : List (Except Failure Bytes)) : forall {bytes : Bytes} {before : Nat},
    bytes.length <= maxFileBytes -> before <= maxTotalBytes ->
      ReceivedWithin bytes before chunks (receive bytes before chunks) := by
  induction chunks with
  | nil =>
      intro bytes before each within
      exact ⟨each, Nat.add_le_add_right within _, fun _ => ⟨rfl, rfl⟩⟩
  | cons next rest induction =>
      intro bytes before each within
      cases next with
      | error failure => exact ⟨each, Nat.add_le_add_right within _, nofun⟩
      | ok chunk =>
          rw [receive]
          split
          · exact ⟨each, Nat.add_le_add_right within _, nofun⟩
          · next fits =>
              rw [Bool.or_eq_true, decide_eq_true_eq, decide_eq_true_eq, not_or, Nat.not_lt, Nat.not_lt] at fits
              have eachNext : (bytes ++ chunk).length <= maxFileBytes := by
                rw [List.length_append]
                exact fits.1
              have later := induction eachNext fits.2
              have whole := later.whole
              have together := later.together
              rw [List.length_append] at whole together
              refine ⟨later.each, by omega, fun unbroken => ?_⟩
              rcases whole unbroken with ⟨size, counted⟩
              rw [List.map_cons, List.sum_cons, chunkSize, size, counted]
              omega

/-- The sizes of the files that are written while downloads are counted. -/
structure CountedFrom (before : Nat) (sizes wanted : List Nat) (outcome : Except Failure Nat) : Prop where
  each : forall size, size ∈ sizes -> size <= maxFileBytes
  together : before + sizes.sum <= maxTotalBytes
  whole : forall next, outcome = .ok next -> sizes = wanted /\ next = before + sizes.sum

theorem CountedFrom.nothing {before : Nat} (within : before <= maxTotalBytes) :
    CountedFrom before [] [] (.ok before) :=
  ⟨nofun, within, fun _ same => ⟨rfl, (Except.ok.inj same).symm⟩⟩

theorem downloadFile_counted {before : Nat} (room : before <= maxTotalBytes) {file : PackFile} (state : PackState)
    {download : Download} (prepared : prepareDownload tools file.1 file.2 = .ok download) :
    CountedFrom before ((downloadFile tools root before file).record (performPack listing) writtenBy state)
      [download.response.size] ((downloadFile tools root before file).run (performPack listing) state).1 := by
  unfold downloadFile
  rw [prepared]
  dsimp only
  have within : ReceivedWithin [] before download.response.chunks (receive [] before download.response.chunks) :=
    receive_within _ (Nat.zero_le _) room
  generalize receive [] before download.response.chunks = received at within ⊢
  have together := within.together
  rw [List.length_nil, Nat.add_zero] at together
  rw [Program.record_discard, Program.run_bind]
  have written := @placeFile_record listing (packTarget root download.names) false received.bytes
    (downloadEnding tools file.1 download received) state
  by_cases creatable : Creatable listing (packTarget root download.names, received.bytes) state
  · rw [written.1 creatable]
    refine ⟨fun size member => List.mem_singleton.mp member ▸ within.each, together, ?_⟩
    intro next ran
    split at ran
    · next placed =>
        have ending := (placeFile_ok (congrArg Prod.fst placed)).1
        have unbroken : received.breakdown = none := by
          unfold downloadEnding at ending
          split at ending
          · cases ending
          · cases ending
          · assumption
        rcases within.whole unbroken with ⟨size, counted⟩
        rw [List.length_nil, Nat.zero_add] at size
        rw [List.sum_singleton, size]
        exact ⟨rfl, (Except.ok.inj ran).symm.trans counted⟩
    · cases ran
  · rcases written.2 creatable with ⟨nothing, failure, failed⟩
    rw [nothing]
    refine ⟨nofun, room, ?_⟩
    intro next ran
    split at ran
    · next placed =>
        rw [placed] at failed
        cases failed
    · cases ran

theorem downloadSupported_counted {before : Nat} (within : before <= maxTotalBytes) (file : PackFile)
    (state : PackState) :
    CountedFrom before ((downloadSupported tools root before file).record (performPack listing) writtenBy state)
      (downloadSizes file) ((downloadSupported tools root before file).run (performPack listing) state).1 := by
  unfold downloadSupported downloadSizes
  cases file.1.isUnsupportedOnServer with
  | true => exact CountedFrom.nothing within
  | false =>
      rw [if_neg Bool.false_ne_true, if_neg Bool.false_ne_true]
      cases prepared : prepareDownload tools file.1 file.2 with
      | error failure =>
          unfold downloadFile
          rw [prepared]
          exact ⟨nofun, within, nofun⟩
      | ok download =>
          rw [(prepareDownload_eq_ok.mp prepared).2]
          exact downloadFile_counted within state prepared

theorem downloadFiles_counted (files : List PackFile) : forall {before : Nat}, before <= maxTotalBytes ->
    forall state : PackState,
      CountedFrom before ((Program.forEach (downloadSupported tools root) before files).record (performPack listing)
        writtenBy state) (files.flatMap downloadSizes)
        ((Program.forEach (downloadSupported tools root) before files).run (performPack listing) state).1 := by
  induction files with
  | nil => exact fun within state => CountedFrom.nothing within
  | cons file rest induction =>
      intro before within state
      have first := @downloadSupported_counted listing tools root before within file state
      change CountedFrom before ((downloadSupported tools root before file >>= fun next =>
          Program.forEach (downloadSupported tools root) next rest).record (performPack listing) writtenBy state) _
        ((downloadSupported tools root before file >>= fun next =>
          Program.forEach (downloadSupported tools root) next rest).run (performPack listing) state).1
      rw [Program.record_bind, Program.run_bind]
      rcases ran : (downloadSupported tools root before file).run
        (performPack listing) state with ⟨failure | next, after⟩
      · dsimp only
        rw [List.append_nil]
        exact ⟨first.each, first.together, nofun⟩
      · dsimp only
        rcases first.whole next (congrArg Prod.fst ran) with ⟨sizes, counted⟩
        have withinNext : next <= maxTotalBytes := counted ▸ first.together
        have later := induction withinNext after
        refine ⟨?_, ?_, ?_⟩
        · intro size member
          rcases List.mem_append.mp member with early | late
          · exact first.each size early
          · exact later.each size late
        · rw [List.sum_append, ← Nat.add_assoc, ← counted]
          exact later.together
        · intro last ranLast
          rcases later.whole last ranLast with ⟨others, total⟩
          constructor
          · rw [sizes, others, List.flatMap_cons]
          · rw [List.sum_append, ← Nat.add_assoc, ← counted]
            exact total

end Downloads

/-! ## The overrides are not -/

namespace WithinLimits

theorem front {sizes more : List Nat} (within : WithinLimits (sizes ++ more)) : WithinLimits sizes where
  each size member := within.each size (List.mem_append_left more member)
  total := by
    have total := within.total
    rw [List.sum_append] at total
    omega

/-- One more file. -/
theorem concat_iff {sizes : List Nat} {size : Nat} (within : WithinLimits sizes) :
    WithinLimits (sizes ++ [size]) <-> size <= maxFileBytes /\ sizes.sum + size <= maxTotalBytes := by
  constructor
  · intro both
    have total := both.total
    rw [List.sum_append, List.sum_singleton] at total
    exact ⟨both.each size (List.mem_append_right _ List.mem_cons_self), total⟩
  · rintro ⟨small, together⟩
    refine ⟨fun other member => ?_, ?_⟩
    · rcases List.mem_append.mp member with early | last
      · exact within.each other early
      · rw [List.mem_singleton.mp last]
        exact small
    · rw [List.sum_append, List.sum_singleton]
      exact together

end WithinLimits

section Overrides

variable {listing : Listing Text Bytes} {root : List Text}

/-- An override has a file that is put into its place, or writes nothing. -/
theorem extractOverride_cases (item : Override) :
    (Exists fun file => overrideFile root item = some file /\
      Exists fun ending => extractOverride root item = placeFile file.1 true file.2 ending) \/
    overrideFile root item = none /\ (extractOverride root item).Only Unwriting := by
  rcases item with ⟨front, failure | entry⟩
  · exact Or.inr ⟨rfl, trivial⟩
  · unfold overrideFile extractOverride
    dsimp only
    cases Text.stripPrefix front entry.name with
    | none => exact Or.inr ⟨rfl, trivial⟩
    | some relativeName =>
        unfold extractEntry
        dsimp only
        cases empty : relativeName.isEmpty with
        | true =>
            right
            constructor
            · split <;> rfl
            · trivial
        | false =>
            cases overrideNames entry relativeName with
            | error failure => exact Or.inr ⟨rfl, trivial⟩
            | ok names =>
                cases directory : entry.isDir with
                | true => exact Or.inr ⟨rfl, Program.only_required _ ⟨trivial, fun _ => trivial⟩⟩
                | false => exact Or.inl ⟨_, rfl, _, rfl⟩

/-- One override: what it writes is within the limits exactly when it fits. -/
theorem extractOverride_within {sizes : List Nat} (within : WithinLimits sizes) (item : Override) (state : PackState) :
    WithinLimits (sizes ++ (extractOverride root item).record (performPack listing) writtenBy state) <->
      forall file, overrideFile root item = some file -> Creatable listing file state ->
        file.2.length <= maxFileBytes /\ sizes.sum + file.2.length <= maxTotalBytes := by
  rcases @extractOverride_cases root item with ⟨file, isFile, ending, placed⟩ | ⟨noFile, unwriting⟩
  · rw [placed]
    by_cases creatable : Creatable listing file state
    · rw [(placeFile_record state).1 creatable, within.concat_iff]
      constructor
      · intro fits other same _
        rw [← Option.some.inj (isFile.symm.trans same)]
        exact fits
      · exact fun fits => fits file isFile creatable
    · rw [((placeFile_record state).2 creatable).1, List.append_nil]
      refine iff_of_true within ?_
      intro other same creatableOther
      rw [← Option.some.inj (isFile.symm.trans same)] at creatableOther
      exact absurd creatableOther creatable
  · rw [Program.record_of_only writtenBy_unwriting unwriting, List.append_nil, noFile]
    exact iff_of_true within nofun

/-- An override that is unpacked writes what it takes. -/
theorem extractOverride_whole {item : Override} {state : PackState}
    (ran : ((extractOverride root item).run (performPack listing) state).1 = .ok ()) :
    (extractOverride root item).record (performPack listing) writtenBy state = overrideSizes root item := by
  unfold overrideSizes
  rcases @extractOverride_cases root item with ⟨file, isFile, ending, placed⟩ | ⟨noFile, unwriting⟩
  · rw [placed] at ran ⊢
    rw [isFile]
    exact (placeFile_record state).1 (placeFile_ok ran).2
  · rw [noFile]
    exact Program.record_of_only writtenBy_unwriting unwriting state

theorem extractOverrides_within (items : List Override) : forall {sizes : List Nat}, WithinLimits sizes ->
    forall state : PackState,
      WithinLimits (sizes ++ (Program.forEach (fun (_ : Unit) item => extractOverride root item) () items).record
        (performPack listing) writtenBy state) <-> OverridesFit listing root sizes items state := by
  induction items with
  | nil =>
      intro sizes within state
      refine iff_of_true ?_ trivial
      rw [Program.forEach, Program.record, List.append_nil]
      exact within
  | cons item rest induction =>
      intro sizes within state
      have first := @extractOverride_within listing root sizes within item state
      change WithinLimits (sizes ++ (extractOverride root item >>= fun _ =>
          Program.forEach (fun (_ : Unit) item => extractOverride root item) () rest).record (performPack listing)
            writtenBy state) <-> _
      rw [OverridesFit, ← first, Program.record_bind]
      rcases ran : (extractOverride root item).run (performPack listing) state with ⟨failure | done, after⟩
      · dsimp only
        rw [List.append_nil]
        exact (and_iff_left (fun _ impossible => (by cases impossible))).symm
      · dsimp only
        rw [← List.append_assoc, extractOverride_whole (congrArg Prod.fst ran)]
        constructor
        · intro whole
          refine ⟨whole.front, ?_⟩
          intro other same
          cases same
          exact (induction whole.front after).mp whole
        · rintro ⟨front, later⟩
          exact (induction front after).mpr (later after rfl)

/-- Overrides that are all unpacked write what they take. -/
theorem extractOverrides_whole (items : List Override) : forall {state : PackState},
    ((Program.forEach (fun (_ : Unit) item => extractOverride root item) () items).run (performPack listing)
      state).1 = .ok () ->
      (Program.forEach (fun (_ : Unit) item => extractOverride root item) () items).record (performPack listing)
        writtenBy state = items.flatMap (overrideSizes root) := by
  induction items with
  | nil => exact fun _ => rfl
  | cons item rest induction =>
      intro state whole
      change ((extractOverride root item >>= fun _ =>
          Program.forEach (fun (_ : Unit) item => extractOverride root item) () rest).run (performPack listing)
            state).1 = .ok () at whole
      change (extractOverride root item >>= fun _ =>
          Program.forEach (fun (_ : Unit) item => extractOverride root item) () rest).record (performPack listing)
            writtenBy state = _
      rw [Program.run_bind] at whole
      rw [Program.record_bind]
      rcases ran : (extractOverride root item).run (performPack listing) state with ⟨failure | done, after⟩
      · rw [ran] at whole
        cases whole
      · rw [ran] at whole
        dsimp only at whole ⊢
        rw [extractOverride_whole (congrArg Prod.fst ran), induction whole, List.flatMap_cons]

end Overrides

/-- An installation respects the limits exactly when each override, when its
turn comes and its file can be created, fits in beside the downloads and the
overrides before it. -/
theorem limits_respected_iff (listing : Listing Text Bytes) (tools : DownloadTools) (root : List Text)
    (files : List PackFile) (archive : Except Failure (List (Except Failure ZipEntry))) (state : PackState) :
    LimitsRespected listing tools root files archive state <->
      forall total after entries,
        (downloadFiles tools root files).run (performPack listing) state = (.ok total, after) ->
          archive = .ok entries ->
            OverridesFit listing root (files.flatMap downloadSizes) (overridesOf entries) after := by
  have downloads := @downloadFiles_counted listing tools root files 0 (Nat.zero_le _) state
  have counted : WithinLimits ((downloadFiles tools root files).record (performPack listing) writtenBy state) := by
    refine ⟨downloads.each, ?_⟩
    have together := downloads.together
    rw [Nat.zero_add] at together
    exact together
  have both {total : Nat} {after : PackState}
      (ran : (downloadFiles tools root files).run (performPack listing) state = (.ok total, after)) :
      writtenSizes listing tools root files archive state = files.flatMap downloadSizes ++
        (extractOverrides root archive).record (performPack listing) writtenBy after := by
    rw [← (downloads.whole total (congrArg Prod.fst ran)).1]
    exact Program.record_bind_ok _ ran
  have whole {total : Nat} {after : PackState}
      (ran : (downloadFiles tools root files).run (performPack listing) state = (.ok total, after)) :
      WithinLimits (files.flatMap downloadSizes) := by
    rw [← (downloads.whole total (congrArg Prod.fst ran)).1]
    exact counted
  constructor
  · rintro respected total after entries ran readable
    have written := respected.written
    rw [both ran, readable] at written
    exact (extractOverrides_within (overridesOf entries) (whole ran) after).mp written
  · intro fit
    rcases ran : (downloadFiles tools root files).run (performPack listing) state with ⟨failure | total, after⟩
    · constructor
      · have downloadsOnly : writtenSizes listing tools root files archive state = _ :=
          Program.record_bind_failed _ (congrArg Prod.fst ran)
        rw [downloadsOnly]
        exact counted
      · intro entries last _ installed
        unfold installFiles at installed
        rw [Program.run_bind, ran] at installed
        cases installed
    · cases archive with
      | error failure =>
          refine ⟨?_, nofun⟩
          rw [both ran, extractOverrides, Program.record, List.append_nil]
          exact whole ran
      | ok entries =>
          have written := (extractOverrides_within (overridesOf entries) (whole ran) after).mpr
            (fit total after entries ran rfl)
          constructor
          · rw [both ran]
            exact written
          · intro other last same installed
            cases same
            unfold installFiles at installed
            rw [Program.run_bind, ran] at installed
            rw [extractOverrides_whole (overridesOf entries) (congrArg Prod.fst installed)] at written
            exact written

/-! ## An override that is too large -/

/-- A server directory with nothing in it. -/
def bareRoot : FileTree Text Bytes :=
  (FileTree.bare Text Bytes).plant [] "srv".toList .directory

def noUrls : DownloadTools where
  parseUrl _ := .error (.bail "relative URL without a base")
  sha512 _ := []

/-- An archive with one override of the given bytes. -/
def worldOverride (content : Bytes) : ZipEntry where
  name := "overrides/world.dat".toList
  unixMode := none
  content := content
  fault := none

/-- One byte more than a file may have. -/
def oversized : ZipEntry :=
  worldOverride (List.replicate (maxFileBytes + 1) 0)

/-- The pack is installed, with a file that is too large. -/
theorem oversized_override_installed :
    ((installFiles noUrls ["srv".toList] [] (.ok [.ok oversized])).run (performPack (Listing.exact Text Bytes))
        ⟨bareRoot, []⟩).1 = .ok () /\
      Not (LimitsRespected (Listing.exact Text Bytes) noUrls ["srv".toList] [] (.ok [.ok oversized])
          ⟨bareRoot, []⟩) := by
  have installed : ((installFiles noUrls ["srv".toList] [] (.ok [.ok oversized])).run
      (performPack (Listing.exact Text Bytes)) ⟨bareRoot, []⟩).1 = .ok () := by decide +kernel
  refine ⟨installed, fun respected => ?_⟩
  have isFile : overrideFile ["srv".toList] ⟨"overrides/".toList, .ok oversized⟩ =
      some (packTarget ["srv".toList] ["world.dat".toList], oversized.content) := rfl
  have own : (⟨"overrides/".toList, .ok oversized⟩ : Override) ∈ overridesOf [.ok oversized] := List.mem_cons_self
  have size : oversized.content.length ∈ overrideSizes ["srv".toList] ⟨"overrides/".toList, .ok oversized⟩ := by
    rw [overrideSizes, isFile]
    exact List.mem_cons_self
  have small := (respected.refused _ _ rfl (Prod.ext installed rfl)).each _
    (List.mem_append_right _ (List.mem_flatMap.mpr ⟨_, own, size⟩))
  have large : oversized.content.length = maxFileBytes + 1 := List.length_replicate
  omega

end Storage
end Agapornis
