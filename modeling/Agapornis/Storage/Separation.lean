import Agapornis.Storage.Deletion

namespace Agapornis
namespace Storage

open Foundations Agapornis.Core Deletion

/-!
# Storage of different servers

All paths are put together from ids under the same base directories, one of
which also holds the metadata directory.  The storage of two servers is
disjoint when no place is an own place of both, and it is exactly then that no
deletion of one of them touches anything of the other.
-/

variable (environment : Environment)

/-- The storage of the first server is disjoint from that of the second. -/
structure DisjointStorage (base first second : Text) : Prop where
  data : forall dir other, Paths.serverDir environment first = .ok dir ->
    Paths.serverDir environment second = .ok other -> Not (dir <+: other)
  limit : forall dir path, Paths.serverDir environment first = .ok dir ->
    Paths.diskLimitPath environment second = .ok path -> Not (dir <+: path)
  config : forall dir path, Paths.serverDir environment first = .ok dir ->
    Paths.configFilesPath environment second = .ok path -> Not (dir <+: path)
  backups : forall dir other, Paths.backupDir environment first = .ok dir ->
    Paths.backupDir environment second = .ok other -> Not (dir = other)
  deletion : forall calls holdings,
    Untouched environment base second holdings (Deletion.delete environment calls first holdings).2
  backupDeletion : forall calls backupId storage holdings, Untouched environment base second holdings
    (deleteBackup environment calls base first backupId storage holdings).2
  localDeletion : forall probe removal holdings, Untouched environment base second holdings
    (deleteLocal environment probe removal first holdings).2

/-- Neither server has the name of the metadata directory, neither base
directory lies in a directory that one of them has in the other, and backups
are not kept in the metadata directory under the name of a metadata file. -/
structure StorageApart (first second : Text) : Prop where
  first_name : Not (first = Paths.metadataName)
  second_name : Not (second = Paths.metadataName)
  backups_outside : forall id, id = first \/ id = second ->
    Not (Paths.baseServersDir environment ++ [id] <+: Paths.backupsBase environment)
  servers_outside : forall id, id = first \/ id = second ->
    Not (Paths.backupsBase environment ++ [id] <+: Paths.baseServersDir environment)
  names_differ : Paths.backupsBase environment = Paths.baseServersDir environment ++ [Paths.metadataName] ->
    first ∉ Paths.metadataNames second /\ second ∉ Paths.metadataNames first

variable {environment}

/-! ## Own places of two servers -/

/-- A directory and one with another name in the same place do not overlap. -/
theorem siblings_apart {base place : List Text} {first second : Text} (different : Not (first = second))
    (below : base ++ [first] <+: place) : Not (base ++ [second] <+: place) := by
  intro also
  have same : base ++ [first] = base ++ [second] :=
    (List.prefix_of_prefix_length_le below also (by simp)).eq_of_length (by simp)
  exact different (List.singleton_inj.mp (List.append_cancel_left same))

/-- Two directories overlap only if one lies in the other or above its base. -/
theorem overlap_cases {base other place : List Text} {first second : Text}
    (different : Not (first = second)) (below : base ++ [first] <+: place)
    (also : other ++ [second] <+: place) : base ++ [first] <+: other \/ other ++ [second] <+: base := by
  rcases List.prefix_or_prefix_of_prefix below also with inside | inside
  · rcases List.prefix_concat_iff.mp inside with same | above
    · have parts := List.append_inj' same rfl
      exact absurd (List.singleton_inj.mp parts.2) different
    · exact Or.inl above
  · rcases List.prefix_concat_iff.mp inside with same | above
    · have parts := List.append_inj' same rfl
      exact absurd (List.singleton_inj.mp parts.2).symm different
    · exact Or.inr above

/-- A directory holds a file two names below a base only if it is named like
the first of them, like the file, or lies above the base. -/
theorem above_file_cases {base other : List Text} {id middle name : Text}
    (above : other ++ [id] <+: base ++ [middle, name]) :
    other ++ [id] <+: base \/ (other = base /\ id = middle) \/ (other = base ++ [middle] /\ id = name) := by
  have split : base ++ [middle, name] = (base ++ [middle]) ++ [name] := by simp
  rw [split] at above
  rcases List.prefix_concat_iff.mp above with whole | above
  · have parts := List.append_inj' whole rfl
    exact Or.inr (Or.inr ⟨parts.1, List.singleton_inj.mp parts.2⟩)
  · rcases List.prefix_concat_iff.mp above with whole | above
    · have parts := List.append_inj' whole rfl
      exact Or.inr (Or.inl ⟨parts.1, List.singleton_inj.mp parts.2⟩)
    · exact Or.inl above

theorem above_metadata {base : List Text} {id name : Text}
    (above : base ++ [id] <+: base ++ [Paths.metadataName, name]) : id = Paths.metadataName := by
  have shorter := (List.prefix_append_right_inj base).mp above
  rcases shorter with ⟨rest, whole⟩
  exact (List.cons.inj whole).1

/-- An own place is below one of the two directories or a metadata file. -/
theorem ownPlace_iff {id : Text} (valid : Paths.validateId id = .ok ()) (place : List Text) :
    OwnPlace environment id place <->
      Paths.baseServersDir environment ++ [id] <+: place \/
        (Exists fun name => name ∈ Paths.metadataNames id /\
          place = Paths.baseServersDir environment ++ [Paths.metadataName, name]) \/
        Paths.backupsBase environment ++ [id] <+: place := by
  constructor
  · intro own
    cases own with
    | data atDir below =>
        rw [(Paths.serverDir_eq_ok.mp atDir).2] at below
        exact Or.inl below
    | limit atPath =>
        exact Or.inr (Or.inl ⟨Paths.diskLimitName id, List.mem_cons_self, (Paths.diskLimitPath_eq_ok.mp atPath).2⟩)
    | config atPath =>
        exact Or.inr (Or.inl ⟨Paths.configFilesName id, by simp [Paths.metadataNames],
          (Paths.configFilesPath_eq_ok.mp atPath).2⟩)
    | backup atDir below =>
        rw [(Paths.backupDir_eq_ok.mp atDir).2] at below
        exact Or.inr (Or.inr below)
  · rintro (below | ⟨name, named, same⟩ | below)
    · exact .data (Paths.serverDir_eq_ok.mpr ⟨valid, rfl⟩) below
    · subst same
      simp only [Paths.metadataNames, List.mem_cons, List.not_mem_nil, or_false] at named
      rcases named with limit | config
      · subst limit
        exact .limit (Paths.diskLimitPath_eq_ok.mpr ⟨valid, rfl⟩)
      · subst config
        exact .config (Paths.configFilesPath_eq_ok.mpr ⟨valid, rfl⟩)
    · exact .backup (Paths.backupDir_eq_ok.mpr ⟨valid, rfl⟩) below

/-- A metadata file of one server is no place below a directory of another. -/
theorem StorageApart.metadata_outside {first second other name : Text}
    (apart : StorageApart environment first second) (named : name ∈ Paths.metadataNames other)
    (id : Text) (pair : (id = first /\ other = second) \/ (id = second /\ other = first)) :
    Not (Paths.baseServersDir environment ++ [id] <+:
        Paths.baseServersDir environment ++ [Paths.metadataName, name]) /\
      Not (Paths.backupsBase environment ++ [id] <+:
        Paths.baseServersDir environment ++ [Paths.metadataName, name]) := by
  have plainName : Not (id = Paths.metadataName) := by
    rcases pair with ⟨same, _⟩ | ⟨same, _⟩
    · exact same ▸ apart.first_name
    · exact same ▸ apart.second_name
  refine ⟨fun above => plainName (above_metadata above), fun above => ?_⟩
  rcases above_file_cases above with inside | ⟨_, same⟩ | ⟨sameBase, same⟩
  · exact apart.servers_outside id (pair.imp And.left And.left) inside
  · exact plainName same
  · have differ := apart.names_differ sameBase
    rw [<- same] at named
    rcases pair with ⟨isFirst, isSecond⟩ | ⟨isSecond, isFirst⟩
    · rw [isFirst, isSecond] at named
      exact differ.1 named
    · rw [isFirst, isSecond] at named
      exact differ.2 named

/-- Storage that is apart has no place in common. -/
theorem StorageApart.no_common_place {first second : Text} (apart : StorageApart environment first second)
    (validFirst : Paths.validateId first = .ok ()) (validSecond : Paths.validateId second = .ok ())
    (different : Not (first = second)) {place : List Text}
    (ownFirst : OwnPlace environment first place) : Not (OwnPlace environment second place) := by
  intro ownSecond
  rcases (ownPlace_iff validFirst place).mp ownFirst with inData | ⟨name, named, isFile⟩ | inBackups
  · rcases (ownPlace_iff validSecond place).mp ownSecond with otherData | ⟨name, named, isFile⟩ | otherBackups
    · exact siblings_apart different inData otherData
    · rw [isFile] at inData
      exact (apart.metadata_outside named first (Or.inl ⟨rfl, rfl⟩)).1 inData
    · rcases overlap_cases different inData otherBackups with above | above
      · exact apart.backups_outside first (Or.inl rfl) above
      · exact apart.servers_outside second (Or.inr rfl) above
  · rcases (ownPlace_iff validSecond place).mp ownSecond with otherData | ⟨other, otherNamed, otherFile⟩ | otherBackups
    · rw [isFile] at otherData
      exact (apart.metadata_outside named second (Or.inr ⟨rfl, rfl⟩)).1 otherData
    · rw [isFile] at otherFile
      have sameName := List.append_cancel_left otherFile
      rw [<- (List.cons.inj (List.cons.inj sameName).2).1] at otherNamed
      exact different (Paths.eq_of_metadataName named otherNamed)
    · rw [isFile] at otherBackups
      exact (apart.metadata_outside named second (Or.inr ⟨rfl, rfl⟩)).2 otherBackups
  · rcases (ownPlace_iff validSecond place).mp ownSecond with otherData | ⟨name, named, isFile⟩ | otherBackups
    · rcases overlap_cases (Ne.symm different) otherData inBackups with above | above
      · exact apart.backups_outside second (Or.inr rfl) above
      · exact apart.servers_outside first (Or.inl rfl) above
    · rw [isFile] at inBackups
      exact (apart.metadata_outside named first (Or.inl ⟨rfl, rfl⟩)).2 inBackups
    · exact siblings_apart different inBackups otherBackups

/-! ## An undisturbed deletion takes every own place -/

def undisturbedRemoval : Removal where
  error := none
  gone := []

def undisturbedDeletion : DeletionCalls where
  resolve := some
  exact same := (Option.some.inj same).symm
  container := none
  probe := true
  directory := undisturbedRemoval
  limit := none
  config := none

theorem removeExisting_undisturbed {dir : List Text} {tree : FileTree Text Bytes}
    (nonempty : Not (dir = [])) (noFile : forall content, Not (tree.node dir = some (.file content))) :
    (removeExisting true undisturbedRemoval dir tree).1 = .ok () /\
      forall place, dir <+: place -> (removeExisting true undisturbedRemoval dir tree).2.node place = none := by
  have longer (place : List Text) (below : dir <+: place) : Not (place = []) := by
    intro top
    exact nonempty (List.prefix_nil.mp (top ▸ below))
  unfold removeExisting
  cases present : tree.node dir with
  | none => exact ⟨rfl, fun place below => tree.absent_of_absent present below⟩
  | some node =>
      rw [if_pos (by simp)]
      unfold Deletion.removeDirAll
      rw [present]
      cases node with
      | file content => exact absurd present (noFile content)
      | directory =>
          exact ⟨rfl, fun place below => FileTree.without_gone tree List.mem_cons_self below (longer place below)⟩
      | link text =>
          exact ⟨rfl, fun place below => FileTree.without_gone tree List.mem_cons_self below (longer place below)⟩

theorem removeFile_absent (fault : Option Errno) (path : List Text) {place : List Text}
    {tree : FileTree Text Bytes}
    (absent : tree.node place = none) : (removeFile fault path tree).2.node place = none := by
  by_cases same : place = path
  · subst same
    unfold removeFile
    split
    · exact absent
    · split
      · exact absent
      · next removed => exact FileTree.unlink_target removed
  · rw [removeFile_elsewhere fault tree same]
    exact absent

theorem removeMetadata_undisturbed {path : List Text} {tree : FileTree Text Bytes} (what : String)
    (noDirectory : Not (tree.node path = some .directory)) :
    (removeMetadata none what path tree).1 = .ok () /\
      (removeMetadata none what path tree).2.node path = none := by
  unfold removeMetadata removeFile FileTree.unlink
  cases present : tree.node path with
  | none => exact ⟨rfl, present⟩
  | some node =>
      have nonempty : Not (path = []) := fun top => noDirectory (top ▸ tree.top_directory)
      cases node with
      | directory => exact absurd present noDirectory
      | file content => exact ⟨rfl, FileTree.without_gone tree List.mem_cons_self List.prefix_rfl nonempty⟩
      | link text => exact ⟨rfl, FileTree.without_gone tree List.mem_cons_self List.prefix_rfl nonempty⟩

/-- What the removal of the data directory took does not come back. -/
theorem deleteFiles_absent (calls : DeletionCalls) {id : Text} {dir place : List Text}
    {tree : FileTree Text Bytes} (atDir : Paths.serverDir environment id = .ok dir)
    (absent : (removeExisting calls.probe calls.directory dir tree).2.node place = none) :
    (deleteFiles environment calls id tree).2.node place = none := by
  have valid := (Paths.serverDir_eq_ok.mp atDir).1
  unfold deleteFiles
  rw [atDir, Paths.diskLimitPath_eq_ok.mpr ⟨valid, rfl⟩, Paths.configFilesPath_eq_ok.mpr ⟨valid, rfl⟩]
  dsimp only
  split
  · next removed =>
      rw [removed] at absent
      exact absent
  · next after removed =>
      rw [removed] at absent
      have second := removeFile_absent calls.limit
        (Paths.baseServersDir environment ++ [Paths.metadataName, Paths.diskLimitName id]) absent
      rw [<- removeMetadata_tree calls.limit "disk limit"] at second
      split
      · next limited =>
          rw [limited] at second
          exact second
      · next limited =>
          rw [limited] at second
          rw [removeMetadata_tree]
          exact removeFile_absent _ _ second

/-- With every call undisturbed, a metadata file which stands alone is gone. -/
theorem deleteFiles_metadata (environment : Environment) {id name : Text} (valid : Paths.validateId id = .ok ())
    (named : name ∈ Paths.metadataNames id) :
    (deleteFiles environment undisturbedDeletion id (FileTree.chain
        (Paths.baseServersDir environment ++ [Paths.metadataName, name]) (.file []))).2.node
      (Paths.baseServersDir environment ++ [Paths.metadataName, name]) = none := by
  generalize whole : FileTree.chain (Paths.baseServersDir environment ++ [Paths.metadataName, name])
    (.file ([] : Bytes)) = tree
  have noFile (content : Bytes) :
      Not (tree.node (Paths.baseServersDir environment ++ [id]) = some (.file content)) := by
    intro isFile
    have different : Not (Paths.baseServersDir environment ++ [id] =
        Paths.baseServersDir environment ++ [Paths.metadataName, name]) :=
      fun same => absurd (congrArg List.length same) (by simp)
    by_cases above : Paths.baseServersDir environment ++ [id] <+:
        Paths.baseServersDir environment ++ [Paths.metadataName, name]
    · rw [<- whole, FileTree.chain_above above different] at isFile
      cases isFile
    · rw [<- whole, FileTree.chain_beside above] at isFile
      cases isFile
  have noDirectory (other : Text) :
      Not (tree.node (Paths.baseServersDir environment ++ [Paths.metadataName, other]) = some .directory) := by
    intro isDirectory
    by_cases same : other = name
    · rw [same, <- whole, FileTree.chain_target (by simp)] at isDirectory
      cases isDirectory
    · have beside : Not (Paths.baseServersDir environment ++ [Paths.metadataName, other] <+:
          Paths.baseServersDir environment ++ [Paths.metadataName, name]) := by
        intro above
        have equal := List.append_cancel_left (above.eq_of_length (by simp))
        exact same (List.cons.inj (List.cons.inj equal).2).1
      rw [<- whole, FileTree.chain_beside beside] at isDirectory
      cases isDirectory
  have removal := removeExisting_undisturbed (by simp) noFile
  have keeps (path : List Text) : Not (tree.node path = some .directory) ->
      Not ((removeExisting true undisturbedRemoval (Paths.baseServersDir environment ++ [id]) tree).2.node
        path = some .directory) := by
    intro plain isDirectory
    by_cases below : Paths.baseServersDir environment ++ [id] <+: path
    · rw [removal.2 path below] at isDirectory
      cases isDirectory
    · rw [removeExisting_elsewhere _ _ tree below] at isDirectory
      exact plain isDirectory
  unfold deleteFiles
  rw [Paths.serverDir_eq_ok.mpr ⟨valid, rfl⟩, Paths.diskLimitPath_eq_ok.mpr ⟨valid, rfl⟩,
    Paths.configFilesPath_eq_ok.mpr ⟨valid, rfl⟩]
  simp only [undisturbedDeletion]
  generalize removed : removeExisting true undisturbedRemoval (Paths.baseServersDir environment ++ [id]) tree =
    first at removal keeps
  rcases first with ⟨outcome, after⟩
  cases removal.1
  have limited := removeMetadata_undisturbed "disk limit" (keeps _ (noDirectory (Paths.diskLimitName id)))
  dsimp only
  dsimp only at limited
  generalize second : removeMetadata none "disk limit"
    (Paths.baseServersDir environment ++ [Paths.metadataName, Paths.diskLimitName id]) after = later at limited
  rcases later with ⟨outcome, later⟩
  cases limited.1
  dsimp only
  rw [removeMetadata_tree]
  simp only [Paths.metadataNames, List.mem_cons, List.not_mem_nil, or_false] at named
  rcases named with isLimit | isConfig
  · rw [isLimit]
    exact removeFile_absent _ _ limited.2
  · have plain : Not (later.node (Paths.baseServersDir environment ++
        [Paths.metadataName, Paths.configFilesName id]) = some .directory) := by
      have same : later = (removeFile none (Paths.baseServersDir environment ++
          [Paths.metadataName, Paths.diskLimitName id]) after).2 := by
        rw [<- removeMetadata_tree none "disk limit", second]
      rw [same, removeFile_elsewhere none after]
      · exact keeps _ (noDirectory _)
      · intro equal
        have names := List.append_cancel_left equal
        exact Paths.diskLimitName_ne_configFilesName id id (List.cons.inj (List.cons.inj names).2).1.symm
    rw [isConfig, <- removeMetadata_tree none "configuration"]
    exact (removeMetadata_undisturbed "configuration" plain).2

/-! ## Which storage is disjoint -/

/-- The agent with one thing on its disk. -/
def holdingOnly (place : List Text) (node : Node Text Bytes) : Holdings where
  containers := []
  remembered _ := []
  tree := FileTree.chain place node
  objects _ := none

/-- An undisturbed deletion comes to the files of the server. -/
theorem delete_undisturbed_tree {id : Text} (valid : Paths.validateId id = .ok ()) (holdings : Holdings) :
    (Deletion.delete environment undisturbedDeletion id holdings).2.tree =
      (deleteFiles environment undisturbedDeletion id holdings.tree).2 := by
  unfold Deletion.delete
  rw [valid]
  simp only [removeContainer, undisturbedDeletion]
  split <;> next files =>
    have here : deleteFiles environment undisturbedDeletion id holdings.tree = _ := files
    exact (congrArg Prod.snd here).symm

theorem DisjointStorage.no_common_place {base first second : Text}
    (disjoint : DisjointStorage environment base first second) {place : List Text}
    (ownFirst : OwnPlace environment first place) : Not (OwnPlace environment second place) := by
  intro ownSecond
  have inDirectory {dir : List Text} {name : Text} (below : dir ++ [name] <+: place) :
      (removeExisting true undisturbedRemoval (dir ++ [name]) (holdingOnly place .directory).tree).2.node
        place = none := by
    refine (removeExisting_undisturbed (by simp) ?_).2 place below
    intro content isFile
    change (FileTree.chain place .directory).node _ = _ at isFile
    by_cases same : dir ++ [name] = place
    · rw [same, FileTree.chain_target (by rw [<- same]; simp)] at isFile
      cases isFile
    · rw [FileTree.chain_above below same] at isFile
      cases isFile
  have standing (node : Node Text Bytes) (nonempty : Not (place = [])) :
      (holdingOnly place node).tree.node place = some node := FileTree.chain_target nonempty node
  have nonempty {dir : List Text} {name : Text} (below : dir ++ [name] <+: place) : Not (place = []) := by
    intro top
    rw [top] at below
    simp at below
  have metadata {name : Text} (valid : Paths.validateId first = .ok ())
      (named : name ∈ Paths.metadataNames first)
      (isFile : place = Paths.baseServersDir environment ++ [Paths.metadataName, name]) : False := by
    have kept := (disjoint.deletion undisturbedDeletion (holdingOnly place (.file []))).places place ownSecond
    have taken := deleteFiles_metadata environment valid named
    rw [<- isFile] at taken
    rw [standing _ (by rw [isFile]; simp), delete_undisturbed_tree valid] at kept
    cases taken.symm.trans kept
  cases ownFirst with
  | limit atPath =>
      have parts := Paths.diskLimitPath_eq_ok.mp atPath
      exact metadata parts.1 List.mem_cons_self parts.2
  | config atPath =>
      have parts := Paths.configFilesPath_eq_ok.mp atPath
      exact metadata parts.1 (by simp [Paths.metadataNames]) parts.2
  | data atDir below =>
      have parts := Paths.serverDir_eq_ok.mp atDir
      rw [parts.2] at below atDir
      have kept := (disjoint.deletion undisturbedDeletion (holdingOnly place .directory)).places place ownSecond
      rw [standing _ (nonempty below), delete_undisturbed_tree parts.1] at kept
      have taken := deleteFiles_absent undisturbedDeletion atDir (inDirectory below)
      cases taken.symm.trans kept
  | backup atDir below =>
      have parts := Paths.backupDir_eq_ok.mp atDir
      rw [parts.2] at below atDir
      have kept := (disjoint.localDeletion true undisturbedRemoval (holdingOnly place .directory)).places place
        ownSecond
      rw [standing _ (nonempty below)] at kept
      have taken := inDirectory below
      unfold deleteLocal at kept
      rw [atDir] at kept
      dsimp only at kept
      revert kept
      split <;> next removed =>
        intro kept
        rw [removed] at taken
        cases taken.symm.trans kept

theorem DisjointStorage.apart {base first second : Text}
    (disjoint : DisjointStorage environment base first second)
    (validFirst : Paths.validateId first = .ok ()) (validSecond : Paths.validateId second = .ok ()) :
    StorageApart environment first second := by
  have apart (place : List Text) (ownFirst : OwnPlace environment first place)
      (ownSecond : OwnPlace environment second place) : False := disjoint.no_common_place ownFirst ownSecond
  have data {id : Text} (valid : Paths.validateId id = .ok ()) {place : List Text}
      (below : Paths.baseServersDir environment ++ [id] <+: place) : OwnPlace environment id place :=
    (ownPlace_iff valid place).mpr (Or.inl below)
  have backup {id : Text} (valid : Paths.validateId id = .ok ()) {place : List Text}
      (below : Paths.backupsBase environment ++ [id] <+: place) : OwnPlace environment id place :=
    (ownPlace_iff valid place).mpr (Or.inr (Or.inr below))
  have file {id name : Text} (valid : Paths.validateId id = .ok ()) (named : name ∈ Paths.metadataNames id) :
      OwnPlace environment id (Paths.baseServersDir environment ++ [Paths.metadataName, name]) :=
    (ownPlace_iff valid _).mpr (Or.inr (Or.inl ⟨name, named, rfl⟩))
  refine ⟨?_, ?_, ?_, ?_, ?_⟩
  · intro same
    refine apart _ (data validFirst ?_) (file validSecond List.mem_cons_self)
    rw [same]
    exact ⟨[Paths.diskLimitName second], by simp⟩
  · intro same
    refine apart _ (file validFirst List.mem_cons_self) (data validSecond ?_)
    rw [same]
    exact ⟨[Paths.diskLimitName first], by simp⟩
  · rintro id (isFirst | isSecond) above
    · subst isFirst
      exact apart _ (data validFirst (above.trans (List.prefix_append _ [second])))
        (backup validSecond List.prefix_rfl)
    · subst isSecond
      exact apart _ (backup validFirst List.prefix_rfl)
        (data validSecond (above.trans (List.prefix_append _ [first])))
  · rintro id (isFirst | isSecond) above
    · subst isFirst
      exact apart _ (backup validFirst (above.trans (List.prefix_append _ [second])))
        (data validSecond List.prefix_rfl)
    · subst isSecond
      exact apart _ (data validFirst List.prefix_rfl)
        (backup validSecond (above.trans (List.prefix_append _ [first])))
  · intro sameBase
    have below (name : Text) : Paths.backupsBase environment ++ [name] <+:
        Paths.baseServersDir environment ++ [Paths.metadataName, name] := by
      refine ⟨[], ?_⟩
      simp [sameBase]
    constructor
    · intro named
      exact apart _ (backup validFirst (below first)) (file validSecond named)
    · intro named
      exact apart _ (file validFirst named) (backup validSecond (below second))

/-- The objects of two servers have different keys. -/
theorem objectPrefix_apart {base first second key : Text} (validFirst : Paths.validateId first = .ok ())
    (validSecond : Paths.validateId second = .ok ()) (different : Not (first = second))
    (ofFirst : objectPrefix base first <+: key) : Not (objectPrefix base second <+: key) := by
  intro ofSecond
  have upToSlash (tail : Text) {id rest : Text} (valid : Paths.validateId id = .ok ())
      (whole : id ++ "/backups/".toList ++ tail = rest) : rest.takeWhile (· ≠ '/') = id := by
    rw [<- whole, List.append_assoc, List.takeWhile_append_of_pos]
    · exact List.append_nil id
    · intro character member
      have notSlash : Not (character = '/') :=
        fun slash => Paths.no_slash_of_validateId valid (slash ▸ member)
      simpa using notSlash
  rcases ofFirst with ⟨tail, whole⟩
  rcases ofSecond with ⟨other, also⟩
  unfold objectPrefix at whole also
  rw [<- whole] at also
  simp only [List.append_assoc, List.append_cancel_left_eq] at also
  have firstName := upToSlash tail validFirst rfl
  have secondName := upToSlash other validSecond rfl
  simp only [List.append_assoc] at firstName secondName
  exact different (firstName.symm.trans ((congrArg (List.takeWhile (· ≠ '/')) also).symm.trans secondName))

/-- For two accepted ids, the storage of the first is disjoint from that of the
second if and only if it is apart. -/
theorem disjointStorage_iff (environment : Environment) (base : Text) {first second : Text}
    (validFirst : Paths.validateId first = .ok ()) (validSecond : Paths.validateId second = .ok ())
    (different : Not (first = second)) :
    DisjointStorage environment base first second <-> StorageApart environment first second := by
  constructor
  · exact fun disjoint => disjoint.apart validFirst validSecond
  · intro apart
    have foreign {place : List Text} (ownSecond : OwnPlace environment second place) :
        Not (OwnPlace environment first place) :=
      fun ownFirst => apart.no_common_place validFirst validSecond different ownFirst ownSecond
    have otherSecond : Not (second = first) := Ne.symm different
    refine ⟨?_, ?_, ?_, ?_, ?_, ?_, ?_⟩
    · exact fun dir other atDir atOther below => foreign (.data atOther List.prefix_rfl) (.data atDir below)
    · exact fun dir path atDir atPath below => foreign (.limit atPath) (.data atDir below)
    · exact fun dir path atDir atPath below => foreign (.config atPath) (.data atDir below)
    · intro dir other atDir atOther same
      subst same
      exact foreign (.backup atOther List.prefix_rfl) (.backup atDir List.prefix_rfl)
    · intro calls holdings
      rcases delete_remembered environment calls otherSecond holdings with
        ⟨containers, tables, objects⟩
      exact ⟨containers, tables, fun place own => delete_elsewhere calls holdings (foreign own),
        fun key ofSecond => by rw [objects]⟩
    · intro calls backupId storage holdings
      rcases deleteBackup_remembered environment calls base first backupId storage holdings with
        ⟨containers, tables⟩
      refine ⟨by rw [containers], fun table => by rw [tables],
        fun place own => deleteBackup_elsewhere calls base backupId storage holdings (foreign own),
        fun key ofSecond => deleteBackup_objects calls backupId storage holdings ?_⟩
      exact objectPrefix_apart validSecond validFirst otherSecond ofSecond
    · intro probe removal holdings
      rcases deleteLocal_remembered environment probe removal first holdings with
        ⟨containers, tables, objects⟩
      exact ⟨by rw [containers], fun table => by rw [tables],
        fun place own => deleteLocal_elsewhere probe removal holdings (foreign own),
        fun key ofSecond => by rw [objects]⟩

/-- The environment in which both base directories have their defaults. -/
def defaultEnvironment : Environment where
  serversDir := none
  backupsDir := none

theorem disjointStorage_server_1_server_2 :
    DisjointStorage defaultEnvironment "agapornis".toList "server-1".toList "server-2".toList := by
  apply (disjointStorage_iff defaultEnvironment "agapornis".toList (by decide) (by decide) (by decide)).mpr
  refine ⟨by decide, by decide, ?_, ?_, by decide⟩
  · rintro id (first | second) <;> subst id <;> decide
  · rintro id (first | second) <;> subst id <;> decide

/-- The metadata directory is the data directory of a server of that name. -/
theorem metadata_directory_is_a_server :
    Not (forall (environment : Environment) (base first second : Text),
      Paths.validateId first = .ok () -> Paths.validateId second = .ok () -> Not (first = second) ->
      DisjointStorage environment base first second) := by
  intro claimed
  have disjoint := claimed defaultEnvironment [] ".metadata".toList "server-1".toList
    (by decide) (by decide) (by decide)
  have below : Not ((["var", "lib", "agapornis", "servers", ".metadata"].map String.toList) <+:
      ["var", "lib", "agapornis", "servers", ".metadata", "server-1.disk-limit"].map String.toList) :=
    disjoint.limit _ _ (by decide) (by decide)
  exact below (by decide)

end Storage
end Agapornis
