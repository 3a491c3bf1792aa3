import Agapornis.Storage.Files

namespace Agapornis
namespace Storage

open Foundations Agapornis.Core

/-!
# Archive extraction

An archive is unpacked by a container of its own into which two paths of the
host are mounted: the archive, read-only, and the destination directory.  The
two paths reach the Docker command line inside `--mount` arguments, which are
lists of fields between commas.  `parseMount` reads such an argument the way
the command line does; nothing in the argument marks a comma that belongs to
a path, so it comes back as intended exactly when the path has none.
-/

variable {Content : Type}

/-! ## The arguments of the unpacking container -/

/-- What a run of the unpacking container is given. -/
structure Extraction where
  archive : Text
  destination : Text
  image : Text
  command : Text
  deriving DecidableEq, Repr

namespace Extraction

def archiveMount (extraction : Extraction) : Text :=
  "type=bind,src=".toList ++ extraction.archive ++ ",dst=/archive,readonly".toList

def destinationMount (extraction : Extraction) : Text :=
  "type=bind,src=".toList ++ extraction.destination ++ ",dst=/extract".toList

/-- The words of the command line after the program's name. -/
def arguments (extraction : Extraction) : List Text :=
  ["run".toList, "--rm".toList, "--pull".toList, "never".toList, "--network".toList,
    "none".toList, "--read-only".toList, "--cap-drop".toList, "ALL".toList,
    "--security-opt".toList, "no-new-privileges".toList, "--pids-limit".toList,
    "128".toList, "--memory".toList, "256m".toList, "--cpus".toList, "0.5".toList,
    "--user".toList, "999:999".toList, "--mount".toList, extraction.archiveMount,
    "--mount".toList, extraction.destinationMount, "--entrypoint".toList,
    "/bin/sh".toList, extraction.image, "-lc".toList, extraction.command]

end Extraction

/-- The shell command that unpacks an archive of the given name. -/
def unpackCommand (archive : Text) : Except Failure Text :=
  let normalized := archive.map Char.toLower
  if ".tar.gz".toList.isSuffixOf normalized || ".tgz".toList.isSuffixOf normalized then
    .ok "tar --no-same-owner --no-same-permissions -xzf /archive -C /extract".toList
  else if ".tar".toList.isSuffixOf normalized then
    .ok "tar --no-same-owner --no-same-permissions -xf /archive -C /extract".toList
  else if ".zip".toList.isSuffixOf normalized then
    .ok "unzip -o /archive -d /extract".toList
  else .error (.bail "Only .zip, .tar, .tar.gz, and .tgz archives can be extracted.")

/-- Whether a path leads to a regular file; a path that leads nowhere is an
error. -/
def isFile (tree : FileTree Text Content) (path : List (Component Text)) : Except Failure Bool :=
  match canonicalize tree path with
  | .error error => .error (.io error)
  | .ok place =>
      match tree.node place with
      | some (.file _) => .ok true
      | _ => .ok false

/-- What the extraction asks of the world outside the tree: whether the
ownership of the destination could be set, and the image of the server. -/
structure Surroundings where
  ownership : Except Failure Unit
  image : Except Failure (Option Text)

/-- The checked paths of a request, with the text the second check saw. -/
def confinedText (tree : FileTree Text Content) (root requested : Text) (mustExist : Bool) :
    Except Failure (List (Component Text) × Text) :=
  match confinedHostPath tree (pathComponents root) requested mustExist with
  | .error failure => .error failure
  | .ok path =>
      match Paths.relative requested with
      | .error failure => .error failure
      | .ok names => .ok (path, Paths.joinText root names)

/-- The image to run, which must not be blank. -/
def serverImage : Option Text -> Except Failure Text
  | none => .error (.bail "server image is unavailable")
  | some image =>
      if (Text.trim image).isEmpty then .error (.bail "server image is unavailable")
      else .ok image

def extract (tree : FileTree Text Content) (root : Text) (surroundings : Surroundings)
    (archivePath destinationPath : Text) : Except Failure Extraction := do
  refuseIf (cleanPath archivePath).isEmpty "An archive path is required."
  let command ← unpackCommand (cleanPath archivePath)
  let archive ← confinedText tree root (cleanPath archivePath) true
  let regular ← isFile tree archive.1
  refuseIf (!regular) "Archive path is not a file."
  let created ← confinedText tree root destinationPath false
  let making := makeDirectories tree created.1
  attempt making.result
  surroundings.ownership
  let destination ← confinedText making.tree root destinationPath true
  let configured ← surroundings.image
  let image ← serverImage configured
  return { archive := archive.2, destination := destination.2, image, command }

/-! ## Reading the mount arguments back -/

structure Mount where
  kind : Text
  source : Text
  target : Text
  readOnly : Bool
  deriving DecidableEq, Repr

/-- One field of a mount argument. -/
def applyField (mount : Mount) (field : Text) : Option Mount :=
  match Text.splitOnce '=' field with
  | none =>
      if field == "readonly".toList || field == "ro".toList then some { mount with readOnly := true }
      else none
  | some (key, value) =>
      if key == "type".toList then some { mount with kind := value }
      else if key == "src".toList || key == "source".toList then some { mount with source := value }
      else if key == "dst".toList || key == "target".toList || key == "destination".toList then
        some { mount with target := value }
      else none

/-- The fields in order, a later field of the same key overriding an earlier
one; a field that is none of them makes the argument invalid. -/
def applyFields : Mount -> List Text -> Option Mount
  | mount, [] => some mount
  | mount, field :: fields => (applyField mount field).bind (fun next => applyFields next fields)

def parseMount (argument : Text) : Option Mount :=
  applyFields ⟨"volume".toList, [], [], false⟩ (argument.splitOn ',')

/-- No part of a mount that was read contains a comma. -/
theorem applyFields_source {fields : List Text} (plain : forall field, field ∈ fields -> ',' ∉ field)
    {mount parsed : Mount} (start : ',' ∉ mount.source)
    (read : applyFields mount fields = some parsed) : ',' ∉ parsed.source := by
  induction fields generalizing mount with
  | nil =>
      cases read
      exact start
  | cons field fields ih =>
      rcases Option.bind_eq_some_iff.mp read with ⟨next, first, rest⟩
      refine ih (fun later member => plain later (List.mem_cons_of_mem field member)) ?_ rest
      rw [applyField] at first
      split at first
      · split at first
        · cases first
          exact start
        · cases first
      · next key value parts =>
          split at first
          · cases first
            exact start
          · split at first
            · cases first
              intro comma
              exact plain field List.mem_cons_self (Text.splitOnce_mem parts comma)
            · split at first
              · cases first
                exact start
              · cases first

theorem parseMount_source {argument : Text} {parsed : Mount}
    (read : parseMount argument = some parsed) : ',' ∉ parsed.source :=
  applyFields_source (fun _ member comma => (mem_splitOn member comma).2 rfl)
    (fun impossible => by cases impossible) read

theorem splitOn_typed (path rest : Text) :
    ("type=bind,src=".toList ++ path ++ ',' :: rest).splitOn ',' =
      "type=bind".toList :: ("src=".toList ++ path).splitOn ',' ++ rest.splitOn ',' := by
  have start : "type=bind,src=".toList ++ path ++ ',' :: rest =
      "type=bind".toList ++ ',' :: (("src=".toList ++ path) ++ ',' :: rest) := by
    simp
  rw [start, List.splitOn_append_cons_self, List.splitOn_append_cons_self]
  rfl

theorem splitOn_source {path : Text} (plain : ',' ∉ path) :
    ("src=".toList ++ path).splitOn ',' = ["src=".toList ++ path] := by
  apply List.splitOn_eq_singleton
  intro comma
  rcases List.mem_append.mp comma with inKey | inPath
  · revert inKey
    decide
  · exact plain inPath

theorem applyField_source (mount : Mount) (path : Text) :
    applyField mount ("src=".toList ++ path) = some { mount with source := path } := by
  have split : Text.splitOnce '=' ("src=".toList ++ path) = some ("src".toList, path) := by
    have start : "src=".toList ++ path = "src".toList ++ '=' :: path := by simp
    rw [start]
    exact Text.splitOnce_append (by decide) path
  rw [applyField]
  rw [split]
  rfl

namespace Extraction

/-- The archive's mount is read as a read-only bind of the archive exactly
when its path has no comma. -/
theorem parse_archiveMount_iff (extraction : Extraction) :
    parseMount extraction.archiveMount =
        some ⟨"bind".toList, extraction.archive, "/archive".toList, true⟩ <->
      ',' ∉ extraction.archive := by
  constructor
  · intro read
    exact parseMount_source read
  · intro plain
    have fields : extraction.archiveMount.splitOn ',' =
        ["type=bind".toList, "src=".toList ++ extraction.archive, "dst=/archive".toList,
          "readonly".toList] := by
      have typed := splitOn_typed extraction.archive "dst=/archive,readonly".toList
      rw [splitOn_source plain] at typed
      exact typed
    rw [parseMount]
    rw [fields]
    simp only [applyFields, applyField_source]
    rfl

theorem parse_destinationMount_iff (extraction : Extraction) :
    parseMount extraction.destinationMount =
        some ⟨"bind".toList, extraction.destination, "/extract".toList, false⟩ <->
      ',' ∉ extraction.destination := by
  constructor
  · intro read
    exact parseMount_source read
  · intro plain
    have fields : extraction.destinationMount.splitOn ',' =
        ["type=bind".toList, "src=".toList ++ extraction.destination, "dst=/extract".toList] := by
      have typed := splitOn_typed extraction.destination "dst=/extract".toList
      rw [splitOn_source plain] at typed
      exact typed
    rw [parseMount]
    rw [fields]
    simp only [applyFields, applyField_source]
    rfl

end Extraction

/-! ## What an accepted request mounts -/

/-- The text handed on is the text of the path that was checked. -/
theorem confinedText_eq_ok {tree : FileTree Text Content} {root requested text : Text}
    {mustExist : Bool} {path : List (Component Text)}
    (checked : confinedText tree root requested mustExist = .ok (path, text)) :
    confinedHostPath tree (pathComponents root) requested mustExist = .ok path /\
      pathComponents text = path /\ (',' ∈ text <-> ',' ∈ root \/ ',' ∈ requested) := by
  rw [confinedText] at checked
  split at checked
  · cases checked
  · next confined =>
      split at checked
      · cases checked
      · next names accepted =>
          cases checked
          rcases relative_of_confinedHostPath confined with ⟨again, sameNames, joined⟩
          rw [accepted] at sameNames
          cases sameNames
          refine ⟨confined, ?_, ?_⟩
          · rw [joined, Paths.pathComponents_joinText root (Paths.relative_names accepted)]
          · rw [Paths.mem_joinText (by decide), Paths.mem_display_relative accepted (by decide) (by decide)
              (by decide)]

/-- Checking the same request in another tree does not change its path. -/
theorem confinedText_path_eq {tree later : FileTree Text Content} {root requested : Text}
    {mustExist mustExistLater : Bool} {first second : List (Component Text) × Text}
    (checked : confinedText tree root requested mustExist = .ok first)
    (checkedLater : confinedText later root requested mustExistLater = .ok second) :
    first.1 = second.1 := by
  rcases relative_of_confinedHostPath (confinedText_eq_ok checked).1 with ⟨names, accepted, path⟩
  rcases relative_of_confinedHostPath (confinedText_eq_ok checkedLater).1 with
    ⟨namesLater, acceptedLater, pathLater⟩
  rw [accepted] at acceptedLater
  cases acceptedLater
  rw [path, pathLater]

/-- The two paths which an accepted request confines, in the tree as it was
and in the tree with the destination's directories. -/
structure Extraction.Confined (tree : FileTree Text Content) (root archivePath destinationPath : Text)
    (extraction : Extraction) : Prop where
  archive : confinedHostPath tree (pathComponents root) (cleanPath archivePath) true =
    .ok (pathComponents extraction.archive)
  destination : confinedHostPath
      (makeDirectories tree (pathComponents extraction.destination)).tree (pathComponents root)
      destinationPath true =
    .ok (pathComponents extraction.destination)
  archive_comma : ',' ∈ extraction.archive <-> ',' ∈ root \/ ',' ∈ archivePath
  destination_comma : ',' ∈ extraction.destination <-> ',' ∈ root \/ ',' ∈ destinationPath

theorem extract_confined {tree : FileTree Text Content} {root archivePath destinationPath : Text}
    {surroundings : Surroundings} {extraction : Extraction}
    (accepted : extract tree root surroundings archivePath destinationPath = .ok extraction) :
    extraction.Confined tree root archivePath destinationPath := by
  rcases bind_eq_ok.mp accepted with ⟨_, _, accepted⟩
  rcases bind_eq_ok.mp accepted with ⟨command, _, accepted⟩
  rcases bind_eq_ok.mp accepted with ⟨archive, archiveChecked, accepted⟩
  rcases bind_eq_ok.mp accepted with ⟨regular, _, accepted⟩
  rcases bind_eq_ok.mp accepted with ⟨_, _, accepted⟩
  rcases bind_eq_ok.mp accepted with ⟨created, createdChecked, accepted⟩
  rcases bind_eq_ok.mp accepted with ⟨_, _, accepted⟩
  rcases bind_eq_ok.mp accepted with ⟨_, _, accepted⟩
  rcases bind_eq_ok.mp accepted with ⟨destination, destinationChecked, accepted⟩
  rcases bind_eq_ok.mp accepted with ⟨configured, _, accepted⟩
  rcases bind_eq_ok.mp accepted with ⟨image, _, accepted⟩
  cases accepted
  rcases confinedText_eq_ok archiveChecked with ⟨archiveConfined, archiveText, archiveComma⟩
  rcases confinedText_eq_ok destinationChecked with ⟨destinationConfined, destinationText, destinationComma⟩
  have samePath : created.1 = destination.1 := confinedText_path_eq createdChecked destinationChecked
  refine ⟨?_, ?_, ?_, destinationComma⟩
  · rw [archiveText]
    exact archiveConfined
  · rw [destinationText, <- samePath]
    rw [<- samePath] at destinationConfined
    exact destinationConfined
  · rw [archiveComma]
    exact or_congr_right (Text.mem_trimStartMatches (by decide))

/-- The two mount arguments are read back as the intended mounts of the
confined paths exactly when there is no comma in the server root, in the
archive path and in the destination path. -/
theorem extract_mounts_iff (tree : FileTree Text Content) (root archivePath destinationPath : Text)
    (surroundings : Surroundings) (extraction : Extraction)
    (accepted : extract tree root surroundings archivePath destinationPath = .ok extraction) :
    (extraction.Confined tree root archivePath destinationPath /\
        parseMount extraction.archiveMount =
          some ⟨"bind".toList, extraction.archive, "/archive".toList, true⟩ /\
        parseMount extraction.destinationMount =
          some ⟨"bind".toList, extraction.destination, "/extract".toList, false⟩) <->
      ',' ∉ root /\ ',' ∉ archivePath /\ ',' ∉ destinationPath := by
  have confined := extract_confined accepted
  rw [extraction.parse_archiveMount_iff, extraction.parse_destinationMount_iff,
    confined.archive_comma, confined.destination_comma, not_or, not_or]
  constructor
  · rintro ⟨_, ⟨rootPlain, archivePlain⟩, _, destinationPlain⟩
    exact ⟨rootPlain, archivePlain, destinationPlain⟩
  · rintro ⟨rootPlain, archivePlain, destinationPlain⟩
    exact ⟨confined, ⟨rootPlain, archivePlain⟩, rootPlain, destinationPlain⟩

/-- A server directory with an archive in it. -/
def archiveTree : FileTree Text Bytes :=
  (((FileTree.bare Text Bytes).plant [] "etc".toList .directory).plant [] "srv".toList .directory).plant
    ["srv".toList] "pack.zip".toList (.file [80, 75])

theorem extract_mounts_iff_plain :
    extract archiveTree "/srv".toList ⟨.ok (), .ok (some "debian".toList)⟩ "pack.zip".toList
        "world".toList =
      .ok ⟨"/srv/pack.zip".toList, "/srv/world".toList, "debian".toList,
        "unzip -o /archive -d /extract".toList⟩ /\
      Extraction.Confined archiveTree "/srv".toList "pack.zip".toList "world".toList
        ⟨"/srv/pack.zip".toList, "/srv/world".toList, "debian".toList,
          "unzip -o /archive -d /extract".toList⟩ :=
  ⟨by decide +kernel, ((extract_mounts_iff archiveTree "/srv".toList "pack.zip".toList "world".toList
    ⟨.ok (), .ok (some "debian".toList)⟩ _ (by decide +kernel)).mpr (by decide)).1⟩

/-- A destination whose name goes on with a source field of its own mounts a
directory of the host instead. -/
theorem comma_mounts_host_directory :
    Not (forall (tree : FileTree Text Bytes) (root archivePath destinationPath : Text)
      (surroundings : Surroundings) (extraction : Extraction),
      extract tree root surroundings archivePath destinationPath = .ok extraction ->
      parseMount extraction.destinationMount =
        some ⟨"bind".toList, extraction.destination, "/extract".toList, false⟩) := by
  intro intended
  have accepted : extract archiveTree "/srv".toList ⟨.ok (), .ok (some "debian".toList)⟩
      "pack.zip".toList "d,src=/etc".toList =
        .ok ⟨"/srv/pack.zip".toList, "/srv/d,src=/etc".toList, "debian".toList,
          "unzip -o /archive -d /extract".toList⟩ := by decide +kernel
  have read := intended _ _ _ _ _ _ accepted
  have mounted : parseMount (Extraction.destinationMount
      ⟨"/srv/pack.zip".toList, "/srv/d,src=/etc".toList, "debian".toList,
        "unzip -o /archive -d /extract".toList⟩) =
      some ⟨"bind".toList, "/etc".toList, "/extract".toList, false⟩ := by decide
  rw [mounted] at read
  revert read
  decide

end Storage
end Agapornis
