import Agapornis.Foundations.Renames
import Agapornis.Core.PlainNames
import Agapornis.Storage.Files

namespace Agapornis
namespace Storage

open Foundations Agapornis.Core

/-!
# Moving server files

A request names up to a hundred entries and a directory.  Everything is checked
in the tree as it is, and only then the entries are renamed one after the other,
although each rename changes what the later ones find.
-/

variable {Content : Type}

def requiredRelativePath (path : Text) (message : String) : Except Failure (List Text) := do
  let relative <- Paths.relative path
  refuseIf relative.isEmpty message
  return relative

/-- The loop of `validatedSources` over the paths, with the sources before. -/
def validatedSourcesLoop : List (List Text) -> List Text -> Except Failure (List (List Text))
  | sources, [] => .ok sources
  | sources, path :: rest => do
      let relative <- requiredRelativePath path "The server root cannot be selected."
      refuseIf (sources.contains relative) "Duplicate source paths are not allowed."
      validatedSourcesLoop (sources ++ [relative]) rest

def validatedSources (sourcePaths : List Text) : Except Failure (List (List Text)) := do
  refuseIf sourcePaths.isEmpty "At least one source path is required."
  refuseIf (sourcePaths.length > 100) "No more than 100 items can be processed at once."
  validatedSourcesLoop [] sourcePaths

/-- Whether an entry is a link; a link in the last position is not followed. -/
def isSymlink (tree : FileTree Text Content) (path : List (Component Text)) : Except Errno Bool :=
  match resolve tree .stopAtLink path with
  | .ok (.found place, _) =>
      match tree.node place with
      | some (.link _) => .ok true
      | _ => .ok false
  | .ok (.absent _ _, _) => .error .notFound
  | .error error => .error error

/-- Whether a path leads to a directory, links followed. -/
def isDir (tree : FileTree Text Content) (path : List (Component Text)) : Except Errno Bool :=
  match canonicalize tree path with
  | .ok place => .ok (tree.isDirectoryAt place)
  | .error error => .error error

def fileName (path : List (Component Text)) : Except Failure Text :=
  match path.getLast? with
  | some (.normal name) => .ok name
  | _ => .error (.bail "invalid source path")

/-- The checks on one source. -/
def checkedMove (tree : FileTree Text Content) (root destination : List (Component Text))
    (relative : List Text) : Except Failure (Move Text) := do
  let source <- confinedHostPath tree root (Paths.display relative) true
  let symlink <- attempt (isSymlink tree source)
  refuseIf symlink "Symbolic links cannot be moved."
  let name <- fileName source
  let target := destination ++ [.normal name]
  refuseIf (source == target) "An item is already in the selected destination."
  let taken <- tryExists tree target
  refuseIf taken "A file or directory with that name already exists in the destination."
  let directory <- attempt (isDir tree source)
  refuseIf (directory && source.isPrefixOf destination) "A directory cannot be moved inside itself."
  return ⟨source, target⟩

def checkedMoves (tree : FileTree Text Content) (root destination : List (Component Text)) :
    List (List Text) -> Except Failure (List (Move Text))
  | [] => .ok []
  | relative :: rest => do
      let move <- checkedMove tree root destination relative
      let moves <- checkedMoves tree root destination rest
      return move :: moves

/-- The renames that a request comes to, or the failure of a check. -/
def plannedMoves (tree : FileTree Text Content) (root : List (Component Text))
    (sourcePaths : List Text) (destinationPath : Text) : Except Failure (List (Move Text)) := do
  let sources <- validatedSources sourcePaths
  let relative <- Paths.relative destinationPath
  let destination <- confinedHostPath tree root (Paths.display relative) true
  let directory <- attempt (isDir tree destination)
  refuseIf (!directory) "Move destination must be a directory."
  checkedMoves tree root destination sources

/-- The move of files on the host, with the tree that it leaves. -/
def moveFilesOnHost (listing : Listing Text Content) (tree : FileTree Text Content)
    (root : List (Component Text)) (sourcePaths : List Text) (destinationPath : Text) :
    Except Failure Unit × FileTree Text Content :=
  match plannedMoves tree root sourcePaths destinationPath with
  | .error failure => (.error failure, tree)
  | .ok moves => (attempt (renameAll listing tree moves).1, (renameAll listing tree moves).2)

/-! ## What a request asks for -/

/-- An existing entry that a source names. -/
def sourceItem (tree : FileTree Text Content) (root : List (Component Text)) (names : List Text) :
    Option (Movable Text) :=
  match canonicalize tree (root ++ names.map .normal), names.getLast? with
  | .ok place, some name => some ⟨root ++ names.map .normal, place, name⟩
  | _, _ => none

/-- The entries and the directory that a request names. -/
structure Requested (tree : FileTree Text Content) (root : List (Component Text)) (sourcePaths : List Text)
    (destinationPath : Text) (holder : List (Component Text)) (destination : List Text)
    (items : List (Movable Text)) : Prop where
  sources : Exists fun sources => validatedSources sourcePaths = .ok sources /\
    sources.map (sourceItem tree root) = items.map some
  directory : Exists fun names => Paths.relative destinationPath = .ok names /\
    holder = root ++ names.map .normal
  found : canonicalize tree holder = .ok destination

/-- A move that has succeeded has moved everything, and one that has failed has
changed nothing. -/
def MovesAllOrNothing (listing : Listing Text Content) (tree : FileTree Text Content)
    (root : List (Component Text)) (sourcePaths : List Text) (destinationPath : Text) : Prop :=
  match moveFilesOnHost listing tree root sourcePaths destinationPath with
  | (.ok _, after) => Exists fun holder => Exists fun destination => Exists fun items =>
      Requested tree root sourcePaths destinationPath holder destination items /\
        AllMoved tree after destination items
  | (.error _, after) => forall place, after.node place = tree.node place

/-- A check fails, or the first rename is refused, or the entries are apart. -/
def SafeToMove (tree : FileTree Text Content) (root : List (Component Text))
    (sourcePaths : List Text) (destinationPath : Text) : Prop :=
  (Exists fun failure => plannedMoves tree root sourcePaths destinationPath = .error failure) \/
    Exists fun holder => Exists fun destination => Exists fun items =>
      Requested tree root sourcePaths destinationPath holder destination items /\
        (RefusedFirst tree destination items \/ Apart tree holder destination items)

/-! ## What the checks establish -/

/-- A source as the validation returns it. -/
structure Selected (names : List Text) : Prop where
  nonempty : Not (names = [])
  again : Paths.relative (Paths.display names) = .ok names

theorem selected_of_below {path : Text} (below : Not (Paths.GoesUp path) /\ Not (Paths.plainNames path = [])) :
    Selected (Paths.plainNames path) :=
  ⟨below.2, Paths.relative_display (Paths.relative_names (Paths.relative_ok below.1))⟩

/-- A path is required to stay below the root and to name something there. -/
theorem requiredRelativePath_eq_ok {path : Text} {message : String} {names : List Text} :
    requiredRelativePath path message = .ok names <->
      (Not (Paths.GoesUp path) /\ Not (Paths.plainNames path = [])) /\ names = Paths.plainNames path := by
  rw [requiredRelativePath, Paths.relative_eq]
  constructor
  · intro accepted
    rcases bind_eq_ok.mp accepted with ⟨relative, joined, rest⟩
    rcases bind_eq_ok.mp rest with ⟨_, notEmpty, same⟩
    cases same
    by_cases up : Paths.GoesUp path
    · rw [if_pos up] at joined
      cases joined
    · rw [if_neg up] at joined
      cases joined
      exact ⟨⟨up, List.isEmpty_eq_false_iff.mp (refuseIf_eq_ok.mp notEmpty)⟩, rfl⟩
  · rintro ⟨⟨stays, nonempty⟩, rfl⟩
    rw [if_neg stays]
    refine bind_eq_ok.mpr ⟨_, rfl, bind_eq_ok.mpr ⟨(), refuseIf_eq_ok.mpr ?_, rfl⟩⟩
    exact List.isEmpty_eq_false_iff.mpr nonempty

/-- One path is taken when it is required rightly and is not among the sources yet. -/
theorem validatedSourcesLoop_cons_eq_ok {path : Text} {paths : List Text} {sources result : List (List Text)} :
    validatedSourcesLoop sources (path :: paths) = .ok result <->
      (Not (Paths.GoesUp path) /\ Not (Paths.plainNames path = [])) /\ Paths.plainNames path ∉ sources /\
        validatedSourcesLoop (sources ++ [Paths.plainNames path]) paths = .ok result := by
  have fresh : sources.contains (Paths.plainNames path) = false <-> Paths.plainNames path ∉ sources := by
    rw [Bool.eq_false_iff, ne_eq, List.contains_iff_mem]
  rw [validatedSourcesLoop, bind_eq_ok]
  constructor
  · rintro ⟨relative, required, rest⟩
    rcases requiredRelativePath_eq_ok.mp required with ⟨below, rfl⟩
    rcases bind_eq_ok.mp rest with ⟨_, passed, later⟩
    exact ⟨below, fresh.mp (refuseIf_eq_ok.mp passed), later⟩
  · rintro ⟨below, new, later⟩
    refine ⟨_, requiredRelativePath_eq_ok.mpr ⟨below, rfl⟩, bind_eq_ok.mpr ⟨(), ?_, later⟩⟩
    exact refuseIf_eq_ok.mpr (fresh.mpr new)

/-- The sources are the names of the paths, of which none goes up or is the root
and no two are the same. -/
theorem validatedSourcesLoop_eq_ok (paths : List Text) : forall {sources result : List (List Text)},
    validatedSourcesLoop sources paths = .ok result <->
      (forall path, path ∈ paths -> Not (Paths.GoesUp path) /\ Not (Paths.plainNames path = [])) /\
        (paths.map Paths.plainNames).Nodup /\
        (forall path, path ∈ paths -> Paths.plainNames path ∉ sources) /\
        result = sources ++ paths.map Paths.plainNames := by
  induction paths with
  | nil =>
      intro sources result
      rw [validatedSourcesLoop, Except.ok.injEq, List.map_nil, List.append_nil]
      exact ⟨fun same => ⟨nofun, List.nodup_nil, nofun, same.symm⟩, fun all => all.2.2.2.symm⟩
  | cons path paths induction =>
      intro sources result
      rw [validatedSourcesLoop_cons_eq_ok, induction]
      simp only [List.mem_cons, forall_eq_or_imp, List.map_cons, List.nodup_cons, List.mem_map, not_exists,
        not_and, List.mem_append, List.not_mem_nil, or_false, not_or, List.append_assoc, List.singleton_append]
      constructor
      · rintro ⟨below, new, each, distinct, fresh, same⟩
        exact ⟨⟨below, each⟩, ⟨fun other member => (fresh other member).2, distinct⟩,
          ⟨new, fun other member => (fresh other member).1⟩, same⟩
      · rintro ⟨⟨below, each⟩, ⟨apart, distinct⟩, ⟨new, fresh⟩, same⟩
        exact ⟨below, new, each, distinct, fun other member => ⟨fresh other member, apart other member⟩, same⟩

/-- What the selection of sources comes to: one to a hundred paths below the root,
each told once. -/
theorem validatedSources_eq_ok {sourcePaths : List Text} {sources : List (List Text)} :
    validatedSources sourcePaths = .ok sources <->
      (Not (sourcePaths = []) /\ sourcePaths.length <= 100) /\
        (forall path, path ∈ sourcePaths -> Not (Paths.GoesUp path) /\ Not (Paths.plainNames path = [])) /\
        (sourcePaths.map Paths.plainNames).Nodup /\ sources = sourcePaths.map Paths.plainNames := by
  have loop : validatedSourcesLoop [] sourcePaths = .ok sources <-> _ := validatedSourcesLoop_eq_ok sourcePaths
  simp only [List.not_mem_nil, not_false_eq_true, implies_true, true_and, List.nil_append] at loop
  rw [← loop]
  constructor
  · intro validated
    rcases bind_eq_ok.mp validated with ⟨_, given, rest⟩
    rcases bind_eq_ok.mp rest with ⟨_, few, looped⟩
    refine ⟨⟨fun empty => ?_, ?_⟩, looped⟩
    · rw [empty] at given
      cases given
    · simpa using refuseIf_eq_ok.mp few
  · rintro ⟨⟨given, few⟩, looped⟩
    refine bind_eq_ok.mpr ⟨(), refuseIf_eq_ok.mpr ?_, bind_eq_ok.mpr ⟨(), refuseIf_eq_ok.mpr ?_, looped⟩⟩
    · rw [List.isEmpty_eq_false_iff]
      exact given
    · simpa using few

theorem selected_of_validatedSources {sourcePaths : List Text} {sources : List (List Text)}
    (validated : validatedSources sourcePaths = .ok sources) :
    forall names, names ∈ sources -> Selected names := by
  rcases validatedSources_eq_ok.mp validated with ⟨_, below, _, rfl⟩
  intro names member
  rcases List.mem_map.mp member with ⟨path, given, rfl⟩
  exact selected_of_below (below path given)

/-- A path that has to exist and is accepted leads somewhere. -/
theorem found_of_confinedHostPath {tree : FileTree Text Content} {root path : List (Component Text)}
    {requested : Text} (confined : confinedHostPath tree root requested true = .ok path) :
    Exists fun place => canonicalize tree path = .ok place := by
  rw [confinedHostPath] at confined
  split at confined
  · cases confined
  · next lexical joined =>
      split at confined
      · cases confined
      · split at confined
        · cases confined
        · next target compared =>
            split at confined
            · cases confined
              rw [canonicalTarget] at compared
              split at compared
              · next place found => exact ⟨place, found⟩
              · cases compared
              · cases compared
            · cases confined

/-- What the checks know of an item and of its new place. -/
structure Checked (tree : FileTree Text Content) (holder : List (Component Text)) (item : Movable Text) :
    Prop where
  source : canonicalize tree item.path = .ok item.place
  met : Exists fun left => resolve tree .stopAtLink item.path = .ok (.found item.place, left)
  vacant : canonicalize tree (holder ++ [.normal item.name]) = .error .notFound

theorem met_of_notSymlink {tree : FileTree Text Content} {path : List (Component Text)} {place : List Text}
    (found : canonicalize tree path = .ok place) (plain : isSymlink tree path = .ok false) :
    Exists fun left => resolve tree .stopAtLink path = .ok (.found place, left) := by
  rw [isSymlink] at plain
  split at plain
  · next met left stopped =>
      have notLink : forall text, Not (tree.node met = some (.link text)) := by
        intro text isLink
        rw [isLink] at plain
        cases plain
      have followed := walk_follow_of_stopAtLink tree stopped notLink
      rcases (canonicalize_eq_ok tree path place).mp found with ⟨again, walked⟩
      rw [resolve] at walked
      rw [walked] at followed
      cases followed
      exact ⟨_, stopped⟩
  · cases plain
  · cases plain

theorem vacant_of_tryExists {tree : FileTree Text Content} {path : List (Component Text)}
    (free : tryExists tree path = .ok false) : canonicalize tree path = .error .notFound := by
  rw [tryExists] at free
  split at free
  · cases free
  · next missing => exact missing
  · cases free

theorem fileName_last {root : List (Component Text)} {names : List Text} {name : Text}
    (nonempty : Not (names = [])) (named : fileName (root ++ names.map .normal) = .ok name) :
    names.getLast? = some name := by
  rcases (List.eq_nil_or_concat' names).resolve_left nonempty with ⟨front, last, rfl⟩
  rw [fileName] at named
  rw [List.map_append, List.map_singleton, <- List.append_assoc, List.getLast?_concat] at named
  cases named
  exact List.getLast?_concat

theorem checked_of_checkedMove {tree : FileTree Text Content} {root holder : List (Component Text)}
    {names : List Text} (selected : Selected names) {move : Move Text}
    (passed : checkedMove tree root holder names = .ok move) :
    Exists fun item => sourceItem tree root names = some item /\ move = item.move holder /\
      Checked tree holder item := by
  rcases bind_eq_ok.mp passed with ⟨source, confined, passed⟩
  rcases bind_eq_ok.mp passed with ⟨symlink, looked, passed⟩
  rcases bind_eq_ok.mp passed with ⟨_, notLink, passed⟩
  rcases bind_eq_ok.mp passed with ⟨name, named, passed⟩
  rcases bind_eq_ok.mp passed with ⟨_, _, passed⟩
  rcases bind_eq_ok.mp passed with ⟨taken, existing, passed⟩
  rcases bind_eq_ok.mp passed with ⟨_, notTaken, passed⟩
  rcases bind_eq_ok.mp passed with ⟨_, _, passed⟩
  rcases bind_eq_ok.mp passed with ⟨_, _, same⟩
  cases same
  rcases found_of_confinedHostPath confined with ⟨place, found⟩
  rcases relative_of_confinedHostPath confined with ⟨again, accepted, joined⟩
  rw [selected.again] at accepted
  cases accepted
  rw [refuseIf_eq_ok.mp notLink] at looked
  rw [refuseIf_eq_ok.mp notTaken] at existing
  have last := fileName_last selected.nonempty (joined ▸ named)
  refine ⟨⟨source, place, name⟩, ?_, rfl, found, met_of_notSymlink found (attempt_eq_ok.mp looked),
    vacant_of_tryExists existing⟩
  rw [sourceItem]
  rw [<- joined, found, last]

theorem checked_of_checkedMoves {tree : FileTree Text Content} {root holder : List (Component Text)}
    {sources : List (List Text)} : (forall names, names ∈ sources -> Selected names) ->
    forall {moves : List (Move Text)}, checkedMoves tree root holder sources = .ok moves ->
      Exists fun items => sources.map (sourceItem tree root) = items.map some /\
        moves = movesOf holder items /\ forall item, item ∈ items -> Checked tree holder item := by
  induction sources with
  | nil =>
      intro _ moves passed
      cases passed
      exact ⟨[], rfl, rfl, nofun⟩
  | cons names rest induction =>
      intro selected moves passed
      rcases bind_eq_ok.mp passed with ⟨move, here, passed⟩
      rcases bind_eq_ok.mp passed with ⟨later, there, same⟩
      cases same
      rcases checked_of_checkedMove (selected names List.mem_cons_self) here with
        ⟨item, isItem, isMove, checked⟩
      rcases induction (fun other member => selected other (List.mem_cons_of_mem names member)) there with
        ⟨items, areItems, areMoves, allChecked⟩
      refine ⟨item :: items, ?_, ?_, ?_⟩
      · rw [List.map_cons, List.map_cons, isItem, areItems]
      · rw [isMove, areMoves, movesOf, movesOf, List.map_cons]
      · intro other member
        rcases List.mem_cons.mp member with same | later
        · rw [same]
          exact checked
        · exact allChecked other later

theorem isDir_eq_ok {tree : FileTree Text Content} {path : List (Component Text)}
    (directory : isDir tree path = .ok true) :
    Exists fun place => canonicalize tree path = .ok place /\ tree.node place = some .directory := by
  rw [isDir] at directory
  split at directory
  · next place found =>
      have isDirectory : tree.isDirectoryAt place = true := by simpa using directory
      exact ⟨place, found, (tree.isDirectoryAt_iff place).mp isDirectory⟩
  · cases directory

/-- A plan moves the items that the request names, which are prepared for it. -/
theorem requested_of_plannedMoves {tree : FileTree Text Content} {root : List (Component Text)}
    {sourcePaths : List Text} {destinationPath : Text} {moves : List (Move Text)}
    (planned : plannedMoves tree root sourcePaths destinationPath = .ok moves) :
    Exists fun holder => Exists fun destination => Exists fun items =>
      Requested tree root sourcePaths destinationPath holder destination items /\
        Prepared tree holder destination items /\ moves = movesOf holder items := by
  rcases bind_eq_ok.mp planned with ⟨sources, validated, planned⟩
  rcases bind_eq_ok.mp planned with ⟨relative, joined, planned⟩
  rcases bind_eq_ok.mp planned with ⟨holder, confined, planned⟩
  rcases bind_eq_ok.mp planned with ⟨directory, looked, planned⟩
  rcases bind_eq_ok.mp planned with ⟨_, isDirectory, planned⟩
  rcases relative_of_confinedHostPath confined with ⟨again, accepted, path⟩
  rw [Paths.relative_display (Paths.relative_names joined)] at accepted
  cases accepted
  have directoryThere : directory = true := by simpa using refuseIf_eq_ok.mp isDirectory
  rw [directoryThere] at looked
  rcases isDir_eq_ok (attempt_eq_ok.mp looked) with ⟨destination, found, atPlace⟩
  rcases checked_of_checkedMoves (selected_of_validatedSources validated) planned with
    ⟨items, areItems, areMoves, checked⟩
  refine ⟨holder, destination, items, ⟨⟨sources, validated, areItems⟩, ⟨relative, joined, path⟩, found⟩,
    ⟨found, atPlace, ?_, ?_, ?_⟩, areMoves⟩
  · exact fun item member => (checked item member).source
  · exact fun item member => (checked item member).met
  · exact fun item member => (checked item member).vacant

/-- A request names one directory and one list of items. -/
theorem Requested.unique {tree : FileTree Text Content} {root : List (Component Text)}
    {sourcePaths : List Text} {destinationPath : Text} {holder other : List (Component Text)}
    {destination place : List Text} {items more : List (Movable Text)}
    (first : Requested tree root sourcePaths destinationPath holder destination items)
    (second : Requested tree root sourcePaths destinationPath other place more) :
    other = holder /\ place = destination /\ more = items := by
  rcases first.directory with ⟨names, accepted, path⟩
  rcases second.directory with ⟨again, sameAccepted, samePath⟩
  rw [accepted] at sameAccepted
  cases sameAccepted
  have samePaths := samePath.trans path.symm
  subst samePaths
  have places := second.found
  rw [first.found] at places
  cases places
  rcases first.sources with ⟨sources, validated, areItems⟩
  rcases second.sources with ⟨_, alsoValidated, alsoItems⟩
  rw [validated] at alsoValidated
  cases alsoValidated
  exact ⟨rfl, rfl, (List.map_inj_right fun _ _ => Option.some.inj).mp (alsoItems.symm.trans areItems)⟩

/-- Moving files is all or nothing exactly when a check fails, the first rename
is refused, or the entries are apart. -/
theorem movesAllOrNothing_iff (listing : Listing Text Content) (tree : FileTree Text Content)
    (root : List (Component Text)) (sourcePaths : List Text) (destinationPath : Text) :
    MovesAllOrNothing listing tree root sourcePaths destinationPath <->
      SafeToMove tree root sourcePaths destinationPath := by
  cases planned : plannedMoves tree root sourcePaths destinationPath with
  | error failure =>
      apply iff_of_true
      · rw [MovesAllOrNothing, moveFilesOnHost, planned]
        exact fun _ => rfl
      · exact Or.inl ⟨failure, planned⟩
  | ok moves =>
      rcases requested_of_plannedMoves planned with ⟨holder, destination, items, requested, prepared, rfl⟩
      have whole := allOrNothing_iff listing prepared
      have safe : SafeToMove tree root sourcePaths destinationPath <->
          RefusedFirst tree destination items \/ Apart tree holder destination items := by
        constructor
        · rintro (⟨failure, failed⟩ | ⟨other, place, more, again, alternatives⟩)
          · rw [planned] at failed
            cases failed
          · rcases requested.unique again with ⟨rfl, rfl, rfl⟩
            exact alternatives
        · exact fun alternatives => Or.inr ⟨holder, destination, items, requested, alternatives⟩
      rw [safe, <- whole, MovesAllOrNothing, moveFilesOnHost, planned]
      simp only
      cases ran : renameAll listing tree (movesOf holder items) with
      | mk outcome after =>
          cases outcome with
          | error error => exact Iff.rfl
          | ok done =>
              constructor
              · rintro ⟨other, place, more, again, moved⟩
                rcases requested.unique again with ⟨rfl, rfl, rfl⟩
                exact moved
              · exact fun moved => ⟨holder, destination, items, requested, moved⟩

/-- A server with two files of one name in two directories, and a third directory. -/
def twoNotesTree : FileTree Text Bytes :=
  ((((((FileTree.bare Text Bytes).plant [] "srv".toList .directory).plant
    ["srv".toList] "a".toList .directory).plant ["srv".toList] "b".toList .directory).plant
    ["srv".toList] "d".toList .directory).plant ["srv".toList, "a".toList] "x".toList (.file [1])).plant
    ["srv".toList, "b".toList] "x".toList (.file [2])

/-- Two files of one name are moved with success, and only one of them is left. -/
theorem second_file_replaces_first :
    Not (forall (listing : Listing Text Bytes) (tree : FileTree Text Bytes)
      (root : List (Component Text)) (sourcePaths : List Text) (destinationPath : Text),
      MovesAllOrNothing listing tree root sourcePaths destinationPath) := by
  intro claimed
  have holds := claimed (Listing.exact Text Bytes) twoNotesTree [.normal "srv".toList]
    ["a/x".toList, "b/x".toList] "d".toList
  have succeeded : (moveFilesOnHost (Listing.exact Text Bytes) twoNotesTree [.normal "srv".toList]
      ["a/x".toList, "b/x".toList] "d".toList).1 = .ok () := by
    decide +kernel
  cases ran : moveFilesOnHost (Listing.exact Text Bytes) twoNotesTree [.normal "srv".toList]
      ["a/x".toList, "b/x".toList] "d".toList with
  | mk outcome after =>
      rw [ran] at succeeded
      cases succeeded
      rw [MovesAllOrNothing, ran] at holds
      rcases holds with ⟨holder, destination, items, requested, moved⟩
      rcases requested.sources with ⟨sources, validated, areItems⟩
      have selected : validatedSources ["a/x".toList, "b/x".toList] =
          .ok [["a".toList, "x".toList], ["b".toList, "x".toList]] := by
        decide
      rw [selected] at validated
      cases validated
      have names : ([["a".toList, "x".toList], ["b".toList, "x".toList]].map
          (sourceItem twoNotesTree [.normal "srv".toList])).map (Option.map Movable.name) =
            [some "x".toList, some "x".toList] := by
        decide +kernel
      rw [areItems, List.map_map] at names
      have listed : (items.map Movable.name).map some = ["x".toList, "x".toList].map some := by
        rw [List.map_map]
        exact names
      have own := moved.own
      rw [(List.map_inj_right fun _ _ => Option.some.inj).mp listed] at own
      exact (List.nodup_cons.mp own).1 List.mem_cons_self

end Storage
end Agapornis
