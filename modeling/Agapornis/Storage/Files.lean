import Agapornis.Storage.Confinement

namespace Agapornis
namespace Storage

open Foundations Agapornis.Core

/-!
# Deleting and renaming server files

Both operations work on the host when the server is stopped or its data
directory is mounted from there, and otherwise through a shell command in the
container.  What an operation does is returned as a `Deed`; `Deed.places`
says which entries of the tree that deed removes or moves, links on the way
being followed and a link in the last position being the entry itself.

Both operations refuse the server root before they look at anything else, but
they compare the requested text, not what it normalises to.
-/

variable {Content : Type}

/-- Where the files of a server are. -/
structure Root where
  host : List (Component Text)
  container : Text
  useHost : Bool

/-- The path of the server's directory on the side that is acted on.  The
commands spell the container directory with slashes only. -/
def Root.path (root : Root) : List (Component Text) :=
  if root.useHost then root.host else pathComponents (Paths.slashed root.container)

/-- Quote a word for the shell. -/
def shellQuote (value : Text) : Text :=
  "'".toList ++
    value.flatMap (fun character => if character = Char.ofNat 39 then "'\\''".toList else [character]) ++
    "'".toList

/-- The commands by which an entry is removed or renamed in a container. -/
inductive ContainerCommand where
  | remove (target : Text)
  | move (source destination : Text)
  deriving DecidableEq, Repr

/-- The text handed to the container's shell. -/
def ContainerCommand.text : ContainerCommand -> Text
  | .remove target => "rm -rf -- ".toList ++ shellQuote target
  | .move source destination =>
      "[ ! -e ".toList ++ shellQuote destination ++ " ] || exit 45; mv -- ".toList ++
        shellQuote source ++ " ".toList ++ shellQuote destination

/-- What an accepted request does. -/
inductive Deed where
  | removeDirAll (target : List (Component Text))
  | removeFile (target : List (Component Text))
  | rename (source destination : List (Component Text))
  | exec (command : ContainerCommand)
  deriving DecidableEq, Repr

/-- Dropped from the front of every requested path. -/
def cleanPath (path : Text) : Text :=
  Text.trimStartMatches ['/', '\\'] path

def delete (root : Root) (tree : FileTree Text Content) (path : Text) : Except Failure Deed :=
  if (cleanPath path).isEmpty || cleanPath path == ".".toList then
    .error (.bail "Deleting the server root is not allowed.")
  else if root.useHost then
    match confinedHostPath tree root.host (cleanPath path) true with
    | .error failure => .error failure
    | .ok target =>
        match resolve tree .stopAtLink target with
        | .ok (.found place, _) =>
            if tree.isDirectoryAt place then .ok (.removeDirAll target) else .ok (.removeFile target)
        | .ok (.absent _ _, _) => .error (.io .notFound)
        | .error error => .error (.io error)
  else
    match Paths.containerPath root.container (cleanPath path) with
    | .error failure => .error failure
    | .ok target => .ok (.exec (.remove (Paths.slashed target)))

/-- Control characters are the two ranges below the blank and above the tilde. -/
def isControl (character : Char) : Bool :=
  character.toNat < 0x20 || (0x7f <= character.toNat && character.toNat <= 0x9f)

def validateFileName (name : Text) : Except Failure Unit :=
  if name.isEmpty || name == ".".toList || name == "..".toList || name.contains '/' ||
      name.contains '\\' || name.contains (Char.ofNat 0) ||
      name.any (fun character => isControl character || "<>:\"|?*".toList.contains character) then
    .error (.bail "New name must be a single file or directory name.")
  else .ok ()

/-- Whether following a path leads to something; a failure other than a
missing component is reported. -/
def tryExists (tree : FileTree Text Content) (path : List (Component Text)) :
    Except Failure Bool :=
  match canonicalize tree path with
  | .ok _ => .ok true
  | .error .notFound => .ok false
  | .error error => .error (.io error)

def rename (root : Root) (tree : FileTree Text Content) (path newName : Text) :
    Except Failure Deed :=
  match validateFileName newName with
  | .error failure => .error failure
  | .ok () =>
      if (cleanPath path).isEmpty || cleanPath path == ".".toList then
        .error (.bail "Renaming the server root is not allowed.")
      else if root.useHost then
        match confinedHostPath tree root.host (cleanPath path) true with
        | .error failure => .error failure
        | .ok source =>
            if source.isEmpty then .error (.bail "invalid source path")
            else
              match tryExists tree (source.dropLast ++ [.normal newName]) with
              | .error failure => .error failure
              | .ok true => .error (.bail "A file or directory with that name already exists.")
              | .ok false => .ok (.rename source (source.dropLast ++ [.normal newName]))
      else
        match Paths.containerPath root.container (cleanPath path) with
        | .error failure => .error failure
        | .ok target =>
            let source := Paths.slashed target
            let parent := ((Text.rsplitOnce '/' source).map Prod.fst).getD root.container
            .ok (.exec (.move source (parent ++ '/' :: newName)))

/-! ## The entries a deed removes or moves -/

namespace Deed

/-- The path of the entry that is removed or moved. -/
def source : Deed -> List (Component Text)
  | .removeDirAll target => target
  | .removeFile target => target
  | .rename source _ => source
  | .exec (.remove target) => pathComponents target
  | .exec (.move source _) => pathComponents source

/-- The path to which an entry is moved. -/
def destination : Deed -> Option (List (Component Text))
  | .rename _ destination => some destination
  | .exec (.move _ destination) => some (pathComponents destination)
  | _ => none

end Deed

/-- The place of the entry which a path names, whether it exists or not. -/
def entryPlace (tree : FileTree Text Content) (path : List (Component Text)) : Option (List Text) :=
  match resolve tree .stopAtLink path with
  | .ok (.found place, _) => some place
  | .ok (.absent holder name, _) => some (holder ++ [name])
  | .error _ => none

/-- The places of an existing entry and of its destination. -/
def Deed.places (tree : FileTree Text Content) (deed : Deed) : List (List Text) :=
  match resolve tree .stopAtLink deed.source with
  | .ok (.found place, _) => place :: (deed.destination.bind (entryPlace tree)).toList
  | _ => []

/-- A place strictly below the directory to which the root leads. -/
def StrictlyInside (tree : FileTree Text Content) (root : List (Component Text))
    (place : List Text) : Prop :=
  Exists fun canonicalRoot => canonicalize tree root = .ok canonicalRoot /\
    canonicalRoot <+: place /\ place ≠ canonicalRoot

/-- A deed that leaves the server root alone and stays within it. -/
structure ActsBelowRoot (tree : FileTree Text Content) (root : Root) (deed : Deed) : Prop where
  not_root : deed.source ≠ root.path
  inside : forall place, place ∈ deed.places tree -> StrictlyInside tree root.path place

/-- The requested path names something other than the root itself, and the
directory which holds that entry, links followed, lies below the root. -/
def NamesEntryInside (tree : FileTree Text Content) (root : Root) (path : Text) : Prop :=
  Exists fun names => Paths.relative (cleanPath path) = .ok names /\ names ≠ [] /\
    forall holder name left,
      resolve tree .stopAtLink (root.path ++ names.map .normal) =
        .ok (.found (holder ++ [name]), left) ->
      Inside tree root.path holder

theorem strictlyInside_of_holder {tree : FileTree Text Content} {root : List (Component Text)}
    {holder : List Text} (inside : Inside tree root holder) (name : Text) :
    StrictlyInside tree root (holder ++ [name]) := by
  rcases inside with ⟨canonicalRoot, found, below⟩
  refine ⟨canonicalRoot, found, below.trans (List.prefix_append holder [name]), ?_⟩
  intro same
  have shorter := below.length_le
  rw [← same, List.length_append, List.length_singleton] at shorter
  omega

theorem inside_of_strictlyInside {tree : FileTree Text Content} {root : List (Component Text)}
    {holder : List Text} {name : Text} (inside : StrictlyInside tree root (holder ++ [name])) :
    Inside tree root holder := by
  rcases inside with ⟨canonicalRoot, found, below, different⟩
  rcases List.prefix_concat_iff.mp below with same | above
  · exact absurd same.symm different
  · exact ⟨canonicalRoot, found, above⟩

/-- In a directory, the entry of a name is at the directory's place. -/
theorem entryPlace_snoc {tree : FileTree Text Content} {front : List (Component Text)}
    {holder : List Text} {left : Nat} (walked : resolve tree .follow front = .ok (.found holder, left))
    (directory : tree.node holder = some .directory) (name : Text) :
    entryPlace tree (front ++ [.normal name]) = some (holder ++ [name]) := by
  unfold resolve at walked
  unfold entryPlace resolve
  rw [walk_snoc tree .stopAtLink maxLinks [] front name tree.top_directory, walked]
  simp only [continueWalk, directory]
  rw [walk_normal]
  cases tree.node (holder ++ [name]) with
  | none => rfl
  | some node =>
      cases node with
      | directory =>
          simp only [walk_nil]
      | file content => rfl
      | link text => rfl

theorem entryPlace_of_found {tree : FileTree Text Content} {path : List (Component Text)}
    {place : List Text} {left : Nat}
    (walked : resolve tree .stopAtLink path = .ok (.found place, left)) :
    entryPlace tree path = some place := by
  rw [entryPlace]
  rw [walked]

/-- A deed about the entry with the given names, which moves it, if at all,
to another name in the same directory. -/
structure Deed.About (deed : Deed) (root : List (Component Text)) (names : List Text) : Prop where
  source : deed.source = root ++ names.map .normal
  destination : forall path front last, deed.destination = some path -> names = front ++ [last] ->
    Exists fun newName => path = (root ++ front.map .normal) ++ [.normal newName]

theorem Deed.About.actsBelowRoot_iff {tree : FileTree Text Content} {root : Root} {deed : Deed}
    {names : List Text} (about : deed.About root.path names) :
    ActsBelowRoot tree root deed <->
      names ≠ [] /\ forall holder name left,
        resolve tree .stopAtLink (root.path ++ names.map .normal) =
          .ok (.found (holder ++ [name]), left) ->
        Inside tree root.path holder := by
  constructor
  · intro acts
    refine ⟨?_, ?_⟩
    · intro empty
      apply acts.not_root
      rw [about.source, empty, List.map_nil, List.append_nil]
    · intro holder name left walked
      have entry : StrictlyInside tree root.path (holder ++ [name]) := by
        apply acts.inside
        rw [Deed.places]
        rw [about.source, walked]
        exact List.mem_cons_self
      exact inside_of_strictlyInside entry
  · rintro ⟨notEmpty, holders⟩
    rcases (List.eq_nil_or_concat' names).resolve_left notEmpty with ⟨front, last, split⟩
    refine ⟨?_, ?_⟩
    · intro same
      rw [about.source] at same
      exact notEmpty (List.map_eq_nil_iff.mp (List.append_right_eq_self.mp same))
    · intro place member
      rw [Deed.places] at member
      rw [about.source] at member
      have regroup : root.path ++ names.map Component.normal =
          (root.path ++ front.map .normal) ++ [.normal last] := by
        rw [split]
        simp
      cases walked : resolve tree .stopAtLink (root.path ++ names.map .normal) with
      | error error =>
          rw [walked] at member
          cases member
      | ok arrival =>
          rcases arrival with ⟨arrival, left⟩
          rw [walked] at member
          cases arrival with
          | absent holder name => cases member
          | found entry =>
              have resolved := walked
              rw [regroup] at resolved
              rcases directory_of_resolve_append tree .stopAtLink resolved (List.cons_ne_nil _ _) with
                ⟨holder, remaining, above, directory, _⟩
              have entryAt := entryPlace_of_found resolved
              rw [entryPlace_snoc above directory last] at entryAt
              have isEntry : holder ++ [last] = entry := Option.some.inj entryAt
              subst isEntry
              have inside := holders holder last left walked
              rcases List.mem_cons.mp member with same | moved
              · subst same
                exact strictlyInside_of_holder inside last
              · cases toPath : deed.destination with
                | none =>
                    rw [toPath] at moved
                    cases moved
                | some path =>
                    rcases about.destination path front last toPath split with ⟨newName, isPath⟩
                    rw [toPath, Option.bind_some, isPath, entryPlace_snoc above directory newName] at moved
                    have moved_to : place = holder ++ [newName] := by simpa using moved
                    rw [moved_to]
                    exact strictlyInside_of_holder inside newName

/-! ## What the two operations do -/

theorem relative_of_confinedHostPath {tree : FileTree Text Content}
    {root path : List (Component Text)} {requested : Text} {mustExist : Bool}
    (confined : confinedHostPath tree root requested mustExist = .ok path) :
    Exists fun names => Paths.relative requested = .ok names /\ path = root ++ names.map .normal := by
  rw [confinedHostPath] at confined
  split at confined
  · cases confined
  · next lexical joined =>
      split at confined
      · cases confined
      · split at confined
        · cases confined
        · split at confined
          · cases confined
            exact relative_path_of_safeHostPath joined
          · cases confined

theorem pathComponents_containerPath {root requested target : Text}
    (joined : Paths.containerPath root requested = .ok target) {names : List Text}
    (accepted : Paths.relative requested = .ok names) :
    pathComponents (Paths.slashed target) =
      pathComponents (Paths.slashed root) ++ names.map .normal := by
  rcases Paths.containerPath_names joined with ⟨sameNames, again, whenEmpty, whenBelow⟩
  rw [accepted] at again
  cases again
  rcases List.eq_nil_or_concat' names with empty | ⟨front, last, split⟩
  · rw [whenEmpty empty, empty, List.map_nil, List.append_nil]
  · rcases whenBelow front last split with ⟨above, text, components⟩
    have lastName := Paths.relative_names accepted last (by rw [split]; simp)
    rw [text, pathComponents_append, components, pathComponents_name lastName.toProperName, split]
    simp

theorem delete_about {root : Root} {tree : FileTree Text Content} {path : Text} {deed : Deed}
    (deleted : delete root tree path = .ok deed) :
    Exists fun names => Paths.relative (cleanPath path) = .ok names /\ deed.About root.path names := by
  rw [delete] at deleted
  split at deleted
  · cases deleted
  · split at deleted
    · next onHost =>
        have rootPath : root.path = root.host := if_pos onHost
        split at deleted
        · cases deleted
        · next target confined =>
            rcases relative_of_confinedHostPath confined with ⟨names, accepted, joined⟩
            refine ⟨names, accepted, ?_⟩
            rw [rootPath]
            split at deleted
            · split at deleted <;> cases deleted <;>
                exact ⟨joined, fun _ _ _ impossible => by cases impossible⟩
            · cases deleted
            · cases deleted
    · next inContainer =>
        have rootPath : root.path = pathComponents (Paths.slashed root.container) := if_neg inContainer
        split at deleted
        · cases deleted
        · next target joined =>
            cases deleted
            rcases Paths.containerPath_names joined with ⟨names, accepted, _, _⟩
            refine ⟨names, accepted, ?_, fun _ _ _ impossible => by cases impossible⟩
            rw [rootPath]
            exact pathComponents_containerPath joined accepted

theorem validateFileName_proper {name : Text} (valid : validateFileName name = .ok ()) :
    ProperName name := by
  rw [validateFileName] at valid
  split at valid
  · cases valid
  · next accepted =>
      simp only [Bool.or_eq_true, not_or, List.isEmpty_iff, beq_iff_eq, List.contains_iff_mem] at accepted
      exact ⟨accepted.1.1.1.1.1.1, accepted.1.1.1.1.1.2, accepted.1.1.1.1.2, accepted.1.1.1.2⟩

theorem rename_about {root : Root} {tree : FileTree Text Content} {path newName : Text} {deed : Deed}
    (renamed : rename root tree path newName = .ok deed) :
    Exists fun names => Paths.relative (cleanPath path) = .ok names /\ deed.About root.path names := by
  rw [rename] at renamed
  split at renamed
  · cases renamed
  · next valid =>
      have proper := validateFileName_proper valid
      split at renamed
      · cases renamed
      · split at renamed
        · next onHost =>
            have rootPath : root.path = root.host := if_pos onHost
            split at renamed
            · cases renamed
            · next source confined =>
                rcases relative_of_confinedHostPath confined with ⟨names, accepted, joined⟩
                refine ⟨names, accepted, ?_⟩
                rw [rootPath]
                split at renamed
                · cases renamed
                · split at renamed
                  · cases renamed
                  · cases renamed
                  · cases renamed
                    refine ⟨joined, ?_⟩
                    intro moved front last isMoved split
                    cases isMoved
                    refine ⟨newName, ?_⟩
                    have regroup : source = (root.host ++ front.map .normal) ++ [.normal last] := by
                      rw [joined, split]
                      simp
                    rw [regroup, List.dropLast_concat]
        · next inContainer =>
            have rootPath : root.path = pathComponents (Paths.slashed root.container) := if_neg inContainer
            split at renamed
            · cases renamed
            · next target joined =>
                cases renamed
                rcases Paths.containerPath_names joined with ⟨names, accepted, _, whenBelow⟩
                refine ⟨names, accepted, ?_, ?_⟩
                · rw [rootPath]
                  exact pathComponents_containerPath joined accepted
                · intro moved front last isMoved split
                  cases isMoved
                  rcases whenBelow front last split with ⟨above, text, components⟩
                  have lastName := Paths.relative_names accepted last (by rw [split]; simp)
                  refine ⟨newName, ?_⟩
                  rw [text, Text.rsplitOnce_append lastName.no_slash, Option.map_some, Option.getD_some,
                    pathComponents_append, components, pathComponents_name proper, rootPath]

/-- Deleting or renaming acts on an entry strictly below the server root
exactly when the path names something other than the root in a directory
that lies below it. -/
theorem acts_below_root_iff (root : Root) (tree : FileTree Text Content) (path newName : Text)
    (deed : Deed)
    (accepted : delete root tree path = .ok deed \/ rename root tree path newName = .ok deed) :
    ActsBelowRoot tree root deed <-> NamesEntryInside tree root path := by
  have aboutNames : Exists fun names =>
      Paths.relative (cleanPath path) = .ok names /\ deed.About root.path names := by
    rcases accepted with deleted | renamed
    · exact delete_about deleted
    · exact rename_about renamed
  rcases aboutNames with ⟨names, relative, about⟩
  rw [about.actsBelowRoot_iff]
  constructor
  · rintro ⟨notEmpty, holders⟩
    exact ⟨names, relative, notEmpty, holders⟩
  · rintro ⟨again, sameRelative, notEmpty, holders⟩
    rw [relative] at sameRelative
    cases sameRelative
    exact ⟨notEmpty, holders⟩

/-- A stopped server whose files are on the host. -/
def stoppedServer : Root :=
  ⟨[.normal "srv".toList], "/home/container".toList, true⟩

theorem acts_below_root_iff_world :
    delete stoppedServer plantedLinkTree "/world".toList =
        .ok (.removeFile [.normal "srv".toList, .normal "world".toList]) /\
      (ActsBelowRoot plantedLinkTree stoppedServer
          (.removeFile [.normal "srv".toList, .normal "world".toList]) <->
        NamesEntryInside plantedLinkTree stoppedServer "/world".toList) :=
  ⟨by decide, acts_below_root_iff stoppedServer plantedLinkTree "/world".toList [] _
    (Or.inl (by decide))⟩

/-- A dot before a slash gets past the comparison and names the root. -/
theorem dot_slash_deletes_root :
    Not (forall (root : Root) (tree : FileTree Text Bytes) (path newName : Text) (deed : Deed),
      delete root tree path = .ok deed \/ rename root tree path newName = .ok deed ->
      ActsBelowRoot tree root deed) := by
  intro confinement
  have deleted : delete stoppedServer plantedLinkTree "./".toList =
      .ok (.removeDirAll [.normal "srv".toList]) := by decide
  exact (confinement _ _ _ [] _ (Or.inl deleted)).not_root rfl

end Storage
end Agapornis
