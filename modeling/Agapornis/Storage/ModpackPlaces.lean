import Agapornis.Foundations.TreeEntries
import Agapornis.Storage.Modpack

namespace Agapornis
namespace Storage

open Foundations Agapornis.Core

/-!
# Where the files of a modpack end up

The directories above a file are made below the nearest one that exists, the
temporary name is opened through whatever link stands at it, and what is
removed and renamed are entries of the directory above.  All of this happens
beneath the server root exactly if these three do.
-/

/-! ## What has to hold of a file -/

section Conditions

variable (origin : FileTree Text Bytes) (root : List (Component Text))

/-- If directories are missing on a path and can be made, the nearest one that
exists lies in the root. -/
def MadeInside (tree : FileTree Text Bytes) (path : List (Component Text)) : Prop :=
  forall holder, canonicalize tree path = .error .notFound -> (makeDirectories tree path).result = .ok () ->
    canonicalTarget tree path false = .ok holder -> Inside origin root holder

/-- Whether an entry is removed or renamed after the file has been written. -/
def Ending.Acts (ending : Ending) (target : PackTarget) (tolerant : Bool)
    (opened : FileTree Text Bytes) : Prop :=
  match ending with
  | .interrupted _ => False
  | .discarded _ => True
  | .complete =>
      (Exists fun found => looked tolerant (Storage.tryExists opened target.path) = .ok found) /\
        forall place left, resolve opened .stopAtLink target.path = .ok (.found place, left) ->
          Not (opened.node place = some .directory)

/-- The missing directories are made in the root, a link at the temporary name
does not lead out of it, and if entries are removed or renamed, the directory
that holds them lies in it. -/
structure PlacedInside (tree : FileTree Text Bytes) (target : PackTarget) (tolerant : Bool)
    (bytes : Bytes) (ending : Ending) : Prop where
  made : MadeInside origin root tree target.parent
  opened : forall place opened, openForWriting tree target.temporary bytes = .ok (place, opened) ->
    StrictlyInside origin root place
  finished : forall place opened holder,
    openForWriting tree target.temporary bytes = .ok (place, opened) ->
      ending.Acts target tolerant opened -> canonicalize tree target.parent = .ok holder ->
        Inside origin root holder

/-- All that the last call created, removed or renamed lies beneath the root. -/
def Beneath (_ : PackCall) (state : PackState) : Prop :=
  forall place, place ∈ state.touched -> StrictlyInside origin root place

end Conditions

section Placing

variable {origin : FileTree Text Bytes} {root : List (Component Text)} {listing : Listing Text Bytes}

theorem strictlyInside_entry_iff {holder : List Text} {name : Text} :
    StrictlyInside origin root (holder ++ [name]) <-> Inside origin root holder :=
  ⟨inside_of_strictlyInside, fun inside => strictlyInside_of_holder inside name⟩

theorem beneath_nothing (request : PackCall) (tree : FileTree Text Bytes) :
    Beneath origin root request ⟨tree, []⟩ := by
  intro place member
  cases member

theorem beneath_single_iff {request : PackCall} {tree : FileTree Text Bytes} {place : List Text} :
    Beneath origin root request ⟨tree, [place]⟩ <-> StrictlyInside origin root place := by
  constructor
  · intro beneath
    exact beneath place (List.mem_singleton_self place)
  · intro inside other member
    rw [List.mem_singleton.mp member]
    exact inside

/-! ## Making directories -/

/-- Above a missing path there is a nearest directory that exists. -/
theorem canonicalAncestor_exists {tree : FileTree Text Bytes} {up : List (Component Text)}
    (missing : canonicalize tree up.reverse = .error .notFound) :
    Exists fun holder => canonicalAncestor tree up = .ok holder := by
  induction up with
  | nil =>
      have top : canonicalize tree ([] : List (Component Text)) = .ok [] :=
        (canonicalize_eq_ok tree [] []).mpr ⟨maxLinks, walk_nil tree .follow maxLinks []⟩
      have same : canonicalize tree ([] : List (Component Text)) = .error .notFound := missing
      rw [top] at same
      cases same
  | cons last above ih =>
      rw [canonicalAncestor]
      split
      · next place _ => exact ⟨place, rfl⟩
      · next higher => exact ih higher
      · next error notMissing failed =>
          exfalso
          rw [List.reverse_cons, canonicalize, resolve,
            walk_append tree .follow maxLinks [] _ _ tree.top_directory (List.cons_ne_nil _ _)] at missing
          unfold canonicalize resolve at failed
          split at failed
          · cases failed
          · cases failed
            exact notMissing rfl
          · next walked =>
              cases failed
              rw [walked] at missing
              cases missing
              exact notMissing rfl

/-- The first component after which a path of names leads nowhere. -/
theorem gap_above {tree : FileTree Text Bytes} {names : List Text}
    (missing : canonicalize tree (names.map .normal) = .error .notFound) :
    Exists fun front => Exists fun name => Exists fun rest => Exists fun holder =>
      names = front ++ name :: rest /\ canonicalize tree (front.map .normal) = .ok holder /\
        canonicalize tree (front.map .normal ++ [.normal name]) = .error .notFound /\
        Gap tree (front.map .normal) holder name /\
        canonicalTarget tree (names.map .normal) false = .ok holder := by
  have up : canonicalize tree (names.map Component.normal).reverse.reverse = .error .notFound := by
    rw [List.reverse_reverse]
    exact missing
  rcases canonicalAncestor_exists up with ⟨holder, nearest⟩
  rcases canonicalAncestor_eq_ok tree up nearest with ⟨front, next, rest, split, found, nowhere⟩
  rw [List.reverse_reverse] at split
  rcases List.map_eq_append_iff.mp split with ⟨frontNames, others, whole, frontSame, othersSame⟩
  rcases List.map_eq_cons_iff.mp othersSame with ⟨name, restNames, cons, same, _⟩
  subst whole cons frontSame same
  refine ⟨frontNames, name, restNames, holder, rfl, found, nowhere, (gap_of_notFound tree found nowhere).2, ?_⟩
  rw [canonicalTarget, missing]
  exact nearest

theorem makeDirectories_inside_iff {tree : FileTree Text Bytes} (names : List Text) :
    (forall place, place ∈ (makeDirectories tree (names.map .normal)).created ->
        StrictlyInside origin root place) <-> MadeInside origin root tree (names.map .normal) := by
  cases path : canonicalize tree (names.map .normal) with
  | ok place =>
      rw [makeDirectories_of_found path]
      refine iff_of_true (fun other member => by cases member) ?_
      intro holder missing
      rw [path] at missing
      cases missing
  | error error =>
      by_cases missing : error = .notFound
      · subst missing
        rcases gap_above path with ⟨front, name, rest, holder, whole, found, nowhere, gap, nearest⟩
        cases gap with
        | free absent =>
            have made := makeDirectories_below_free tree found absent rest
            have created := makeDirectories_created found absent rest
            have split : front.map Component.normal ++ (name :: rest).map .normal = names.map .normal := by
              rw [whole, List.map_append]
            rw [split] at made created
            constructor
            · intro inside other _ _ sameNearest
              rw [nearest] at sameNearest
              cases sameNearest
              exact strictlyInside_entry_iff.mp (inside _ created.first)
            · intro inside place member
              rcases created.below place member with ⟨above, last, same, below⟩
              rw [same]
              exact strictlyInside_entry_iff.mpr (Inside.of_prefix (inside holder path made.succeeded nearest) below)
        | dangling text left link met =>
            have refused := makeDirectories_at_occupied tree nowhere met (rest.map .normal)
            have split : (front.map Component.normal ++ [.normal name]) ++ rest.map .normal =
                names.map .normal := by
              rw [whole]
              simp
            rw [split] at refused
            rw [refused]
            refine iff_of_true (fun other member => by cases member) ?_
            intro other _ succeeded
            rw [refused] at succeeded
            cases succeeded
      · rcases List.eq_nil_or_concat' names with empty | ⟨front, last, split⟩
        · subst empty
          have top : canonicalize tree ([] : List (Component Text)) = .ok [] :=
            (canonicalize_eq_ok tree [] []).mpr ⟨maxLinks, walk_nil tree .follow maxLinks []⟩
          exact absurd (top.symm.trans path) (by simp)
        · subst split
          rw [List.map_append, List.map_singleton] at path ⊢
          rcases makeDirectories_of_error path missing with ⟨refusal, refused⟩
          rw [refused]
          refine iff_of_true (fun other member => by cases member) ?_
          intro holder notFound
          rw [path] at notFound
          cases notFound
          exact absurd rfl missing

/-! ## The entries beside a temporary file -/

/-- A path leads to a directory, if it leads anywhere. -/
def LeadsOnlyTo (tree : FileTree Text Bytes) (parent : List (Component Text)) (holder : List Text) : Prop :=
  forall place, canonicalize tree parent = .ok place -> place = holder

theorem entryPlace_leadsOnlyTo {tree : FileTree Text Bytes} {parent : List (Component Text)}
    {holder place : List Text} {name : Text} (only : LeadsOnlyTo tree parent holder)
    (atPlace : entryPlace tree (parent ++ [.normal name]) = some place) : place = holder ++ [name] := by
  have reached : Exists fun arrival => Exists fun left =>
      resolve tree .stopAtLink (parent ++ [.normal name]) = .ok (arrival, left) := by
    unfold entryPlace at atPlace
    split at atPlace
    · next resolved => exact ⟨_, _, resolved⟩
    · next resolved => exact ⟨_, _, resolved⟩
    · cases atPlace
  rcases reached with ⟨arrival, left, resolved⟩
  rcases parent_of_resolve resolved with ⟨above, found, directory⟩
  rcases (canonicalize_eq_ok tree parent above).mp found with ⟨remaining, walked⟩
  rw [entryPlace_snoc walked directory] at atPlace
  rw [<- only above found]
  exact (Option.some.inj atPlace).symm

/-- A rename of entries of a directory in the root is beneath the root. -/
theorem rename_beneath {tree : FileTree Text Bytes} {parent : List (Component Text)} {holder : List Text}
    {source target : Text} {touched : List (List Text)} (only : LeadsOnlyTo tree parent holder)
    (inside : Inside origin root holder) (request : PackCall) :
    Beneath origin root request (performPack listing
      (.rename (parent ++ [.normal source]) (parent ++ [.normal target])) ⟨tree, touched⟩).2 := by
  intro place member
  rw [performPack] at member
  split at member
  · rcases List.mem_append.mp member with atSource | atTarget
    · rw [entryPlace_leadsOnlyTo only (Option.mem_toList.mp atSource)]
      exact strictlyInside_entry_iff.mpr inside
    · rw [entryPlace_leadsOnlyTo only (Option.mem_toList.mp atTarget)]
      exact strictlyInside_entry_iff.mpr inside
  · cases member

theorem unlinkEntry_eq_ok {tree after : FileTree Text Bytes} {path : List (Component Text)}
    {place : List Text} (removed : unlinkEntry tree path = .ok (place, after)) :
    Extends after tree := by
  unfold unlinkEntry at removed
  split at removed
  · next met _ _ =>
      cases unlinked : tree.unlink met with
      | error error =>
          rw [unlinked] at removed
          cases removed
      | ok gone =>
          rw [unlinked] at removed
          cases removed
          unfold FileTree.unlink at unlinked
          split at unlinked
          · cases unlinked
          · cases unlinked
          · cases unlinked
            exact tree.extends_without [place]
  · cases removed
  · cases removed

section Finishing

variable {opened : FileTree Text Bytes} {target : PackTarget} {holder : List Text}

/-- An entry that is no directory is removed. -/
theorem unlinkEntry_entry {parent : List (Component Text)} {name : Text} {node : Node Text Bytes}
    (found : canonicalize opened parent = .ok holder) (directory : opened.node holder = some .directory)
    (present : opened.node (holder ++ [name]) = some node) (notDirectory : Not (node = .directory)) :
    unlinkEntry opened (parent ++ [.normal name]) =
      .ok (holder ++ [name], opened.without [holder ++ [name]]) := by
  rcases resolve_present_entry found directory present with ⟨left, resolved⟩
  rw [unlinkEntry, resolved]
  dsimp only
  rw [unlink_eq_ok present notDirectory]
  rfl

/-- The rename at the end: if the target is no directory it succeeds. -/
theorem rename_beneath_iff (beside : Opened target.parent holder (temporaryName target.name) opened)
    (plain : Not (opened.node (holder ++ [target.name]) = some .directory)) (touched : List (List Text)) :
    (Program.required Failure.io (Program.ask (PackCall.rename target.temporary target.path)) :
        PackProgram Unit).Throughout (performPack listing) (Beneath origin root) ⟨opened, touched⟩ <->
      Inside origin root holder := by
  rcases beside.entry with ⟨node, present, notDirectory⟩
  rcases renameEntry_siblings listing beside.found beside.directory present notDirectory plain with
    ⟨renamed, success⟩
  rcases resolve_present_entry beside.found beside.directory present with ⟨left, resolved⟩
  rw [Program.throughout_required_iff, Program.throughout_ask]
  constructor
  · intro beneath
    rw [performPack, PackTarget.temporary, PackTarget.path, success] at beneath
    have moved := beneath (holder ++ [temporaryName target.name])
      (List.mem_append_left _ (Option.mem_toList.mpr (entryPlace_of_found resolved)))
    exact strictlyInside_entry_iff.mp moved
  · intro inside
    exact rename_beneath (fun place found => Except.ok.inj (found.symm.trans beside.found)) inside _

/-- The removal of the target and the rename: an entry is removed if the target
is no directory. -/
theorem replace_beneath_iff (beside : Opened target.parent holder (temporaryName target.name) opened)
    {node : Node Text Bytes} (present : opened.node (holder ++ [target.name]) = some node)
    {touched : List (List Text)} :
    (Program.required Failure.io (Program.ask (PackCall.removeFile target.path)) >>= fun _ =>
        Program.required Failure.io (Program.ask (PackCall.rename target.temporary target.path)) :
        PackProgram Unit).Throughout (performPack listing) (Beneath origin root) ⟨opened, touched⟩ <->
      (Not (opened.node (holder ++ [target.name]) = some .directory) -> Inside origin root holder) := by
  rw [Program.throughout_required, Program.throughout_ask, performPack]
  by_cases directory : opened.node (holder ++ [target.name]) = some .directory
  · rcases resolve_present_entry beside.found beside.directory directory with ⟨left, resolved⟩
    have refused : unlinkEntry opened target.path = .error .isADirectory := by
      rw [unlinkEntry, PackTarget.path, resolved]
      dsimp only
      rw [FileTree.unlink, directory]
      rfl
    refine iff_of_true ⟨?_, ?_⟩ (fun plain => absurd directory plain)
    · rw [refused]
      exact beneath_nothing _ opened
    · intro unused after ran
      rw [Program.run_ask, performPack, refused] at ran
      cases ran
  · have removed := unlinkEntry_entry beside.found beside.directory present
      (fun same => directory (same ▸ present))
    rw [PackTarget.path, removed, PackState.acted, beneath_single_iff, strictlyInside_entry_iff]
    constructor
    · rintro ⟨inside, _⟩ _
      exact inside
    · intro plain
      refine ⟨plain directory, ?_⟩
      intro unused after ran
      rw [Program.run_ask, performPack, removed] at ran
      cases ran
      rw [Program.throughout_required_iff, Program.throughout_ask]
      refine rename_beneath ?_ (plain directory) _
      intro place found
      have before := canonicalize_extends (unlinkEntry_eq_ok removed) found
      exact Except.ok.inj (before.symm.trans beside.found)

theorem tryExists_of_looked {tolerant : Bool} {path : List (Component Text)}
    (found : looked tolerant (Storage.tryExists opened path) = .ok true) :
    Exists fun place => canonicalize opened path = .ok place := by
  unfold Storage.tryExists looked at found
  cases path : canonicalize opened path with
  | ok place => exact ⟨place, rfl⟩
  | error error =>
      rw [path] at found
      cases error <;> cases tolerant <;> cases found

theorem present_of_looked (beside : Opened target.parent holder (temporaryName target.name) opened)
    {tolerant : Bool} (found : looked tolerant (Storage.tryExists opened target.path) = .ok true) :
    Exists fun node => opened.node (holder ++ [target.name]) = some node := by
  rcases tryExists_of_looked found with ⟨place, there⟩
  rcases (canonicalize_eq_ok opened _ place).mp there with ⟨left, walked⟩
  rcases resolve_entry beside.found beside.directory target.name with ⟨absent, _⟩ | ⟨node, present, _⟩
  · rcases resolve_free opened .follow beside.found ⟨beside.directory, absent⟩ with ⟨_, missing⟩
    have both := walked.symm.trans missing
    cases both
  · exact ⟨node, present⟩

theorem not_directory_of_looked (beside : Opened target.parent holder (temporaryName target.name) opened)
    {tolerant : Bool} (found : looked tolerant (Storage.tryExists opened target.path) = .ok false) :
    Not (opened.node (holder ++ [target.name]) = some .directory) := by
  intro directory
  have there := canonicalize_directory_entry beside.found directory
  rw [Storage.tryExists, PackTarget.path, there] at found
  cases found

theorem plain_of_entry (beside : Opened target.parent holder (temporaryName target.name) opened)
    (plain : Not (opened.node (holder ++ [target.name]) = some .directory)) :
    forall place left, resolve opened .stopAtLink target.path = .ok (.found place, left) ->
      Not (opened.node place = some .directory) := by
  intro place left resolved
  have only : LeadsOnlyTo opened target.parent holder :=
    fun other found => Except.ok.inj (found.symm.trans beside.found)
  rw [entryPlace_leadsOnlyTo only (entryPlace_of_found resolved)]
  exact plain

/-- The end of a file, once it has been written. -/
theorem finishFile_beneath_iff (beside : Opened target.parent holder (temporaryName target.name) opened)
    (tolerant : Bool) (ending : Ending) (touched : List (List Text)) :
    (finishFile target tolerant ending).Throughout (performPack listing) (Beneath origin root)
        ⟨opened, touched⟩ <->
      (ending.Acts target tolerant opened -> Inside origin root holder) := by
  cases ending with
  | interrupted failure => exact iff_of_true trivial (fun impossible => impossible.elim)
  | discarded failure =>
      rcases beside.entry with ⟨node, present, notDirectory⟩
      have removed := unlinkEntry_entry beside.found beside.directory present notDirectory
      have single : (finishFile target tolerant (.discarded failure)).Throughout (performPack listing)
          (Beneath origin root) ⟨opened, touched⟩ <->
            Beneath origin root (.removeFile target.temporary)
              (performPack listing (.removeFile target.temporary) ⟨opened, touched⟩).2 :=
        and_iff_left trivial
      rw [single, performPack, PackTarget.temporary, removed, PackState.acted, beneath_single_iff,
        strictlyInside_entry_iff]
      exact ⟨fun inside _ => inside, fun inside => inside trivial⟩
  | complete =>
      refine (and_iff_right (beneath_nothing _ opened)).trans ?_
      dsimp only [performPack, Program.bind]
      cases found : looked tolerant (Storage.tryExists opened target.path) with
      | error failure =>
          refine iff_of_true trivial ?_
          rintro ⟨⟨there, looks⟩, _⟩
          rw [found] at looks
          cases looks
      | ok there =>
          cases there with
          | false =>
              have plain := not_directory_of_looked beside found
              rw [rename_beneath_iff beside plain]
              exact ⟨fun inside _ => inside, fun inside => inside ⟨⟨false, found⟩, plain_of_entry beside plain⟩⟩
          | true =>
              rcases present_of_looked beside found with ⟨node, present⟩
              rw [replace_beneath_iff beside present]
              refine imp_congr_left ⟨fun plain => ⟨⟨true, found⟩, plain_of_entry beside plain⟩, ?_⟩
              rintro ⟨_, plain⟩ directory
              rcases resolve_present_entry beside.found beside.directory directory with ⟨left, resolved⟩
              exact plain _ left resolved directory

end Finishing

/-! ## Putting a file into its place -/

section Files

variable {tree : FileTree Text Bytes} {target : PackTarget} {tolerant : Bool} {bytes : Bytes} {ending : Ending}

/-- The file under its temporary name, and what comes after it. -/
theorem writeFile_beneath_iff {touched : List (List Text)} :
    (Program.required Failure.io (Program.ask (PackCall.create target.temporary bytes)) >>= fun _ =>
        finishFile target tolerant ending :
        PackProgram Unit).Throughout (performPack listing) (Beneath origin root) ⟨tree, touched⟩ <->
      (forall place opened, openForWriting tree target.temporary bytes = .ok (place, opened) ->
        StrictlyInside origin root place) /\
      (forall place opened holder, openForWriting tree target.temporary bytes = .ok (place, opened) ->
        ending.Acts target tolerant opened -> canonicalize tree target.parent = .ok holder ->
          Inside origin root holder) := by
  rw [Program.throughout_required, Program.throughout_ask, Program.run_ask, performPack]
  cases success : openForWriting tree target.temporary bytes with
  | error error =>
      refine iff_of_true ⟨beneath_nothing _ tree, ?_⟩ ⟨?_, ?_⟩
      · intro unused after ran
        cases ran
      · intro place opened impossible
        cases impossible
      · intro place opened holder impossible
        cases impossible
  | ok result =>
      rcases result with ⟨place, opened⟩
      rcases openForWriting_parent success with ⟨holder, found, directory⟩
      have beside := openForWriting_entry found directory success
      rw [PackState.acted, beneath_single_iff]
      constructor
      · rintro ⟨inside, rest⟩
        refine ⟨?_, ?_⟩
        · intro other after same
          cases same
          exact inside
        · intro other after above same acts leads
          cases same
          cases found.symm.trans leads
          exact (finishFile_beneath_iff beside tolerant ending [place]).mp (rest () _ rfl) acts
      · rintro ⟨inside, rest⟩
        refine ⟨inside place opened rfl, ?_⟩
        intro unused after ran
        cases ran
        exact (finishFile_beneath_iff beside tolerant ending [place]).mpr
          (fun acts => rest place opened holder rfl acts found)

/-- What follows once missing directories have been made in the root. -/
theorem writeFile_beneath_made {names : List Text} (plain : target.parent = names.map .normal)
    (missing : canonicalize tree target.parent = .error .notFound)
    (made : MadeInside origin root tree target.parent)
    (succeeded : (makeDirectories tree target.parent).result = .ok ()) {touched : List (List Text)} :
    (Program.required Failure.io (Program.ask (PackCall.create target.temporary bytes)) >>= fun _ =>
        finishFile target tolerant ending :
        PackProgram Unit).Throughout (performPack listing) (Beneath origin root)
          ⟨(makeDirectories tree target.parent).tree, touched⟩ := by
  rw [plain] at missing
  rcases gap_above missing with ⟨front, name, rest, holder, whole, found, nowhere, gap, nearest⟩
  have inside := made holder (plain ▸ missing) succeeded (plain ▸ nearest)
  cases gap with
  | dangling text left link met =>
      have refused := makeDirectories_at_occupied tree nowhere met (rest.map .normal)
      have split : (front.map Component.normal ++ [.normal name]) ++ rest.map .normal = target.parent := by
        rw [plain, whole]
        simp
      rw [split] at refused
      rw [refused] at succeeded
      cases succeeded
  | free absent =>
      have below := makeDirectories_below_free tree found absent rest
      have split : front.map Component.normal ++ (name :: rest).map .normal = target.parent := by
        rw [plain, whole, List.map_append]
      rw [split] at below
      have insideNew : Inside origin root (holder ++ name :: rest) := inside.of_prefix (List.prefix_append _ _)
      apply writeFile_beneath_iff.mpr
      constructor
      · intro place opened success
        rcases resolve_free _ .follow below.reached ⟨below.directory, below.empty _⟩ with ⟨left, followed⟩
        rw [openForWriting, PackTarget.temporary, followed] at success
        cases success
        exact strictlyInside_entry_iff.mpr insideNew
      · intro place opened other success acts leads
        cases below.reached.symm.trans leads
        exact insideNew

/-- A file is put into its place beneath the root exactly if its directories,
its temporary name and the entries beside it are. -/
theorem placeFile_beneath_iff {names : List Text} (plain : target.parent = names.map .normal)
    {touched : List (List Text)} :
    (placeFile target tolerant bytes ending).Throughout (performPack listing) (Beneath origin root)
        ⟨tree, touched⟩ <->
      PlacedInside origin root tree target tolerant bytes ending := by
  have made : Beneath origin root (.createDirAll target.parent)
      (performPack listing (.createDirAll target.parent) ⟨tree, touched⟩).2 <->
        MadeInside origin root tree target.parent := by
    rw [plain]
    exact makeDirectories_inside_iff names
  unfold placeFile
  rw [Program.throughout_required, Program.throughout_ask, Program.run_ask, made]
  constructor
  · rintro ⟨inside, rest⟩
    have written {holder : List Text} (found : canonicalize tree target.parent = .ok holder)
        (directory : tree.node holder = some .directory) := by
      have isDirectory : isDirectory tree target.parent = true := by
        simp only [isDirectory, found, FileTree.isDirectoryAt_iff, directory]
      have nothing : makeDirectories tree target.parent = ⟨[], tree, .ok ()⟩ := by
        rw [makeDirectories_of_found found, if_pos isDirectory]
      have ran : (performPack listing (.createDirAll target.parent) ⟨tree, touched⟩) = (.ok (), ⟨tree, []⟩) := by
        rw [performPack, nothing]
      exact writeFile_beneath_iff.mp (rest () ⟨tree, []⟩ (by rw [ran]))
    refine ⟨inside, ?_, ?_⟩
    · intro place opened success
      rcases openForWriting_parent success with ⟨holder, found, directory⟩
      exact (written found directory).1 place opened success
    · intro place opened holder success acts leads
      rcases openForWriting_parent success with ⟨other, found, directory⟩
      exact (written found directory).2 place opened holder success acts leads
  · rintro ⟨inside, opened, finished⟩
    refine ⟨inside, ?_⟩
    intro unused after ran
    rw [performPack] at ran
    rcases Prod.mk.inj ran with ⟨success, same⟩
    subst same
    have succeeded : (makeDirectories tree target.parent).result = .ok () := Except.ok.inj success
    cases path : canonicalize tree target.parent with
    | ok holder =>
        have sameTree : (makeDirectories tree target.parent).tree = tree := by
          rw [makeDirectories_of_found path]
        rw [sameTree]
        exact writeFile_beneath_iff.mpr ⟨opened, finished⟩
    | error error =>
        by_cases missing : error = .notFound
        · subst missing
          exact writeFile_beneath_made plain path inside succeeded
        · exfalso
          rcases List.eq_nil_or_concat' names with empty | ⟨front, last, split⟩
          · have top : canonicalize tree ([] : List (Component Text)) = .ok [] :=
              (canonicalize_eq_ok tree [] []).mpr ⟨maxLinks, walk_nil tree .follow maxLinks []⟩
            rw [plain, empty] at path
            exact absurd (top.symm.trans path) (by simp)
          · rw [plain, split, List.map_append, List.map_singleton] at path succeeded
            rcases makeDirectories_of_error path missing with ⟨refusal, refused⟩
            rw [refused] at succeeded
            cases succeeded

end Files

end Placing

/-! ## Whole installations -/

section Installations

variable (origin : FileTree Text Bytes) (tools : DownloadTools) (root : List Text)

/-- A download that gets as far as storing something does so in the root. -/
def DownloadInside (total : Nat) (file : PackFile) (state : PackState) : Prop :=
  file.1.isUnsupportedOnServer = false ->
    forall download, prepareDownload tools file.1 file.2 = .ok download ->
      PlacedInside origin (root.map .normal) state.tree (packTarget root download.names) false
        (receive [] total download.response.chunks).bytes
        (downloadEnding tools file.1 download (receive [] total download.response.chunks))

/-- An entry of the archive that is unpacked comes to lie in the root. -/
def EntryInside (entry : ZipEntry) (relativeName : Text) (state : PackState) : Prop :=
  forall names, overrideNames entry relativeName = .ok names ->
    if entry.isDir then MadeInside origin (root.map .normal) state.tree ((root ++ names).map .normal)
    else PlacedInside origin (root.map .normal) state.tree (packTarget root names) true entry.content
      (overrideEnding entry)

def OverrideInside (item : Override) (state : PackState) : Prop :=
  forall entry relativeName, item.entry = .ok entry ->
    Text.stripPrefix item.front entry.name = some relativeName -> relativeName.isEmpty = false ->
      EntryInside origin root entry relativeName state

variable (listing : Listing Text Bytes)

/-- Every file of an installation, when its turn comes, is put into the root. -/
structure InstalledInside (tree : FileTree Text Bytes) (files : List PackFile)
    (archive : Except Failure (List (Except Failure ZipEntry))) : Prop where
  downloads : Program.Along (performPack listing) (downloadSupported tools root)
    (DownloadInside tree tools root) 0 files ⟨tree, []⟩
  overrides : forall total after entries,
    (downloadFiles tools root files).run (performPack listing) ⟨tree, []⟩ = (.ok total, after) ->
      archive = .ok entries ->
        Program.Along (performPack listing) (fun (_ : Unit) item => extractOverride root item)
          (fun _ item state => OverrideInside tree root item state) () (overridesOf entries) after

variable {origin tools root listing}

theorem downloadSupported_beneath_iff (total : Nat) (file : PackFile) (state : PackState) :
    (downloadSupported tools root total file).Throughout (performPack listing)
        (Beneath origin (root.map .normal)) state <->
      DownloadInside origin tools root total file state := by
  unfold downloadSupported DownloadInside
  cases unsupported : file.1.isUnsupportedOnServer with
  | true => exact iff_of_true trivial (fun impossible => by cases impossible)
  | false =>
      rw [if_neg Bool.false_ne_true]
      unfold downloadFile
      cases prepared : prepareDownload tools file.1 file.2 with
      | error failure => exact iff_of_true trivial (fun _ _ impossible => by cases impossible)
      | ok download =>
          dsimp only
          rw [Program.throughout_bind, placeFile_beneath_iff rfl]
          constructor
          · rintro ⟨placed, _⟩ _ other same
            cases same
            exact placed
          · intro placed
            exact ⟨placed rfl download rfl, fun _ _ _ => trivial⟩

theorem extractEntry_beneath_iff (entry : ZipEntry) (relativeName : Text) (state : PackState) :
    (extractEntry root entry relativeName).Throughout (performPack listing)
        (Beneath origin (root.map .normal)) state <->
      EntryInside origin root entry relativeName state := by
  unfold extractEntry EntryInside
  cases named : overrideNames entry relativeName with
  | error failure => exact iff_of_true trivial (fun _ impossible => by cases impossible)
  | ok names =>
      dsimp only
      cases directory : entry.isDir with
      | true =>
          rw [if_pos rfl, Program.throughout_required_iff, Program.throughout_ask]
          have made : Beneath origin (root.map .normal) (.createDirAll ((root ++ names).map .normal))
              (performPack listing (.createDirAll ((root ++ names).map .normal)) state).2 <->
                MadeInside origin (root.map .normal) state.tree ((root ++ names).map .normal) :=
            makeDirectories_inside_iff (root ++ names)
          rw [made]
          constructor
          · intro inside other same
            cases same
            exact inside
          · intro inside
            exact inside names rfl
      | false =>
          rw [if_neg Bool.false_ne_true, placeFile_beneath_iff rfl]
          constructor
          · intro inside other same
            cases same
            exact inside
          · intro inside
            exact inside names rfl

theorem extractOverride_beneath_iff (item : Override) (state : PackState) :
    (extractOverride root item).Throughout (performPack listing) (Beneath origin (root.map .normal)) state <->
      OverrideInside origin root item state := by
  unfold extractOverride OverrideInside
  cases item.entry with
  | error failure => exact iff_of_true trivial (fun _ _ impossible => by cases impossible)
  | ok entry =>
      dsimp only
      cases stripped : Text.stripPrefix item.front entry.name with
      | none =>
          refine iff_of_true trivial ?_
          intro other relativeName same others
          cases same
          rw [stripped] at others
          cases others
      | some relativeName =>
          have only : (forall other otherName, (Except.ok entry : Except Failure ZipEntry) = .ok other ->
              Text.stripPrefix item.front other.name = some otherName -> otherName.isEmpty = false ->
                EntryInside origin root other otherName state) <->
              (relativeName.isEmpty = false -> EntryInside origin root entry relativeName state) := by
            constructor
            · intro inside filled
              exact inside entry relativeName rfl stripped filled
            · intro inside other otherName same others filled
              cases same
              cases stripped.symm.trans others
              exact inside filled
          rw [only]
          dsimp only
          by_cases empty : relativeName.isEmpty = true
          · rw [if_pos empty]
            exact iff_of_true trivial (fun filled => absurd filled (by rw [empty]; decide))
          · rw [if_neg empty, extractEntry_beneath_iff]
            exact ⟨fun inside _ => inside, fun inside => inside (Bool.eq_false_of_not_eq_true empty)⟩

/-- What an installation creates, removes and renames, all of it lies beneath
the root exactly if each file, when its turn comes, is put into the root. -/
theorem installFiles_beneath_iff (tools : DownloadTools) (listing : Listing Text Bytes) (root : List Text)
    (tree : FileTree Text Bytes) (files : List PackFile)
    (archive : Except Failure (List (Except Failure ZipEntry))) :
    (installFiles tools root files archive).Throughout (performPack listing)
        (Beneath tree (root.map .normal)) ⟨tree, []⟩ <->
      InstalledInside tools root listing tree files archive := by
  have downloads : (downloadFiles tools root files).Throughout (performPack listing)
      (Beneath tree (root.map .normal)) ⟨tree, []⟩ <->
        Program.Along (performPack listing) (downloadSupported tools root)
          (DownloadInside tree tools root) 0 files ⟨tree, []⟩ :=
    Program.throughout_forEach (performPack listing) downloadSupported_beneath_iff 0 files ⟨tree, []⟩
  have overrides (entries : List (Except Failure ZipEntry)) (after : PackState) :
      (extractOverrides root (.ok entries)).Throughout (performPack listing)
          (Beneath tree (root.map .normal)) after <->
        Program.Along (performPack listing) (fun (_ : Unit) item => extractOverride root item)
          (fun _ item state => OverrideInside tree root item state) () (overridesOf entries) after :=
    Program.throughout_forEach (performPack listing) (fun _ => extractOverride_beneath_iff) ()
      (overridesOf entries) after
  unfold installFiles
  rw [Program.throughout_bind, downloads]
  constructor
  · rintro ⟨first, rest⟩
    refine ⟨first, ?_⟩
    intro total after entries ran readable
    subst readable
    exact (overrides entries after).mp (rest total after ran)
  · rintro ⟨first, rest⟩
    refine ⟨first, ?_⟩
    intro total after ran
    cases archive with
    | error failure => trivial
    | ok entries => exact (overrides entries after).mpr (rest total after entries ran rfl)

end Installations

/-! ## A link to another directory -/

/-- A server directory in which the server has made a link to a directory of the host. -/
def linkedDirectoryTree : FileTree Text Bytes :=
  (((FileTree.bare Text Bytes).plant [] "etc".toList .directory).plant [] "srv".toList .directory).plant
    ["srv".toList] "mods".toList (.link ⟨true, [.normal "etc".toList]⟩)

/-- An archive with one override, below the name of the link. -/
def modOverride : ZipEntry where
  name := "overrides/mods/a.jar".toList
  unixMode := none
  content := [1]
  fault := none

def noDownloads : DownloadTools where
  parseUrl _ := .error (.bail "relative URL without a base")
  sha512 _ := []

/-- The override is written into the directory of the host. -/
theorem override_leaves_root :
    Not ((installFiles noDownloads ["srv".toList] [] (.ok [.ok modOverride])).Throughout
      (performPack (Listing.exact Text Bytes)) (Beneath linkedDirectoryTree (["srv".toList].map .normal))
      ⟨linkedDirectoryTree, []⟩) := by
  intro throughout
  have extracted := (Program.throughout_bind (performPack (Listing.exact Text Bytes)) _ _ _ _).mp throughout
  have overrides := (Program.throughout_forEach (performPack (Listing.exact Text Bytes))
    (fun (_ : Unit) => extractOverride_beneath_iff) () _ _).mp (extracted.2 0 ⟨linkedDirectoryTree, []⟩ rfl)
  have placed : EntryInside linkedDirectoryTree ["srv".toList] modOverride "mods/a.jar".toList
      ⟨linkedDirectoryTree, []⟩ := overrides.1 modOverride "mods/a.jar".toList rfl (by decide) (by decide)
  have named : overrideNames modOverride "mods/a.jar".toList = .ok ["mods".toList, "a.jar".toList] := by decide
  have inside := placed _ named
  rw [if_neg (by decide)] at inside
  have reached : (openForWriting linkedDirectoryTree
      (packTarget ["srv".toList] ["mods".toList, "a.jar".toList]).temporary modOverride.content).map Prod.fst =
        .ok ["etc".toList, "a.jar.agapornis-part".toList] := by decide
  cases opened : openForWriting linkedDirectoryTree
      (packTarget ["srv".toList] ["mods".toList, "a.jar".toList]).temporary modOverride.content with
  | error error =>
      rw [opened] at reached
      cases reached
  | ok result =>
      have place : result.1 = ["etc".toList, "a.jar.agapornis-part".toList] := by
        rw [opened] at reached
        exact Except.ok.inj reached
      rcases inside.opened result.1 result.2 opened with ⟨canonicalRoot, found, below, _⟩
      have rootPlace : canonicalize linkedDirectoryTree (["srv".toList].map .normal) = .ok ["srv".toList] := by
        decide
      rw [rootPlace] at found
      cases found
      rw [place] at below
      revert below
      decide

end Storage
end Agapornis
