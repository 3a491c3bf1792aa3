import Agapornis.Storage.ContainerScripts
import Mathlib.Data.List.Forall2

namespace Agapornis
namespace Storage

open Foundations Agapornis.Core
open Foundations.Shell (Symbol Token Script bare quoted reads)

/-!
# The words of a container command

Every path in the commands of a write, a delete, a rename, a new directory
and a move is one word which the shell takes as it stands.
-/

variable {Content : Type}

/-- The text of a path below the container directory, as the commands spell it. -/
def ConfinedText (root : Root) (path text : Text) : Prop :=
  Exists fun target => Paths.containerPath root.container path = .ok target /\
    text = Paths.slashed target

/-- A path that names the root is spelled without a name. -/
def NamesRoot (path : Text) : Prop :=
  cleanPath path = [] \/ cleanPath path = ['.']

/-- A source of a move, and what the commands are told about it. -/
structure MoveItem.For (root : Root) (destination path : Text) (item : MoveItem) : Prop where
  source : ConfinedText root path item.source
  target : Exists fun name => (Paths.plainNames path).getLast? = some name /\
    item.target = trimSlashes destination ++ '/' :: name

/-- Sources that may be moved together: one to a hundred paths that are
accepted, none of them the root and no two of them the same. -/
structure MayMove (root : Root) (sourcePaths : List Text) : Prop where
  given : Not (sourcePaths = [])
  few : sourcePaths.length <= 100
  accepted : forall path, path ∈ sourcePaths -> Exists (ConfinedText root path)
  below : forall path, path ∈ sourcePaths -> Not (Paths.plainNames path = [])
  apart : (sourcePaths.map Paths.plainNames).Nodup

/-! ## What the texts of the operations are read as -/

theorem writeJob_text (parent target : Text) :
    "mkdir -p -- ".toList ++ parent ++ (" && ".toList ++ ("cat".toList ++ (" > ".toList ++ target))) =
      "mkdir -p --".toList ++ ' ' :: parent ++
        (" && ".toList ++ ("cat".toList ++ (" > ".toList ++ target))) := by
  simp only [List.append_assoc]
  rfl

theorem WriteJob.reads_text (job : WriteJob) : reads job.text = some job.script.tokens := by
  have make : reads "mkdir -p --".toList = some [.word (plain "mkdir"), .word (plain "-p"), .word (plain "--")] := by
    decide
  have fill : reads "cat".toList = some [.word (plain "cat")] := by decide
  have same : job.text = _ := writeJob_text (shellQuote job.parent) (shellQuote job.target)
  rw [same]
  exact Shell.reads_and (Shell.reads_blank make (reads_shellQuote job.parent))
    (Shell.reads_into fill (reads_shellQuote job.target))

theorem reads_createDirectoryText (target : Text) :
    reads (createDirectoryText target) = some (createDirectoryScript target).tokens := by
  have make : reads "mkdir --".toList = some [.word (plain "mkdir"), .word (plain "--")] := by decide
  exact Shell.reads_blank make (reads_shellQuote target)

theorem reads_mv : reads "mv --".toList = some [.word (plain "mv"), .word (plain "--")] := by
  decide

theorem containerMove_text (source destination : Text) :
    "[ ! -e ".toList ++ destination ++ " ] || exit 45; mv -- ".toList ++ source ++ " ".toList ++ destination =
      "[ ! -e ".toList ++ destination ++ " ]".toList ++ (" || ".toList ++ "exit 45".toList) ++
        ("; ".toList ++ ("mv --".toList ++ ' ' :: (source ++ ' ' :: destination))) := by
  simp only [List.append_assoc]
  rfl

theorem ContainerCommand.reads_text (command : ContainerCommand) :
    reads command.text = some command.script.tokens := by
  cases command with
  | remove target =>
      have remove : reads "rm -rf --".toList =
          some [.word (plain "rm"), .word (plain "-rf"), .word (plain "--")] := by decide
      exact Shell.reads_blank remove (reads_shellQuote target)
  | move source destination =>
      have leave : reads "exit 45".toList = some [.word (plain "exit"), .word (plain "45")] := by decide
      have same : ContainerCommand.text (.move source destination) = _ :=
        containerMove_text (shellQuote source) (shellQuote destination)
      rw [same]
      exact Shell.reads_semicolon (Shell.reads_or (reads_absentTest .absent destination) leave)
        (Shell.reads_blank reads_mv (Shell.reads_blank (reads_shellQuote source) (reads_shellQuote destination)))

namespace MoveJob

theorem reads_check (destination : Text) (item : MoveItem × Nat) :
    reads (check destination item.1) = some (checkScript destination item).tokens := by
  refine Script.reads_inOrder (.cons ?_ (.cons ?_ (.cons ?_ .nil))) ?_
  · exact reads_demanded (reads_differentTest item.2 _ _) _
  · exact reads_demanded (reads_absentTest (.free item.2) _) _
  · exact reads_forbidden (.inside item.2) _ _ _
  · exact reads_demanded (reads_availableTest item.2 _) _

theorem reads_move (item : MoveItem × Nat) : reads (move item.1) = some (moveScript item).tokens := by
  exact Shell.reads_blank reads_mv
    (Shell.reads_blank (reads_shellQuote item.1.source) (reads_shellQuote item.1.target))

theorem reads_text (job : MoveJob) : reads job.text = some job.script.tokens := by
  apply Script.reads_inOrder
  · exact List.rel_append (Script.forall₂_zipIdx (reads_check job.destination) job.items 0)
      (Script.forall₂_zipIdx reads_move job.items 0)
  · exact reads_demanded (reads_isDirectoryTest job.destination) _

end MoveJob

theorem readText_eq (limit path : Text) :
    "head -c ".toList ++ limit ++ " -- ".toList ++ path ++ (" | ".toList ++ "base64".toList) =
      "head -c".toList ++ ' ' :: (limit ++ ' ' :: ("--".toList ++ ' ' :: path)) ++
        (" | ".toList ++ "base64".toList) := by
  simp only [List.append_assoc, List.cons_append]
  rfl

/-- A number is a word as it stands. -/
theorem reads_decimal (value : Nat) :
    reads (Text.decimal value) = some [.word (bare (Text.decimal value))] := by
  have digit : forall character, character ∈ Text.decimal value -> character.isDigit = true :=
    fun character member => Nat.isDigit_of_mem_toDigits (by decide) (by decide) member
  apply Shell.reads_ordinary
  · intro character member
    apply Shell.ordinary_of_isAlphanum
    rw [Char.isAlphanum, digit character member, Bool.or_true]
  · exact Nat.toDigits_ne_nil
  · intro isHash
    cases digit '#' (List.mem_of_mem_head? isHash)

theorem reads_readText (byteLimit : Nat) (path : Text) :
    reads (readText byteLimit path) = some (readScript byteLimit path).tokens := by
  have head : reads "head -c".toList = some [.word (plain "head"), .word (plain "-c")] := by decide
  have marker : reads "--".toList = some [.word (plain "--")] := by decide
  have encode : reads "base64".toList = some [.word (plain "base64")] := by decide
  have same : readText byteLimit path = _ := readText_eq (Text.decimal byteLimit) (shellQuote path)
  rw [same, Shell.reads_bar (Shell.reads_blank head (Shell.reads_blank (reads_decimal byteLimit)
    (Shell.reads_blank marker (reads_shellQuote path)))) encode]
  rfl

/-! ## The paths of accepted requests -/

/-- Slashes of either kind in front of a path do not matter. -/
theorem relative_cons {separator : Char} (slash : separator ∈ ['/', '\\']) (rest : Text) :
    Paths.relative (separator :: rest) = Paths.relative rest := by
  have replaced : Text.replaceChar '\\' '/' (separator :: rest) = '/' :: Text.replaceChar '\\' '/' rest := by
    rcases List.mem_cons.mp slash with same | last
    · subst same
      rfl
    · rw [List.mem_singleton.mp last]
      rfl
  have pieces : Paths.requestedPieces (separator :: rest) = [] :: Paths.requestedPieces rest := by
    rw [Paths.requestedPieces, replaced]
    exact List.splitOn_append_cons_self [] _
  have up : Paths.GoesUp (separator :: rest) <-> Paths.GoesUp rest := by
    rw [Paths.GoesUp, pieces, List.mem_cons]
    exact or_iff_right nofun
  have names : Paths.plainNames (separator :: rest) = Paths.plainNames rest := by
    rw [Paths.plainNames, pieces]
    rfl
  rw [Paths.relative_eq, Paths.relative_eq, names]
  simp only [up]

theorem relative_cleanPath (path : Text) : Paths.relative (cleanPath path) = Paths.relative path := by
  unfold cleanPath Text.trimStartMatches
  induction path with
  | nil => rfl
  | cons character rest induction =>
      by_cases slash : character ∈ ['/', '\\']
      · rw [List.dropWhile_cons_of_pos (List.contains_iff_mem.mpr slash), induction, relative_cons slash]
      · rw [List.dropWhile_cons_of_neg fun found => slash (List.contains_iff_mem.mp found)]

theorem containerPath_cleanPath (root path : Text) :
    Paths.containerPath root (cleanPath path) = Paths.containerPath root path := by
  rw [Paths.containerPath, Paths.containerPath, relative_cleanPath]

theorem containerPath_display {path : Text} {names : List Text} (accepted : Paths.relative path = .ok names)
    (root : Text) : Paths.containerPath root (Paths.display names) = Paths.containerPath root path := by
  rw [Paths.containerPath, Paths.containerPath, accepted, Paths.relative_display (Paths.relative_names accepted)]

theorem relative_of_confined {root : Root} {path text : Text} (confined : ConfinedText root path text) :
    Not (Paths.GoesUp path) := by
  rcases confined with ⟨target, accepted, _⟩
  rw [Paths.containerPath_eq] at accepted
  split at accepted
  · cases accepted
  · next stays => exact stays

theorem confined_of_stays (root : Root) {path : Text} (stays : Not (Paths.GoesUp path)) :
    Exists (ConfinedText root path) := by
  have accepted := Paths.containerPath_eq root.container path
  rw [if_neg stays] at accepted
  exact ⟨_, _, accepted, rfl⟩

/-! ## The commands of accepted paths -/

theorem writeInContainer_iff (root : Root) (path : Text) (job : WriteJob) :
    writeInContainer root path = .ok job <-> Not (cleanPath path = []) /\
      ConfinedText root path job.target /\ job.parent = parentOr root.container job.target := by
  constructor
  · intro written
    rcases bind_eq_ok.mp written with ⟨_, given, written⟩
    rcases bind_eq_ok.mp written with ⟨target, confined, written⟩
    cases written
    rw [containerPath_cleanPath] at confined
    exact ⟨List.isEmpty_eq_false_iff.mp (refuseIf_eq_ok.mp given), ⟨target, confined, rfl⟩, rfl⟩
  · rintro ⟨given, ⟨target, confined, same⟩, parent⟩
    rw [<- containerPath_cleanPath] at confined
    refine bind_eq_ok.mpr ⟨(), refuseIf_eq_ok.mpr (List.isEmpty_eq_false_iff.mpr given),
      bind_eq_ok.mpr ⟨target, confined, ?_⟩⟩
    rw [<- same, <- parent]

theorem namesRoot_iff (path : Text) :
    ((cleanPath path).isEmpty || cleanPath path == ".".toList) = true <-> NamesRoot path := by
  rw [Bool.or_eq_true, List.isEmpty_iff, beq_iff_eq]
  rfl

theorem delete_iff {root : Root} (container : root.useHost = false) (tree : FileTree Text Content)
    (path : Text) (command : ContainerCommand) :
    delete root tree path = .ok (.exec command) <-> Not (NamesRoot path) /\
      Exists fun target => ConfinedText root path target /\ command = .remove target := by
  rw [delete]
  by_cases isRoot : NamesRoot path
  · rw [if_pos ((namesRoot_iff path).mpr isRoot)]
    exact iff_of_false (fun impossible => by cases impossible) fun held => held.1 isRoot
  · rw [if_neg fun found => isRoot ((namesRoot_iff path).mp found), container, if_neg Bool.false_ne_true,
      containerPath_cleanPath]
    constructor
    · intro deleted
      split at deleted
      · cases deleted
      · next target confined =>
          cases deleted
          exact ⟨isRoot, _, ⟨target, confined, rfl⟩, rfl⟩
    · rintro ⟨_, _, ⟨target, confined, rfl⟩, rfl⟩
      rw [confined]

theorem rename_iff {root : Root} (container : root.useHost = false) (tree : FileTree Text Content)
    (path newName : Text) (command : ContainerCommand) :
    rename root tree path newName = .ok (.exec command) <->
      validateFileName newName = .ok () /\ Not (NamesRoot path) /\
        Exists fun source => ConfinedText root path source /\
          command = .move source (parentOr root.container source ++ '/' :: newName) := by
  rw [rename]
  cases valid : validateFileName newName with
  | error failure => exact iff_of_false (fun impossible => by cases impossible) fun held => by cases held.1
  | ok checked =>
      dsimp only
      by_cases isRoot : NamesRoot path
      · rw [if_pos ((namesRoot_iff path).mpr isRoot)]
        exact iff_of_false (fun impossible => by cases impossible) fun held => held.2.1 isRoot
      · rw [if_neg fun found => isRoot ((namesRoot_iff path).mp found), container, if_neg Bool.false_ne_true,
          containerPath_cleanPath]
        constructor
        · intro renamed
          split at renamed
          · cases renamed
          · next target confined =>
              cases renamed
              exact ⟨rfl, isRoot, _, ⟨target, confined, rfl⟩, rfl⟩
        · rintro ⟨_, _, _, ⟨target, confined, rfl⟩, rfl⟩
          rw [confined]
          rfl

theorem createDirectoryInContainer_iff (root : Root) (path text : Text) :
    createDirectoryInContainer root path = .ok text <-> Not (Paths.plainNames path = []) /\
      Exists fun target => ConfinedText root path target /\ text = createDirectoryText target := by
  constructor
  · intro made
    rcases bind_eq_ok.mp made with ⟨relative, required, made⟩
    rcases bind_eq_ok.mp made with ⟨target, confined, made⟩
    rcases requiredRelativePath_eq_ok.mp required with ⟨⟨stays, below⟩, names⟩
    cases made
    rw [names, containerPath_display (Paths.relative_ok stays)] at confined
    exact ⟨below, _, ⟨target, confined, rfl⟩, rfl⟩
  · rintro ⟨below, _, confined, rfl⟩
    have stays := relative_of_confined confined
    rcases confined with ⟨target, accepted, rfl⟩
    rw [<- containerPath_display (Paths.relative_ok stays)] at accepted
    exact bind_eq_ok.mpr ⟨_, requiredRelativePath_eq_ok.mpr ⟨⟨stays, below⟩, rfl⟩,
      bind_eq_ok.mpr ⟨target, accepted, rfl⟩⟩

theorem fileName_normal {names : List Text} {name : Text} :
    fileName (names.map .normal) = .ok name <-> names.getLast? = some name := by
  rw [fileName, List.getLast?_map]
  cases names.getLast? with
  | none => exact iff_of_false (fun impossible => by cases impossible) (fun impossible => by cases impossible)
  | some last => simp

theorem moveItems_iff (root : Root) (destination : Text) {paths : List Text} : forall {items : List MoveItem},
    (forall path, path ∈ paths -> Not (Paths.GoesUp path)) ->
      (moveItems root destination (paths.map Paths.plainNames) = .ok items <->
        List.Forall₂ (MoveItem.For root destination) paths items) := by
  induction paths with
  | nil =>
      intro items _
      rw [List.map_nil, moveItems, List.forall₂_nil_left_iff, Except.ok.injEq]
      exact eq_comm
  | cons path rest induction =>
      intro items stay
      have stays := stay path List.mem_cons_self
      have others := fun other member => stay other (List.mem_cons_of_mem path member)
      rw [List.map_cons, List.forall₂_cons_left_iff]
      constructor
      · intro moved
        rcases bind_eq_ok.mp moved with ⟨source, confined, moved⟩
        rcases bind_eq_ok.mp moved with ⟨name, named, moved⟩
        rcases bind_eq_ok.mp moved with ⟨more, found, moved⟩
        cases moved
        rw [containerPath_display (Paths.relative_ok stays)] at confined
        exact ⟨_, more, ⟨⟨source, confined, rfl⟩, name, fileName_normal.mp named, rfl⟩,
          (induction others).mp found, rfl⟩
      · rintro ⟨⟨_, _⟩, more, ⟨⟨source, confined, rfl⟩, name, named, rfl⟩, found, rfl⟩
        rw [<- containerPath_display (Paths.relative_ok stays)] at confined
        exact bind_eq_ok.mpr ⟨source, confined, bind_eq_ok.mpr ⟨name, fileName_normal.mpr named,
          bind_eq_ok.mpr ⟨more, (induction others).mpr found, rfl⟩⟩⟩

theorem validatedSources_iff (root : Root) {sourcePaths : List Text} {sources : List (List Text)} :
    validatedSources sourcePaths = .ok sources <->
      MayMove root sourcePaths /\ sources = sourcePaths.map Paths.plainNames := by
  rw [validatedSources_eq_ok]
  constructor
  · rintro ⟨⟨given, few⟩, each, apart, same⟩
    exact ⟨⟨given, few, fun path member => confined_of_stays root (each path member).1,
      fun path member => (each path member).2, apart⟩, same⟩
  · rintro ⟨may, same⟩
    refine ⟨⟨may.given, may.few⟩, fun path member => ⟨?_, may.below path member⟩, may.apart, same⟩
    rcases may.accepted path member with ⟨text, confined⟩
    exact relative_of_confined confined

theorem moveFilesInContainer_iff (root : Root) (sourcePaths : List Text) (destinationPath : Text)
    (job : MoveJob) :
    moveFilesInContainer root sourcePaths destinationPath = .ok job <-> MayMove root sourcePaths /\
      ConfinedText root destinationPath job.destination /\
        List.Forall₂ (MoveItem.For root job.destination) sourcePaths job.items := by
  have stay : MayMove root sourcePaths -> forall path, path ∈ sourcePaths -> Not (Paths.GoesUp path) := by
    intro may path member
    rcases may.accepted path member with ⟨text, confined⟩
    exact relative_of_confined confined
  constructor
  · intro moved
    rcases bind_eq_ok.mp moved with ⟨sources, valid, moved⟩
    rcases bind_eq_ok.mp moved with ⟨relative, accepted, moved⟩
    rcases bind_eq_ok.mp moved with ⟨destination, confined, moved⟩
    rcases bind_eq_ok.mp moved with ⟨items, found, moved⟩
    rcases (validatedSources_iff root).mp valid with ⟨may, same⟩
    cases moved
    rw [containerPath_display accepted] at confined
    rw [same] at found
    exact ⟨may, ⟨destination, confined, rfl⟩, (moveItems_iff root _ (stay may)).mp found⟩
  · rintro ⟨may, confined, found⟩
    have accepted := Paths.relative_ok (relative_of_confined confined)
    rcases confined with ⟨destination, confined, same⟩
    rw [<- containerPath_display accepted] at confined
    rw [same, <- moveItems_iff root _ (stay may)] at found
    refine bind_eq_ok.mpr ⟨_, (validatedSources_iff root).mpr ⟨may, rfl⟩, bind_eq_ok.mpr ⟨_, accepted,
      bind_eq_ok.mpr ⟨destination, confined, bind_eq_ok.mpr ⟨job.items, found, ?_⟩⟩⟩⟩
    rw [<- same]

/-! ## One word for each path -/

/-- What a server whose files are reached through its container is told.  For a
path that is accepted and allowed there is a command, there is none otherwise,
and it has the confined path in it as one word that the shell takes as it stands. -/
structure CommandsRead (Content : Type) (root : Root) : Prop where
  quote : forall text, Shell.lex (shellQuote text) = some [.word (Shell.quoted text)] /\
    Shell.value (Shell.quoted text) = text
  write : forall path job, writeInContainer root path = .ok job <-> Not (cleanPath path = []) /\
    ConfinedText root path job.target /\ job.parent = parentOr root.container job.target
  writeWords : forall job : WriteJob, Shell.lex job.text = some
    [.word (plain "mkdir"), .word (plain "-p"), .word (plain "--"), .word (Shell.quoted job.parent),
      .operator "&&".toList, .word (plain "cat"), .operator ">".toList, .word (Shell.quoted job.target)]
  delete : forall (tree : FileTree Text Content) path command,
    delete root tree path = .ok (.exec command) <-> Not (NamesRoot path) /\
      Exists fun target => ConfinedText root path target /\ command = .remove target
  deleteWords : forall target, Shell.lex (ContainerCommand.text (.remove target)) = some
    [.word (plain "rm"), .word (plain "-rf"), .word (plain "--"), .word (Shell.quoted target)]
  rename : forall (tree : FileTree Text Content) path newName command,
    rename root tree path newName = .ok (.exec command) <->
      validateFileName newName = .ok () /\ Not (NamesRoot path) /\
        Exists fun source => ConfinedText root path source /\
          command = .move source (parentOr root.container source ++ '/' :: newName)
  renameWords : forall source destination, Shell.lex (ContainerCommand.text (.move source destination)) = some
    [.word (plain "["), .word (plain "!"), .word (plain "-e"), .word (Shell.quoted destination),
      .word (plain "]"), .operator "||".toList, .word (plain "exit"), .word (plain "45"),
      .operator ";".toList, .word (plain "mv"), .word (plain "--"), .word (Shell.quoted source),
      .word (Shell.quoted destination)]
  createDirectory : forall path text, createDirectoryInContainer root path = .ok text <->
    Not (Paths.plainNames path = []) /\
      Exists fun target => ConfinedText root path target /\ text = createDirectoryText target
  createDirectoryWords : forall target, Shell.lex (createDirectoryText target) = some
    [.word (plain "mkdir"), .word (plain "--"), .word (Shell.quoted target)]
  moveFiles : forall sourcePaths destinationPath job,
    moveFilesInContainer root sourcePaths destinationPath = .ok job <-> MayMove root sourcePaths /\
      ConfinedText root destinationPath job.destination /\
        List.Forall₂ (MoveItem.For root job.destination) sourcePaths job.items
  moveFilesWords : forall job : MoveJob, Shell.lex job.text = some job.script.tokens

/-- The shell takes each path in a command as the one word that it is, whatever
it consists of. -/
theorem container_commands_read (root : Root) (container : root.useHost = false) :
    CommandsRead Content root where
  quote text := ⟨Shell.lex_of_reads (reads_shellQuote text), Shell.value_quoted text⟩
  write := writeInContainer_iff root
  writeWords job := Shell.lex_of_reads (WriteJob.reads_text job)
  delete := delete_iff container
  deleteWords target := Shell.lex_of_reads (ContainerCommand.reads_text (.remove target))
  rename := rename_iff container
  renameWords source destination := Shell.lex_of_reads (ContainerCommand.reads_text (.move source destination))
  createDirectory := createDirectoryInContainer_iff root
  createDirectoryWords target := Shell.lex_of_reads (reads_createDirectoryText target)
  moveFiles := moveFilesInContainer_iff root
  moveFilesWords job := Shell.lex_of_reads (MoveJob.reads_text job)

/-- A server whose files are reached through its container. -/
def runningServer : Root :=
  ⟨[.normal "srv".toList], "/data".toList, false⟩

/-- A name with a blank, a semicolon, a dollar sign and a quote in it makes a
command of every kind. -/
theorem container_commands_read_odd :
    CommandsRead Bytes runningServer /\
      writeInContainer runningServer "\\a b;$x".toList = .ok ⟨"/data".toList, "/data/a b;$x".toList⟩ /\
      delete runningServer plantedLinkTree "/a b;$x".toList = .ok (.exec (.remove "/data/a b;$x".toList)) /\
      rename runningServer plantedLinkTree "a b;$x".toList "it's".toList =
        .ok (.exec (.move "/data/a b;$x".toList "/data/it's".toList)) /\
      createDirectoryInContainer runningServer "a b/it's".toList =
        .ok (createDirectoryText "/data/a b/it's".toList) /\
      moveFilesInContainer runningServer ["a b;$x".toList] "it's".toList =
        .ok ⟨"/data/it's".toList, [⟨"/data/a b;$x".toList, "/data/it's/a b;$x".toList⟩]⟩ :=
  ⟨container_commands_read runningServer rfl, by decide, by decide, by decide, by decide, by decide⟩

end Storage
end Agapornis
