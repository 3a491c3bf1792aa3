import Mathlib.Data.Char
import Mathlib.Data.Finset.Sort
import Mathlib.Data.List.Lex
import Agapornis.Foundations.Folder
import Agapornis.Core.Paths

namespace Agapornis
namespace Storage

open Foundations Agapornis.Core

/-!
# Restoring a backup

A restore unpacks the archive into a staging directory, moves the entries of
the server directory aside, moves the staged entries in, and removes the two
helper directories.  When a move fails it goes the other way and then removes
the helper directories all the same.  Any call may fail at any entry; what is
known about a run is written as one `Sweep` for each pass through a directory.
-/

variable {Content : Type}

/-! ## The run -/

/-- The three directories, side by side in the servers directory. -/
structure RestorePaths where
  parent : Text
  serverId : Text
  suffix : Text

namespace RestorePaths

def target (paths : RestorePaths) : Text :=
  Paths.joinText paths.parent [paths.serverId]

def staging (paths : RestorePaths) : Text :=
  Paths.joinText paths.parent ['.' :: paths.serverId ++ ".restore-".toList ++ paths.suffix]

def previous (paths : RestorePaths) : Text :=
  Paths.joinText paths.parent ['.' :: paths.serverId ++ ".previous-".toList ++ paths.suffix]

end RestorePaths

/-- What a failed removal of a directory leaves of it. -/
structure Remnant (Content : Type) where
  leave : Folder Text Content -> Folder Text Content
  leave_keys : forall folder, (leave folder).keys ⊆ folder.keys

/-- How the calls of one restore turn out.  A call that is `none` succeeds. -/
structure Plan (Content : Type) where
  parent : Option Errno
  staging : Option Errno
  /-- A failed extraction leaves some of the archive behind. -/
  extraction : Option (Failure × Folder Text Content)
  /-- Whether the probe of an existing server directory answers. -/
  probe : Bool
  activation : Option Errno
  previous : Option Errno
  aside : Transfer Text
  asideBack : Transfer Text
  activate : Transfer Text
  clear : Sweep Text
  /-- What a failed removal of an entry's directory leaves below it. -/
  clearRemnant : Text -> List (List Text × Option Content) -> List (List Text × Option Content)
  activateBack : Transfer Text
  removeStaging : Option (Remnant Content)
  removePrevious : Option (Remnant Content)

/-- The result of a restore and the directories afterwards. -/
structure Restored (Content : Type) where
  result : Except Failure Unit
  target : Option (Folder Text Content)
  staging : Option (Folder Text Content)
  previous : Option (Folder Text Content)

/-- Go through the listed names, up to the first call that fails. -/
def sweepEntries {State : Type} (sweep : Sweep Text) (act : Text -> State -> Except Failure Unit × State) :
    Nat -> List Text -> State -> Except Failure Unit × State
  | position, [], state =>
      match sweep.next position with
      | some error => (.error (.io error), state)
      | none => (.ok (), state)
  | position, name :: names, state =>
      match sweep.next position with
      | some error => (.error (.io error), state)
      | none =>
          match act name state with
          | (.error failure, after) => (.error failure, after)
          | (.ok (), after) => sweepEntries sweep act (position + 1) names after

/-- Move one entry. -/
def moveEntry (sweep : Sweep Text) (source target : Text) (name : Text)
    (folders : Moving Text Content) : Except Failure Unit × Moving Text Content :=
  let renamed : Except Errno (Moving Text Content) :=
    match sweep.call name with
    | some error => .error error
    | none => renameInto folders name
  match renamed with
  | .error error =>
      (.error (.context ("move restored entry " ++ String.ofList (Paths.joinText source [name]) ++
        " to " ++ String.ofList (Paths.joinText target [name])) (.io error)), folders)
  | .ok moved => (.ok (), moved)

def moveDirectoryContents (transfer : Transfer Text) (source target : Text)
    (folders : Moving Text Content) : Except Failure Unit × Moving Text Content :=
  match transfer.create with
  | some error => (.error (.io error), folders)
  | none =>
      match transfer.list with
      | some error => (.error (.io error), folders)
      | none =>
          sweepEntries transfer.toSweep (moveEntry transfer.toSweep source target) 0
            (transfer.order folders.source.keys) folders

/-- Remove one entry.  A directory whose removal fails may have lost some of
what lies below it. -/
def clearEntry (sweep : Sweep Text)
    (remnant : Text -> List (List Text × Option Content) -> List (List Text × Option Content))
    (name : Text) (folder : Folder Text Content) : Except Failure Unit × Folder Text Content :=
  match sweep.call name with
  | none => (.ok (), folder.erase name)
  | some error =>
      match folder.lookup name with
      | some (.directory below) =>
          (.error (.io error), folder.insert name (.directory (remnant name below)))
      | _ => (.error (.io error), folder)

def clearDirectoryContents (sweep : Sweep Text)
    (remnant : Text -> List (List Text × Option Content) -> List (List Text × Option Content))
    (folder : Folder Text Content) : Except Failure Unit × Folder Text Content :=
  match sweep.list with
  | some error => (.error (.io error), folder)
  | none => sweepEntries sweep (clearEntry sweep remnant) 0 (sweep.order folder.keys) folder

/-- Remove a directory, without looking at the outcome. -/
def removeDirAll (removal : Option (Remnant Content)) (folder : Folder Text Content) :
    Option (Folder Text Content) :=
  removal.map (fun remnant => remnant.leave folder)

section Run

variable (describe : Errno -> String) (paths : RestorePaths) (plan : Plan Content)
  (archive : Folder Text Content)

/-- The moves, from a server directory that exists. -/
def replaceContents (original : Folder Text Content) : Restored Content :=
  let aside := moveDirectoryContents plan.aside paths.target paths.previous ⟨original, ∅⟩
  match aside.1 with
  | .error error =>
      let back := moveDirectoryContents plan.asideBack paths.previous paths.target
        ⟨aside.2.target, aside.2.source⟩
      { result := match back.1 with
          | .error rollbackError => .error (.context
              ("move current server data aside before restore; rollback also failed: " ++
                rollbackError.chain describe) error)
          | .ok () => .error (.context "move current server data aside before restore" error)
        target := some back.2.target
        staging := removeDirAll plan.removeStaging archive
        previous := removeDirAll plan.removePrevious back.2.source }
  | .ok () =>
      let activated := moveDirectoryContents plan.activate paths.staging paths.target
        ⟨archive, aside.2.source⟩
      match activated.1 with
      | .error error =>
          let cleared := clearDirectoryContents plan.clear plan.clearRemnant activated.2.target
          let back := moveDirectoryContents plan.activateBack paths.previous paths.target
            ⟨aside.2.target, cleared.2⟩
          { result := match cleared.1 with
              | .error clearError => .error (.context
                  ("activate restored server data; clearing the partial restore failed: " ++
                    clearError.chain describe) error)
              | .ok () =>
                  match back.1 with
                  | .error rollbackError => .error (.context
                      ("activate restored server data; rollback also failed: " ++
                        rollbackError.chain describe) error)
                  | .ok () => .error (.context "activate restored server data" error)
            target := some back.2.target
            staging := removeDirAll plan.removeStaging activated.2.source
            previous := removeDirAll plan.removePrevious back.2.source }
      | .ok () =>
          { result := .ok ()
            target := some activated.2.target
            staging := removeDirAll plan.removeStaging activated.2.source
            previous := removeDirAll plan.removePrevious aside.2.target }

/-- Rename the staging directory to the server directory, which at most an
empty directory admits. -/
def activateStaging (original : Option (Folder Text Content)) : Restored Content :=
  let failed (error : Errno) : Restored Content :=
    ⟨.error (.context "activate restored server data" (.io error)), original, some archive, none⟩
  match plan.activation, original with
  | some error, _ => failed error
  | none, none => ⟨.ok (), some archive, none, none⟩
  | none, some folder =>
      if folder.keys = ∅ then ⟨.ok (), some archive, none, none⟩ else failed .directoryNotEmpty

def restoreTransactionally (original : Option (Folder Text Content)) : Restored Content :=
  match plan.parent with
  | some error => ⟨.error (.io error), original, none, none⟩
  | none =>
      match plan.staging with
      | some error => ⟨.error (.io error), original, none, none⟩
      | none =>
          match plan.extraction with
          | some (error, partially) =>
              ⟨.error error, original, removeDirAll plan.removeStaging partially, none⟩
          | none =>
              match original with
              | none => activateStaging plan archive none
              | some folder =>
                  if plan.probe then
                    match plan.previous with
                    | some error => ⟨.error (.io error), some folder, some archive, none⟩
                    | none => replaceContents describe paths plan archive folder
                  else activateStaging plan archive (some folder)

end Run

/-! ## What a move does -/

theorem moveEntry_failed (sweep : Sweep Text) (source target name : Text)
    {folders : Moving Text Content}
    (stopped : ((sweep.call name).isNone && admits folders name) = false) :
    Exists fun failure => moveEntry sweep source target name folders = (.error failure, folders) := by
  unfold moveEntry
  cases called : sweep.call name with
  | some error => exact ⟨_, rfl⟩
  | none =>
      cases renamed : renameInto folders name with
      | error error => exact ⟨_, rfl⟩
      | ok moved =>
          rw [called] at stopped
          rw [admits] at stopped
          rw [renamed] at stopped
          cases stopped

theorem moveEntry_moved (sweep : Sweep Text) (source target name : Text)
    {folders moved : Moving Text Content} (called : sweep.call name = none)
    (renamed : renameInto folders name = .ok moved) :
    moveEntry sweep source target name folders = (.ok (), moved) := by
  rw [moveEntry]
  simp only [called, renamed]

/-- The entries that the sweep reaches are moved, and no others. -/
theorem sweepEntries_moves (sweep : Sweep Text) (source target : Text) (names : List Text)
    (nodup : names.Nodup) (position : Nat) (folders : Moving Text Content) :
    let done := sweep.reaches (admits folders) position names
    (sweepEntries sweep (moveEntry sweep source target) position names folders).2 =
        ⟨without done folders.source, carry done folders.source folders.target⟩ /\
      ((sweepEntries sweep (moveEntry sweep source target) position names folders).1 = .ok () <->
        done = names /\ sweep.next (position + names.length) = none) := by
  induction names generalizing position folders with
  | nil =>
      simp only [sweepEntries, Sweep.reaches, List.length_nil, Nat.add_zero]
      cases sweep.next position with
      | none => exact ⟨rfl, iff_of_true rfl ⟨trivial, rfl⟩⟩
      | some error =>
          exact ⟨rfl, iff_of_false (fun impossible => by cases impossible)
            (fun impossible => by cases impossible.2)⟩
  | cons name names ih =>
      have parts := List.nodup_cons.mp nodup
      cases read : sweep.next position with
      | some error =>
          simp only [sweepEntries, Sweep.reaches, read]
          exact ⟨rfl, iff_of_false (fun impossible => by cases impossible)
            (fun impossible => by cases impossible.1)⟩
      | none =>
          by_cases goes : ((sweep.call name).isNone && admits folders name) = true
          · have called : sweep.call name = none := by
              rw [Bool.and_eq_true] at goes
              exact Option.isNone_iff_eq_none.mp goes.1
            cases renamed : renameInto folders name with
            | error error =>
                rw [admits] at goes
                rw [called, renamed] at goes
                cases goes
            | ok moved =>
                have reached : sweep.reaches (admits folders) position (name :: names) =
                    name :: sweep.reaches (admits moved) (position + 1) names := by
                  rw [Sweep.reaches, read, called, if_pos (by simp [admits, renamed]; rfl),
                    reaches_after_rename sweep parts.1 renamed]
                have fresh : name ∉ sweep.reaches (admits moved) (position + 1) names :=
                  fun member => parts.1 ((sweep.reaches_sublist _ _ _).subset member)
                rcases ih parts.2 (position + 1) moved with ⟨state, finished⟩
                simp only [sweepEntries, read, moveEntry_moved sweep source target name called renamed]
                rw [reached, state, finished, carry_after_rename fresh renamed,
                  without_after_rename renamed]
                refine ⟨rfl, ?_⟩
                rw [List.length_cons, Nat.add_assoc, Nat.add_comm 1, List.cons_eq_cons, eq_self_iff_true,
                  true_and]
          · have stopped := Bool.eq_false_iff.mpr goes
            rcases moveEntry_failed sweep source target name stopped with ⟨failure, failed⟩
            have reached : sweep.reaches (admits folders) position (name :: names) = [] := by
              rw [Sweep.reaches, read, if_neg]
              simpa using goes
            simp only [sweepEntries, read, failed]
            rw [reached]
            exact ⟨rfl, iff_of_false (fun impossible => by cases impossible)
              (fun impossible => by cases impossible.1)⟩

/-- The outcome of a move of all the entries of a directory. -/
theorem moveDirectoryContents_moves (transfer : Transfer Text) (source target : Text)
    (folders : Moving Text Content) :
    (moveDirectoryContents transfer source target folders).2 = transfer.result folders /\
      ((moveDirectoryContents transfer source target folders).1 = .ok () <->
        transfer.Completes folders) := by
  unfold moveDirectoryContents Transfer.result Transfer.done Transfer.Completes
  cases transfer.create with
  | some error =>
      exact ⟨rfl, iff_of_false (fun impossible => by cases impossible)
        (fun impossible => by cases impossible.1)⟩
  | none =>
      cases transfer.list with
      | some error =>
          exact ⟨rfl, iff_of_false (fun impossible => by cases impossible)
            (fun impossible => by cases impossible.1)⟩
      | none =>
          have moves := sweepEntries_moves transfer.toSweep source target
            (transfer.order folders.source.keys) (transfer.order_nodup _) 0 folders
          rw [Nat.zero_add] at moves
          simp only [Option.isNone_none, Bool.and_self, if_true, true_and]
          exact moves

/-! ## Which runs keep the data -/

/-- An entry stands whole in one of the three directories. -/
def Restored.Holds (outcome : Restored Content) (name : Text) (item : Item Text Content) : Prop :=
  Exists fun folder : Folder Text Content =>
    (outcome.target = some folder \/ outcome.previous = some folder \/
      outcome.staging = some folder) /\
    folder.lookup name = some item

/-- After a success the server directory is the archive; after a failure every
entry of the original directory still exists with its content. -/
def Restored.KeepsData (outcome : Restored Content) (original : Option (Folder Text Content))
    (archive : Folder Text Content) : Prop :=
  match outcome.result with
  | .ok () => outcome.target = some archive
  | .error _ => forall folder name item,
      original = some folder -> folder.lookup name = some item -> outcome.Holds name item

/-- A removal fails and leaves an entry whole. -/
def Spares (removal : Option (Remnant Content)) (folder : Folder Text Content) (name : Text)
    (item : Item Text Content) : Prop :=
  Exists fun remnant => removal = some remnant /\ (remnant.leave folder).lookup name = some item

namespace Plan

variable (plan : Plan Content)

/-- Nothing fails before the first entry is moved aside. -/
def StartsMoving : Prop :=
  plan.parent = none /\ plan.staging = none /\ plan.extraction = none /\ plan.probe = true /\
    plan.previous = none

/-- The way back reaches each entry put aside.  (Otherwise an entry is left
only by chance: where the same entry stands in the server directory already,
or where the removal of a helper directory fails as well and spares it.) -/
def ComesBack (back : Transfer Text) (folders : Moving Text Content)
    (staged : Folder Text Content) : Prop :=
  forall name item, folders.source.lookup name = some item ->
    name ∈ back.done folders \/ folders.target.lookup name = some item \/
      Spares plan.removePrevious (without (back.done folders) folders.source) name item \/
      Spares plan.removeStaging staged name item

/-- The entries put aside, and what is left of the server directory. -/
def putAside (original : Folder Text Content) : Moving Text Content :=
  let moved := plan.aside.result ⟨original, ∅⟩
  ⟨moved.target, moved.source⟩

/-- What the clearing step leaves of the entries of the archive that had been
moved in. -/
def uncleared (archive : Folder Text Content) : Folder Text Content :=
  (clearDirectoryContents plan.clear plan.clearRemnant
    (plan.activate.result ⟨archive, ∅⟩).target).2

/-- Whenever one of the forward moves fails, the way back succeeds. -/
def RollsBack (original archive : Folder Text Content) : Prop :=
  (Not (plan.aside.Completes ⟨original, ∅⟩) ->
    plan.ComesBack plan.asideBack (plan.putAside original) archive) /\
  (plan.aside.Completes ⟨original, ∅⟩ -> Not (plan.activate.Completes ⟨archive, ∅⟩) ->
    plan.ComesBack plan.activateBack ⟨original, plan.uncleared archive⟩
      (plan.activate.result ⟨archive, ∅⟩).source)

end Plan

/-- The way back from a state decides what is left of the entries put aside. -/
theorem holds_after_back (plan : Plan Content) (back : Transfer Text) (folders : Moving Text Content)
    (staged : Folder Text Content) (result : Except Failure Unit) :
    (forall name item, folders.source.lookup name = some item ->
        Restored.Holds ⟨result, some (back.result folders).target,
          removeDirAll plan.removeStaging staged,
          removeDirAll plan.removePrevious (back.result folders).source⟩ name item) <->
      plan.ComesBack back folders staged := by
  refine forall_congr' (fun name => forall_congr' (fun item => forall_congr' (fun present => ?_)))
  have inTarget : (back.result folders).target.lookup name = some item <->
      name ∈ back.done folders \/ folders.target.lookup name = some item := by
    rw [Transfer.result]
    simp only
    rw [lookup_carry, present, Option.some_or]
    by_cases member : name ∈ back.done folders
    · simp [member]
    · simp [member]
  have inRemoved : forall (removal : Option (Remnant Content)) (folder : Folder Text Content),
      (Exists fun left => removeDirAll removal folder = some left /\ left.lookup name = some item) <->
        Spares removal folder name item := by
    intro removal folder
    unfold removeDirAll Spares
    cases removal with
    | none => simp
    | some remnant => simp
  rw [<- or_assoc, <- inTarget, <- inRemoved, <- inRemoved]
  rw [Restored.Holds]
  simp only [or_and_right, exists_or, Option.some.injEq, exists_eq_left']
  rfl

/-- Entries which were never moved aside are where they were, whatever the
way back does. -/
theorem holds_not_aside (plan : Plan Content) {original staged : Folder Text Content} {name : Text}
    {item : Item Text Content} (present : original.lookup name = some item)
    (stayed : name ∉ plan.aside.done ⟨original, ∅⟩) (result : Except Failure Unit) :
    Restored.Holds ⟨result, some (plan.asideBack.result (plan.putAside original)).target,
      removeDirAll plan.removeStaging staged,
      removeDirAll plan.removePrevious (plan.asideBack.result (plan.putAside original)).source⟩
      name item := by
  have notAside : (plan.putAside original).source.lookup name = none := by
    simp only [Plan.putAside, Transfer.result]
    rw [lookup_carry, if_neg stayed, Finmap.lookup_empty]
  refine ⟨_, Or.inl rfl, ?_⟩
  simp only [Transfer.result]
  rw [lookup_carry, notAside, Option.none_or, ite_self]
  simp only [Plan.putAside, Transfer.result]
  rw [lookup_without, if_neg stayed, present]

theorem putAside_lookup (plan : Plan Content) {original : Folder Text Content} {name : Text}
    (item : Item Text Content) :
    (plan.putAside original).source.lookup name = some item <->
      name ∈ plan.aside.done ⟨original, ∅⟩ /\ original.lookup name = some item := by
  simp only [Plan.putAside, Transfer.result]
  rw [lookup_carry, Finmap.lookup_empty, Option.or_none]
  by_cases member : name ∈ plan.aside.done ⟨original, ∅⟩
  · simp [member]
  · simp [member]

section Run

variable (describe : Errno -> String) (paths : RestorePaths) (plan : Plan Content)
  (archive : Folder Text Content)

theorem keepsData_of_failed {outcome : Restored Content} {original : Folder Text Content}
    (failed : outcome.result ≠ .ok ()) :
    outcome.KeepsData (some original) archive <->
      forall name item, original.lookup name = some item -> outcome.Holds name item := by
  rw [Restored.KeepsData]
  cases result : outcome.result with
  | ok value => exact absurd result failed
  | error failure =>
      exact ⟨fun keeps name item present => keeps original name item rfl present,
        fun keeps folder name item same present => keeps name item (Option.some.inj same ▸ present)⟩

/-- A move aside that fails is undone exactly when the way back reaches what
was moved. -/
theorem replaceContents_aside_failed (original : Folder Text Content)
    (failed : Not (plan.aside.Completes ⟨original, ∅⟩)) :
    (replaceContents describe paths plan archive original).KeepsData (some original) archive <->
      plan.ComesBack plan.asideBack (plan.putAside original) archive := by
  have aside := moveDirectoryContents_moves plan.aside paths.target paths.previous ⟨original, ∅⟩
  have back := moveDirectoryContents_moves plan.asideBack paths.previous paths.target
    (plan.putAside original)
  unfold replaceContents
  cases asideResult : (moveDirectoryContents plan.aside paths.target paths.previous
      ⟨original, ∅⟩).1 with
  | ok value => exact absurd (aside.2.mp asideResult) failed
  | error failure =>
      simp only [asideResult, aside.1]
      have sameFolders : (⟨(plan.aside.result ⟨original, ∅⟩).target,
          (plan.aside.result ⟨original, ∅⟩).source⟩ : Moving Text Content) =
            plan.putAside original := rfl
      rw [sameFolders, back.1, keepsData_of_failed]
      · rw [<- holds_after_back plan plan.asideBack (plan.putAside original) archive]
        constructor
        · intro keeps name item present
          exact keeps name item ((putAside_lookup plan item).mp present).2
        · intro keeps name item present
          by_cases moved : name ∈ plan.aside.done ⟨original, ∅⟩
          · exact keeps name item ((putAside_lookup plan item).mpr ⟨moved, present⟩)
          · exact holds_not_aside plan present moved _
      · simp only
        split
        · exact fun impossible => by cases impossible
        · exact fun impossible => by cases impossible

theorem replaceContents_activate_failed (original : Folder Text Content)
    (moved : plan.aside.Completes ⟨original, ∅⟩)
    (failed : Not (plan.activate.Completes ⟨archive, ∅⟩)) :
    (replaceContents describe paths plan archive original).KeepsData (some original) archive <->
      plan.ComesBack plan.activateBack ⟨original, plan.uncleared archive⟩
        (plan.activate.result ⟨archive, ∅⟩).source := by
  have aside := moveDirectoryContents_moves plan.aside paths.target paths.previous ⟨original, ∅⟩
  have activated := moveDirectoryContents_moves plan.activate paths.staging paths.target ⟨archive, ∅⟩
  have back := moveDirectoryContents_moves plan.activateBack paths.previous paths.target
    ⟨original, plan.uncleared archive⟩
  rw [plan.aside.result_of_completes moved] at aside
  rw [replaceContents]
  simp only [aside.1, aside.2.mpr moved]
  cases activateResult : (moveDirectoryContents plan.activate paths.staging paths.target
      ⟨archive, ∅⟩).1 with
  | ok value => exact absurd (activated.2.mp activateResult) failed
  | error failure =>
      simp only [activated.1]
      have sameFolders : (clearDirectoryContents plan.clear plan.clearRemnant
          (plan.activate.result ⟨archive, ∅⟩).target).2 = plan.uncleared archive := rfl
      rw [sameFolders, back.1, keepsData_of_failed]
      · exact holds_after_back plan plan.activateBack ⟨original, plan.uncleared archive⟩ _ _
      · simp only
        split
        · exact fun impossible => by cases impossible
        · split
          · exact fun impossible => by cases impossible
          · exact fun impossible => by cases impossible

theorem replaceContents_succeeded (original : Folder Text Content)
    (moved : plan.aside.Completes ⟨original, ∅⟩) (activated : plan.activate.Completes ⟨archive, ∅⟩) :
    (replaceContents describe paths plan archive original).KeepsData (some original) archive := by
  have aside := moveDirectoryContents_moves plan.aside paths.target paths.previous ⟨original, ∅⟩
  have activation := moveDirectoryContents_moves plan.activate paths.staging paths.target ⟨archive, ∅⟩
  rw [plan.aside.result_of_completes moved] at aside
  rw [plan.activate.result_of_completes activated] at activation
  rw [replaceContents]
  simp only [aside.1, aside.2.mpr moved, activation.1, activation.2.mpr activated]
  rfl

theorem replaceContents_keepsData_iff (original : Folder Text Content) :
    (replaceContents describe paths plan archive original).KeepsData (some original) archive <->
      plan.RollsBack original archive := by
  rw [Plan.RollsBack]
  by_cases moved : plan.aside.Completes ⟨original, ∅⟩
  · by_cases activated : plan.activate.Completes ⟨archive, ∅⟩
    · have keeps := replaceContents_succeeded describe paths plan archive original moved activated
      simp [moved, activated, keeps]
    · rw [replaceContents_activate_failed describe paths plan archive original moved activated]
      simp [moved, activated]
  · rw [replaceContents_aside_failed describe paths plan archive original moved]
    simp [moved]

theorem activateStaging_keepsData (original : Option (Folder Text Content)) :
    (activateStaging plan archive original).KeepsData original archive := by
  have failed : forall error : Errno, Restored.KeepsData
      ⟨.error (.context "activate restored server data" (.io error)), original, some archive, none⟩
      original archive :=
    fun error folder name item same present => ⟨folder, Or.inl same, present⟩
  unfold activateStaging
  cases plan.activation with
  | some error => exact failed error
  | none =>
      cases original with
      | none => exact rfl
      | some folder =>
          simp only
          split
          · exact rfl
          · exact failed .directoryNotEmpty

/-- A restore keeps the server's data exactly when, whenever one of its
forward moves fails, its way back succeeds. -/
theorem restoreTransactionally_keepsData_iff (original : Option (Folder Text Content)) :
    (restoreTransactionally describe paths plan archive original).KeepsData original archive <->
      forall folder, original = some folder -> plan.StartsMoving -> plan.RollsBack folder archive := by
  have untouched : forall (failure : Failure) (staging previous : Option (Folder Text Content)),
      Restored.KeepsData ⟨.error failure, original, staging, previous⟩ original archive :=
    fun failure staging previous folder name item same present => ⟨folder, Or.inl same, present⟩
  unfold restoreTransactionally Plan.StartsMoving
  cases plan.parent with
  | some error => exact iff_of_true (untouched _ _ _) (fun _ _ starts => by cases starts.1)
  | none =>
      cases plan.staging with
      | some error => exact iff_of_true (untouched _ _ _) (fun _ _ starts => by cases starts.2.1)
      | none =>
          cases plan.extraction with
          | some failure =>
              exact iff_of_true (untouched _ _ _) (fun _ _ starts => by cases starts.2.2.1)
          | none =>
              cases original with
              | none =>
                  exact iff_of_true (activateStaging_keepsData plan archive none)
                    (fun _ impossible => by cases impossible)
              | some folder =>
                  cases probed : plan.probe with
                  | false =>
                      exact iff_of_true (activateStaging_keepsData plan archive (some folder))
                        (fun _ _ starts => by cases starts.2.2.2.1)
                  | true =>
                      cases plan.previous with
                      | some error =>
                          exact iff_of_true (untouched _ _ _)
                            (fun _ _ starts => by cases starts.2.2.2.2)
                      | none =>
                          simp only [if_true]
                          rw [replaceContents_keepsData_iff]
                          simp

end Run

/-- A transfer in which the renames of some names fail and nothing else. -/
def refusing (refused : Text -> Bool) : Transfer Text where
  create := none
  list := none
  next _ := none
  call name := if refused name then some .other else none
  order names := names.sort (· ≤ ·)
  order_nodup names := names.sort_nodup (· ≤ ·)
  mem_order _ _ := Finset.mem_sort (· ≤ ·)

/-- The archive's entry cannot be moved in, and then the server's own entry
cannot be moved back. -/
def losingPlan : Plan Bytes where
  parent := none
  staging := none
  extraction := none
  probe := true
  activation := none
  previous := none
  aside := refusing (fun _ => false)
  asideBack := refusing (fun _ => false)
  activate := refusing (fun _ => true)
  clear := (refusing (fun _ => false)).toSweep
  clearRemnant _ below := below
  activateBack := refusing (fun _ => true)
  removeStaging := none
  removePrevious := none

theorem failed_rollback_loses_data :
    Not (forall (describe : Errno -> String) (paths : RestorePaths) (plan : Plan Bytes)
      (archive : Folder Text Bytes) (original : Option (Folder Text Bytes)),
      (restoreTransactionally describe paths plan archive original).KeepsData original archive) := by
  intro keeps
  have kept := keeps (fun _ => "failed") ⟨"/srv".toList, "one".toList, "x".toList⟩ losingPlan
    (Finmap.singleton "new".toList (.leaf [2])) (some (Finmap.singleton "world".toList (.leaf [1])))
  have rolled : losingPlan.RollsBack (Finmap.singleton "world".toList (.leaf [1]))
      (Finmap.singleton "new".toList (.leaf [2])) :=
    (replaceContents_keepsData_iff _ _ _ _ _).mp kept
  have aside : losingPlan.aside.Completes
      ⟨Finmap.singleton "world".toList (.leaf [1]), (∅ : Folder Text Bytes)⟩ := by
    simp [losingPlan, refusing, Transfer.Completes, Sweep.reaches, admits, renameInto, replaces]
    rfl
  have stuck : Not (losingPlan.activate.Completes
      ⟨Finmap.singleton "new".toList (.leaf [2]), (∅ : Folder Text Bytes)⟩) := by
    simp [losingPlan, refusing, Transfer.Completes, Sweep.reaches]
  have back := rolled.2 aside stuck "world".toList (.leaf [1]) Finmap.lookup_singleton_eq
  revert back
  simp [losingPlan, refusing, Transfer.done, Sweep.reaches, Plan.uncleared, Spares, Transfer.result,
    carry, clearDirectoryContents, sweepEntries]

end Storage
end Agapornis
