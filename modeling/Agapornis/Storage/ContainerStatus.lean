import Agapornis.Storage.ContainerWords

namespace Agapornis
namespace Storage

open Foundations Agapornis.Core
open Foundations.Shell (Symbol Script Outcomes)

/-!
# The status that a script ends with

The checks of a script leave it, with a status that is not zero, as soon as
one of them fails.  The commands behind them are only put after each other:
the status of the last one is the status of the script.
-/

variable {outcomes : Outcomes Step}

/-! ## The checks and the work of a move -/

/-- The checks on one source of a move. -/
def PassesMove (outcomes : Outcomes Step) (index : Nat) : Prop :=
  (outcomes.status (.available index) = 0 /\ outcomes.status (.notLink index) = 0) /\
    outcomes.status (.different index) = 0 /\ outcomes.status (.free index) = 0 /\
    outcomes.selected (.inside index) = false

namespace MoveJob

def Passes (job : MoveJob) (outcomes : Outcomes Step) : Prop :=
  outcomes.status .isDirectory = 0 /\ forall index, index < job.items.length -> PassesMove outcomes index

def Moved (job : MoveJob) (outcomes : Outcomes Step) : Prop :=
  forall index, index < job.items.length -> outcomes.status (.move index) = 0

end MoveJob

/-! ## The checks and the work of an archive -/

/-- The checks on one source of an archive. -/
def PassesArchive (outcomes : Outcomes Step) (index : Nat) : Prop :=
  (outcomes.status (.available index) = 0 /\ outcomes.status (.notLink index) = 0) /\
    outcomes.selected (.inside index) = false

namespace ArchiveJob

def Passes (job : ArchiveJob) (outcomes : Outcomes Step) : Prop :=
  outcomes.status .isDirectory = 0 /\ outcomes.status .absent = 0 /\
    forall index, index < job.items.length -> PassesArchive outcomes index

end ArchiveJob

def Archived (outcomes : Outcomes Step) : Prop :=
  outcomes.status .enter = 0 /\ outcomes.status .pack = 0 /\ outcomes.status .put = 0

/-! ## The status of each script -/

theorem forall_mem_zipIdx {Item : Type} {items : List Item} {holds : Nat -> Prop} :
    (forall item, item ∈ items.zipIdx -> holds item.2) <->
      forall index, index < items.length -> holds index := by
  constructor
  · intro all index inside
    apply all (items[index], index)
    rw [List.mem_zipIdx_iff_getElem?]
    exact List.getElem?_eq_getElem inside
  · intro all item member
    exact all item.2 (List.snd_lt_of_mem_zipIdx member)

namespace MoveJob

theorem checks_checkScript (destination : Text) (item : MoveItem × Nat) :
    Script.Checks outcomes (PassesMove outcomes item.2) (checkScript destination item) :=
  Script.checks_sequence (Script.checks_demand_both Complaint.moveUnavailable.nonzero)
    (Script.checks_sequence (Script.checks_demand_simple Complaint.moveAlreadyThere.nonzero)
      (Script.checks_sequence (Script.checks_demand_simple Complaint.moveNameTaken.nonzero)
        (Script.checks_forbid Complaint.moveInsideItself.nonzero)))

/-- The script of a move ends well when the checks pass and the last entry is moved. -/
theorem exitStatus_eq_zero_iff {job : MoveJob} (nonempty : job.items ≠ []) :
    job.script.exitStatus outcomes = 0 <->
      job.Passes outcomes /\ outcomes.status (.move (job.items.length - 1)) = 0 := by
  have checks : Script.Checks outcomes (job.Passes outcomes)
      (.inOrder (demand (isDirectoryScript job.destination) .moveNoDirectory)
        (job.items.zipIdx.map (checkScript job.destination))) := by
    rw [Passes, ← forall_mem_zipIdx]
    exact Script.checks_inOrder (checks_checkScript job.destination) job.items.zipIdx
      (Script.checks_demand_simple Complaint.moveNoDirectory.nonzero)
  have last := @List.getLast?_zipIdx _ job.items 0
  cases numbered : job.items.zipIdx with
  | nil => exact absurd (List.zipIdx_eq_nil_iff.mp numbered) nonempty
  | cons first rest =>
      have lastNumber : (rest.getLast?.getD first).2 = job.items.length - 1 := by
        rw [numbered, List.getLast?_cons, Nat.zero_add] at last
        rcases Option.map_eq_some_iff.mp last.symm with ⟨item, _, same⟩
        rw [← same]
      have ran : job.script.exitStatus outcomes =
          (Script.sequence (.inOrder (demand (isDirectoryScript job.destination) .moveNoDirectory)
            (job.items.zipIdx.map (checkScript job.destination)))
            (.inOrder (moveScript first) (rest.map moveScript))).exitStatus outcomes := by
        rw [Script.exitStatus, script]
        nth_rewrite 2 [numbered]
        rw [List.map_cons, Script.run_inOrder_append]
        rfl
      have work : (Script.inOrder (moveScript first) (rest.map moveScript)).exitStatus outcomes =
          outcomes.status (.move (job.items.length - 1)) := by
        have moves := @Script.run_inOrder_simple Step outcomes (MoveItem × Nat) (fun item => .move item.2)
          (fun item => [plain "mv", plain "--", Shell.quoted item.1.source, Shell.quoted item.1.target]) none
          rest first
        rw [lastNumber] at moves
        exact congrArg (fun result => result.1.status) moves
      rw [ran, Script.run_behind_checks checks, work]

end MoveJob

namespace ArchiveJob

theorem checks_checkScripts (destination : Text) (item : ArchiveItem × Nat) :
    Script.Checks outcomes (PassesArchive outcomes item.2) (checkScripts destination item) :=
  Script.checks_sequence (Script.checks_demand_both Complaint.archiveUnavailable.nonzero)
    (Script.checks_forbid Complaint.archiveInsideSource.nonzero)

/-- The last command of an archive, which takes the trap away, succeeds always. -/
theorem exitStatus_work (job : ArchiveJob) (action : List Symbol) :
    (Script.sequence (.trap action) job.restScript).exitStatus outcomes = 0 :=
  rfl

theorem exitStatus_eq_zero_iff (job : ArchiveJob) (action : List Symbol) :
    (job.script action).exitStatus outcomes = 0 <-> job.Passes outcomes := by
  have checks : Script.Checks outcomes (job.Passes outcomes) job.checkScript := by
    rw [Passes, ← forall_mem_zipIdx]
    exact Script.checks_sequence (Script.checks_demand_simple Complaint.archiveNoDirectory.nonzero)
      (Script.checks_inOrder (checks_checkScripts job.destination) job.items.zipIdx
        (Script.checks_demand_simple Complaint.archiveNameTaken.nonzero))
  rw [script, Script.run_behind_checks checks, exitStatus_work]
  exact and_iff_left rfl

end ArchiveJob

theorem exitStatus_readScript (byteLimit : Nat) (path : Text) :
    (readScript byteLimit path).exitStatus outcomes = outcomes.status .encode :=
  rfl

theorem items_ne_nil {root : Root} {sourcePaths : List Text} {destinationPath : Text} {job : MoveJob}
    (accepted : moveFilesInContainer root sourcePaths destinationPath = .ok job) : job.items ≠ [] := by
  rcases (moveFilesInContainer_iff root sourcePaths destinationPath job).mp accepted with ⟨may, _, items⟩
  intro empty
  rw [empty] at items
  exact may.given (List.forall₂_nil_right_iff.mp items)

/-! ## What a status of zero says -/

/-- A status of zero says that the work was done exactly in these cases: for a move, when a check
or the last `mv` fails or no `mv` does; for an archive, when a check fails or none of `cd`, `tar` and
`mv` does; for a read, when `base64` fails or `head` does not. -/
theorem success_means_done_iff (outcomes : Outcomes Step) :
    (forall root sourcePaths destinationPath job,
      moveFilesInContainer root sourcePaths destinationPath = .ok job ->
        ((job.script.exitStatus outcomes = 0 -> job.Passes outcomes /\ job.Moved outcomes) <->
          Not (job.Passes outcomes) \/ outcomes.status (.move (job.items.length - 1)) ≠ 0 \/
            forall index, index + 1 < job.items.length -> outcomes.status (.move index) = 0)) /\
    (forall root sourcePaths destinationPath uuid job action,
      createArchiveInContainer root sourcePaths destinationPath uuid = .ok job ->
        (((job.script action).exitStatus outcomes = 0 -> job.Passes outcomes /\ Archived outcomes) <->
          Not (job.Passes outcomes) \/
            (outcomes.status .enter = 0 /\ outcomes.status .pack = 0 /\ outcomes.status .put = 0))) /\
    (forall byteLimit path,
      (((readScript byteLimit path).exitStatus outcomes = 0 -> outcomes.status .limit = 0) <->
        outcomes.status .encode ≠ 0 \/ outcomes.status .limit = 0)) := by
  refine ⟨?_, ?_, ?_⟩
  · intro root sourcePaths destinationPath job accepted
    rw [MoveJob.exitStatus_eq_zero_iff (items_ne_nil accepted)]
    constructor
    · intro done
      by_cases passes : job.Passes outcomes
      · by_cases last : outcomes.status (.move (job.items.length - 1)) = 0
        · exact .inr (.inr (fun index inside => (done ⟨passes, last⟩).2 index (Nat.lt_of_succ_lt inside)))
        · exact .inr (.inl last)
      · exact .inl passes
    · rintro (fails | fails | early) ⟨passes, last⟩
      · exact absurd passes fails
      · exact absurd last fails
      · refine ⟨passes, ?_⟩
        intro index inside
        rcases Nat.lt_or_eq_of_le (Nat.succ_le_of_lt inside) with before | isLast
        · exact early index before
        · rw [← isLast] at last
          exact last
  · intro root sourcePaths destinationPath uuid job action accepted
    rw [ArchiveJob.exitStatus_eq_zero_iff]
    constructor
    · intro done
      by_cases passes : job.Passes outcomes
      · exact .inr (done passes).2
      · exact .inl passes
    · rintro (fails | done) passes
      · exact absurd passes fails
      · exact ⟨passes, done⟩
  · intro byteLimit path
    rw [exitStatus_readScript]
    exact imp_iff_not_or

/-- The move of two files of which the first fails. -/
def firstFails : Outcomes Step where
  status
    | .move 0 => 1
    | _ => 0
  selected := fun _ => false

def twoFilesMoved : MoveJob where
  destination := "/data/b".toList
  items := [⟨"/data/x".toList, "/data/b/x".toList⟩, ⟨"/data/y".toList, "/data/b/y".toList⟩]

theorem success_means_done_iff_clean :
    moveFilesInContainer runningServer ["x".toList, "y".toList] "b".toList = .ok twoFilesMoved /\
      ((twoFilesMoved.script.exitStatus firstFails = 0 ->
          twoFilesMoved.Passes firstFails /\ twoFilesMoved.Moved firstFails) <->
        Not (twoFilesMoved.Passes firstFails) \/ firstFails.status (.move 1) ≠ 0 \/
          forall index, index + 1 < 2 -> firstFails.status (.move index) = 0) :=
  ⟨by decide, (success_means_done_iff firstFails).1 runningServer ["x".toList, "y".toList] "b".toList
    twoFilesMoved (by decide)⟩

/-- The first of two files is not moved, and the script ends with status zero. -/
theorem first_move_fails_unseen :
    Not (forall (outcomes : Outcomes Step) root sourcePaths destinationPath job,
      moveFilesInContainer root sourcePaths destinationPath = .ok job ->
        job.script.exitStatus outcomes = 0 -> job.Passes outcomes /\ job.Moved outcomes) := by
  intro done
  have accepted : moveFilesInContainer runningServer ["x".toList, "y".toList] "b".toList =
      .ok twoFilesMoved := by decide
  have ended : twoFilesMoved.script.exitStatus firstFails = 0 := by decide
  have moved := (done firstFails _ _ _ _ accepted ended).2 0 (by decide)
  cases moved

end Storage
end Agapornis
