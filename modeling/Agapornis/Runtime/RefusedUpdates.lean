import Agapornis.Foundations.Program
import Agapornis.Runtime.Limits

namespace Agapornis
namespace Runtime

open Foundations Agapornis.Core

/-!
# Refused updates of limits

An update checks the pinned threads and the CPU quota before it asks Docker
for anything, and the swap memory after Docker has reported the new limits.
Here the update is a program of calls, so that one can see which of them a
refused update has made.
-/

inductive LimitCall where
  | updateContainer (id : Text) (body : LimitBody)
  | inspect (id : Text)
  | createDirAll (path : List Text)
  | write (path : List Text) (content : Text)
  | readToString (path : List Text)

@[reducible] def LimitCall.Reply : LimitCall -> Type
  | .updateContainer _ _ => Except Failure Unit
  | .inspect _ => Except Failure HostLimits
  | .createDirAll _ => Except Failure Unit
  | .write _ _ => Except Failure Unit
  | .readToString _ => Except Failure Text

/-- A call which changes the limits of a server. -/
def LimitCall.changes : LimitCall -> Bool
  | .updateContainer _ _ => true
  | .write _ _ => true
  | _ => false

abbrev LimitProgram := Program LimitCall LimitCall.Reply Failure

section Updates

variable (tools : LimitTools) (course : UpdateCourse)

def performLimit : (request : LimitCall) -> ServerLimits -> request.Reply × ServerLimits
  | .updateContainer _ body, limits =>
      match course.update with
      | some (failure, made) =>
          (.error failure,
            { limits with host := if made then body.updated tools.blank limits.host else limits.host })
      | none => (.ok (), { limits with host := body.updated tools.blank limits.host })
  | .inspect _, limits =>
      match course.inspect with
      | some failure => (.error failure, limits)
      | none => (.ok limits.host, limits)
  | .createDirAll _, limits =>
      match course.createDir with
      | some failure => (.error failure, limits)
      | none => (.ok (), limits)
  | .write _ content, limits =>
      match course.write with
      | some (failure, left) => (.error failure, { limits with disk := left })
      | none => (.ok (), { limits with disk := some content })
  | .readToString _, limits =>
      match course.readBack, limits.disk with
      | some failure, _ => (.error failure, limits)
      | none, none => (.error (.io .notFound), limits)
      | none, some written => (.ok written, limits)

/-- Send the limits to Docker, if there are any, and read them back. -/
def sendLimits (serverId : Text) : Option LimitBody -> LimitProgram Unit
  | none => .done ()
  | some body => do
      Program.required (.context s!"update resources for Docker container {String.ofList serverId}")
        (Program.ask (LimitCall.updateContainer serverId body))
      let host <- Program.required id (Program.ask (LimitCall.inspect serverId))
      Program.ofExcept (reportedAs "memory" body.memory host.memory)
      Program.ofExcept (reportedAs "CPU" body.nanoCpus host.nanoCpus)

/-- Write a disk limit and read it back. -/
def storeLimit (path : List Text) (disk : Int) : LimitProgram Unit := do
  Program.required id (Program.ask (LimitCall.createDirAll path.dropLast))
  Program.required (.context ("write disk limit metadata " ++ String.ofList ('/' :: Paths.display path)))
    (Program.ask (LimitCall.write path (Text.signedDecimal disk)))
  let written <- Program.required id (Program.ask (LimitCall.readToString path))
  Program.ofExcept (readBackDiskLimit none written disk)

def storeDisk (spec : ResourceSpec) : LimitProgram Unit := do
  let disk <- Program.ofExcept
    (effectiveDiskLimit spec.diskLimitBytes spec.swapMemoryBytes spec.swapMemoryStorage)
  if 0 < disk then do
    let path <- Program.ofExcept (Paths.diskLimitPath tools.environment spec.serverId)
    storeLimit path disk
  else .done ()

def updateProgram (spec : ResourceSpec) : LimitProgram Unit := do
  let body <- Program.ofExcept (updateBody tools spec)
  sendLimits spec.serverId body
  storeDisk tools spec

/-! ## The same update as before -/

theorem sendLimits_run (serverId : Text) (body : LimitBody) (limits : ServerLimits) :
    (sendLimits serverId (some body)).run (performLimit tools course) limits =
      ((updateContainer tools course serverId body limits.host).2,
        { limits with host := (updateContainer tools course serverId body limits.host).1 }) := by
  unfold sendLimits updateContainer
  rw [Program.run_bind, Program.run_required, Program.run_ask]
  unfold performLimit
  dsimp only
  cases course.update with
  | some fault => rfl
  | none =>
      dsimp only
      rw [Program.run_bind, Program.run_required, Program.run_ask]
      cases course.inspect with
      | some failure => rfl
      | none =>
          dsimp only
          cases reportedAs "memory" body.memory (body.updated tools.blank limits.host).memory with
          | error failure => rfl
          | ok reported =>
              cases reportedAs "CPU" body.nanoCpus (body.updated tools.blank limits.host).nanoCpus <;> rfl

theorem storeLimit_run (path : List Text) (disk : Int) (limits : ServerLimits) :
    (storeLimit path disk).run (performLimit tools course) limits =
      ((writeDiskLimit course path disk limits.disk).2,
        { limits with disk := (writeDiskLimit course path disk limits.disk).1 }) := by
  unfold storeLimit writeDiskLimit
  rw [Program.run_bind, Program.run_required, Program.run_ask]
  unfold performLimit
  dsimp only
  cases course.createDir with
  | some failure => rfl
  | none =>
      dsimp only
      rw [Program.run_bind, Program.run_required, Program.run_ask]
      cases course.write with
      | some fault => rfl
      | none =>
          dsimp only
          rw [Program.run_bind, Program.run_required, Program.run_ask]
          cases course.readBack with
          | some failure => rfl
          | none =>
              dsimp only
              cases readBackDiskLimit none (Text.signedDecimal disk) disk <;> rfl

theorem storeDisk_run (spec : ResourceSpec) (limits : ServerLimits) :
    (storeDisk tools spec).run (performLimit tools course) limits =
      ((updateDisk tools course spec limits.disk).2,
        { limits with disk := (updateDisk tools course spec limits.disk).1 }) := by
  unfold storeDisk updateDisk
  cases effectiveDiskLimit spec.diskLimitBytes spec.swapMemoryBytes spec.swapMemoryStorage with
  | error failure => rfl
  | ok disk =>
      dsimp only [Program.ofExcept, Program.done_bind]
      split
      · cases Paths.diskLimitPath tools.environment spec.serverId with
        | error failure => rfl
        | ok path => exact storeLimit_run tools course path disk limits
      · rfl

/-- Run call by call, an update ends as it does as a whole. -/
theorem updateProgram_run (spec : ResourceSpec) (limits : ServerLimits) :
    (updateProgram tools spec).run (performLimit tools course) limits =
      ((updateResources tools course spec limits).2, (updateResources tools course spec limits).1) := by
  unfold updateProgram updateResources
  cases updateBody tools spec with
  | error failure => rfl
  | ok request =>
      dsimp only [Program.ofExcept, Program.done_bind]
      rw [Program.run_bind]
      cases request with
      | none => exact storeDisk_run tools course spec limits
      | some body =>
          rw [sendLimits_run]
          dsimp only
          generalize updateContainer tools course spec.serverId body limits.host = sending
          rcases sending with ⟨host, outcome⟩
          cases outcome with
          | error failure => rfl
          | ok sent => exact storeDisk_run tools course spec ⟨host, limits.disk⟩

end Updates

/-! ## What is refused -/

section Refusals

variable (tools : LimitTools) (spec : ResourceSpec)

/-- A request that is refused before Docker is asked: an id or a list of
pinned threads that is not valid, or a CPU quota that is too large. -/
inductive RefusedEarly : Prop where
  | serverId {failure : Failure} (invalid : Paths.validateId spec.serverId = .error failure)
  | pinned {failure : Failure} (pinning : spec.cpuPinning = true)
      (invalid : pinnedCpuSet tools spec.cpuPinnedThreads = .error failure)
  | quota (positive : tools.doubles.positive (effectiveCpus tools spec.cpuLimitPercentage) = true)
      (tooLarge : tools.doubles.finite (effectiveCpus tools spec.cpuLimitPercentage) = false \/
        tools.doubles.aboveMaximum
          (tools.doubles.billionfold (effectiveCpus tools spec.cpuLimitPercentage)) = true)

/-- A request whose swap memory is negative, or too large for the disk that it comes from. -/
inductive RefusedLate : Prop where
  | negative (negative : spec.swapMemoryBytes < 0)
  | storage (ofServer : spec.swapMemoryStorage = "server".toList) (swap : 0 < spec.swapMemoryBytes)
      (tooSmall : spec.diskLimitBytes <= spec.swapMemoryBytes)

variable {tools spec}

theorem updateBody_error_iff :
    (Exists fun failure => updateBody tools spec = .error failure) <-> RefusedEarly tools spec := by
  unfold updateBody
  rw [bind_eq_error]
  constructor
  · rintro (⟨failure, invalid⟩ | ⟨_, _, rest⟩)
    · exact .serverId invalid
    · rcases bind_eq_error.mp rest with ⟨failure, refused⟩ | ⟨_, _, rest⟩
      · unfold requestedSet at refused
        split at refused
        · next pinning =>
            rcases bind_eq_error.mp ⟨failure, refused⟩ with ⟨other, invalid⟩ | ⟨_, _, _, impossible⟩
            · exact .pinned pinning invalid
            · cases impossible
        · cases refused
      · rcases bind_eq_error.mp rest with ⟨failure, refused⟩ | ⟨_, _, _, impossible⟩
        · unfold checkedNanoCpus at refused
          split at refused
          · next positive =>
              rcases bind_eq_error.mp ⟨failure, refused⟩ with notFinite | ⟨_, _, rest⟩
              · have infinite := refuseIf_eq_error.mp notFinite
                exact .quota positive (Or.inl (by simpa using infinite))
              · rcases bind_eq_error.mp rest with tooLarge | ⟨_, _, _, impossible⟩
                · exact .quota positive (Or.inr (refuseIf_eq_error.mp tooLarge))
                · cases impossible
          · cases refused
        · cases impossible
  · intro refused
    cases valid : Paths.validateId spec.serverId with
    | error failure => exact Or.inl ⟨failure, rfl⟩
    | ok checked =>
        refine Or.inr ⟨checked, rfl, bind_eq_error.mpr ?_⟩
        cases requested : requestedSet tools spec with
        | error failure => exact Or.inl ⟨failure, rfl⟩
        | ok cpuset =>
            refine Or.inr ⟨cpuset, rfl, bind_eq_error.mpr (Or.inl ?_)⟩
            cases refused with
            | serverId invalid => cases valid.symm.trans invalid
            | pinned pinning invalid =>
                unfold requestedSet at requested
                rw [if_pos pinning, invalid] at requested
                cases requested
            | quota positive tooLarge =>
                unfold checkedNanoCpus
                rw [if_pos positive]
                apply bind_eq_error.mpr
                rcases tooLarge with infinite | above
                · exact Or.inl (refuseIf_eq_error.mpr (by rw [infinite]; rfl))
                · cases finite : tools.doubles.finite (effectiveCpus tools spec.cpuLimitPercentage) with
                  | false => exact Or.inl ⟨_, rfl⟩
                  | true => exact Or.inr ⟨(), rfl, bind_eq_error.mpr (Or.inl (refuseIf_eq_error.mpr above))⟩

theorem effectiveDiskLimit_error_iff :
    (Exists fun failure => effectiveDiskLimit spec.diskLimitBytes spec.swapMemoryBytes
        spec.swapMemoryStorage = .error failure) <-> RefusedLate spec := by
  unfold effectiveDiskLimit
  rw [bind_eq_error, refuseIf_eq_error, decide_eq_true_eq]
  constructor
  · rintro (negative | ⟨_, _, failure, refused⟩)
    · exact .negative negative
    · split at refused
      · next ofServer =>
          rcases bind_eq_error.mp ⟨failure, refused⟩ with tooSmall | ⟨_, _, _, impossible⟩
          · exact .storage ofServer.1 ofServer.2 (of_decide_eq_true (refuseIf_eq_error.mp tooSmall))
          · cases impossible
      · cases refused
  · intro refused
    cases refused with
    | negative negative => exact Or.inl negative
    | storage ofServer swap tooSmall =>
        right
        refine ⟨(), refuseIf_eq_ok.mpr (decide_eq_false (by omega)), ?_⟩
        rw [if_pos ⟨ofServer, swap⟩]
        exact bind_eq_error.mpr (Or.inl (refuseIf_eq_error.mpr (decide_eq_true tooSmall)))

variable (tools) in
theorem storeDisk_failed (refused : RefusedLate spec) : Exists fun failure =>
    storeDisk tools spec = .failed failure := by
  rcases effectiveDiskLimit_error_iff.mpr refused with ⟨failure, limit⟩
  refine ⟨failure, ?_⟩
  unfold storeDisk
  rw [limit]
  rfl

/-- Whatever Docker and the file system answer, a request that is refused
fails.  It makes no call that changes the limits exactly if it is refused
early, or if there are no limits to send. -/
theorem refused_update_untouched_iff (course : UpdateCourse) (limits : ServerLimits)
    (refused : RefusedEarly tools spec \/ RefusedLate spec) :
    (Exists fun failure => (updateResources tools course spec limits).2 = .error failure) /\
      ((updateProgram tools spec).Throughout (performLimit tools course)
          (fun request _ => request.changes = false) limits <->
        RefusedEarly tools spec \/ sendsLimits tools spec = false) := by
  have ended : (updateResources tools course spec limits).2 =
      ((updateProgram tools spec).run (performLimit tools course) limits).1 := by
    rw [updateProgram_run]
  rw [ended]
  unfold updateProgram
  cases accepted : updateBody tools spec with
  | error failure =>
      have early := updateBody_error_iff.mp ⟨failure, accepted⟩
      exact ⟨⟨failure, rfl⟩, iff_of_true trivial (Or.inl early)⟩
  | ok request =>
      have notEarly : Not (RefusedEarly tools spec) := by
        intro early
        rcases updateBody_error_iff.mpr early with ⟨failure, impossible⟩
        cases accepted.symm.trans impossible
      have late : RefusedLate spec := refused.resolve_left notEarly
      rcases storeDisk_failed tools late with ⟨failure, stops⟩
      rcases updateBody_ok accepted with ⟨_, cpuset, _, same⟩
      dsimp only [Program.ofExcept, Program.done_bind]
      rw [stops]
      cases sends : sendsLimits tools spec with
      | false =>
          rw [if_neg (by rw [sends]; decide)] at same
          subst same
          exact ⟨⟨failure, rfl⟩, iff_of_true trivial (Or.inr rfl)⟩
      | true =>
          rw [if_pos sends] at same
          subst same
          constructor
          · rw [Program.run_bind]
            split
            · exact ⟨failure, rfl⟩
            · next other _ _ => exact ⟨other, rfl⟩
          · refine iff_of_false ?_ ?_
            · intro untouched
              have unchanged : true = false := untouched.1
              cases unchanged
            · rintro (early | nothing)
              · exact notEarly early
              · cases nothing

end Refusals

/-! ## A refused update that reaches Docker -/

/-- A request for two GiB of memory whose swap memory is negative. -/
def negativeSwap : ResourceSpec :=
  { sampleResources (2 ^ 31) 0 with swapMemoryBytes := -1 }

theorem refused_update_untouched_iff_sample :
    (Exists fun failure =>
      (updateResources sampleLimitTools quietUpdate negativeSwap sampleLimits).2 = .error failure) /\
      ((updateProgram sampleLimitTools negativeSwap).Throughout (performLimit sampleLimitTools quietUpdate)
          (fun request _ => request.changes = false) sampleLimits <->
        RefusedEarly sampleLimitTools negativeSwap \/ sendsLimits sampleLimitTools negativeSwap = false) :=
  refused_update_untouched_iff quietUpdate sampleLimits (Or.inr (.negative (by decide)))

/-- Docker has changed the memory limit when the swap memory is refused. -/
theorem negative_swap_refused_after_update :
    updateResources sampleLimitTools quietUpdate negativeSwap sampleLimits =
        (⟨⟨2 ^ 31, 2 ^ 31, 10 ^ 9, []⟩, none⟩, .error (.bail "swap memory cannot be negative")) /\
      Not ((updateProgram sampleLimitTools negativeSwap).Throughout
        (performLimit sampleLimitTools quietUpdate) (fun request _ => request.changes = false)
        sampleLimits) := by
  refine ⟨rfl, ?_⟩
  intro untouched
  have unchanged : true = false := untouched.1
  cases unchanged

end Runtime
end Agapornis
