import Agapornis.Core.Failure
import Agapornis.Core.Value
import Agapornis.Foundations.Table

namespace Agapornis
namespace Runtime

open Foundations Agapornis.Core

/-!
# The supervisor

From time to time the agent goes through its containers.  It inspects each,
counts the failures it finds, quarantines a container that keeps failing, and
measures the files of a container when that is due.  Times are nanoseconds of
one monotone clock, which one observation reads once.
-/

/-- So many seconds. -/
def seconds (count : Nat) : Nat :=
  count * 1000000000

/-! ## One container -/

/-- What one inspection says, and when. -/
structure Seen where
  now : Nat
  restart : Int
  running : Bool
  exit : Int
  deriving DecidableEq, Repr

structure Observation where
  lastRestart : Int
  wasRunning : Bool
  runningSince : Option Nat
  failures : List Nat
  quarantined : Bool
  deriving DecidableEq, Repr

namespace Observation

/-- A new entry, and what manual recovery makes of an old one. -/
def fresh (seen : Seen) : Observation where
  lastRestart := seen.restart
  wasRunning := seen.running
  runningSince := if seen.running then some seen.now else none
  failures := []
  quarantined := false

/-- The failures which one observation counts. -/
def counted (state : Observation) (seen : Seen) : Nat :=
  (min (max (seen.restart - state.lastRestart) 0) 3).toNat +
    if state.wasRunning && !seen.running && seen.exit != 0 then 1 else 0

/-- Take the failures older than five minutes from the front of the queue. -/
def prune (now : Nat) (failures : List Nat) : List Nat :=
  failures.dropWhile (fun failure => decide (seconds 300 < now - failure))

/-- The container is found running two minutes after it was found running first. -/
def stable (state : Observation) (seen : Seen) : Bool :=
  seen.running && decide (seconds 120 <= seen.now - state.runningSince.getD seen.now)

/-- Count what is new, forget what is old. -/
def advance (state : Observation) (seen : Seen) : Observation where
  lastRestart := seen.restart
  wasRunning := seen.running
  runningSince := if seen.running then some (state.runningSince.getD seen.now) else none
  failures :=
    if state.stable seen then []
    else prune seen.now (state.failures ++ List.replicate (state.counted seen) seen.now)
  quarantined := state.quarantined

/-- Protection engages now. -/
def engages (state : Observation) : Bool :=
  !state.quarantined && decide (3 <= state.failures.length)

/-- An entry with protection engaged when the queue is long enough. -/
def settled (state : Observation) : Observation :=
  { state with quarantined := state.quarantined || decide (3 <= state.failures.length) }

end Observation

/-! ## What is known of all containers -/

/-- The statuses and the recovery windows of the protection. -/
structure Protection where
  statuses : Table Text Text := ∅
  recovery : Table Text Nat := ∅

namespace Protection

def mark (protection : Protection) (id status : Text) : Protection :=
  { protection with statuses := protection.statuses.insert id status }

def clearDisk (protection : Protection) (id : Text) : Protection :=
  if protection.statuses.lookup id = some "disk-limit-exceeded".toList then
    { protection with statuses := protection.statuses.erase id }
  else protection

@[simp] theorem clearDisk_recovery (protection : Protection) (id : Text) :
    (protection.clearDisk id).recovery = protection.recovery := by
  rw [clearDisk]
  split <;> rfl

theorem clearDisk_statuses {id other : Text} (different : other ≠ id) (protection : Protection) :
    (protection.clearDisk id).statuses.lookup other = protection.statuses.lookup other := by
  rw [clearDisk]
  split
  · exact Table.lookup_erase_of_ne different
  · rfl

def manualRecovery (protection : Protection) (id : Text) (now : Nat) : Protection where
  statuses := protection.statuses.erase id
  recovery := protection.recovery.insert id (now + seconds 120)

/-- A container is within the window of a manual recovery. -/
def recovering (protection : Protection) (id : Text) (now : Nat) : Bool :=
  match protection.recovery.lookup id with
  | some ends => decide (now < ends)
  | none => false

/-- The check for a recovery window takes away a window that has ended. -/
def inManualRecovery (protection : Protection) (id : Text) (now : Nat) : Bool × Protection :=
  (protection.recovering id now,
    if protection.recovering id now then protection
    else { protection with recovery := protection.recovery.erase id })

def remove (protection : Protection) (id : Text) : Protection where
  statuses := protection.statuses.erase id
  recovery := protection.recovery.erase id

end Protection

/-- The calls which a scan makes. -/
inductive MonitorCall where
  | forgetRuntimeState (id : Text)
  | detachReader (id : Text)
  | inspect (id : Text)
  | wakeReader (id : Text)
  | observe (id : Text) (seen : Seen)
  | diskForce (id : Text)
  | docker (arguments : List Text)
  | stop (id : Text)
  | publish (id line : Text)
  deriving DecidableEq, Repr

/-- What the supervisor and the protection know, and the calls which the latest scan has made. -/
structure Monitor where
  observations : Table Text Observation := ∅
  diskDue : Table Text Nat := ∅
  protection : Protection := {}
  calls : List MonitorCall := []

namespace Monitor

def record (monitor : Monitor) (made : List MonitorCall) : Monitor :=
  { monitor with calls := monitor.calls ++ made }

def setObservation (monitor : Monitor) (id : Text) (state : Observation) : Monitor :=
  { monitor with observations := monitor.observations.insert id state }

def crashLoopLine : Text :=
  ("[agent] Crash-loop protection engaged after 3 failures in 5 minutes. " ++
    "Automatic restarts are disabled; use Start or Restart after correcting the cause.").toList

/-- Disable the restarts of a container and stop it. -/
def quarantine (monitor : Monitor) (id : Text) (state : Observation) : Monitor :=
  let stopped := (monitor.setObservation id { state with quarantined := true }).record
    [.docker ["update".toList, "--restart".toList, "no".toList, id], .stop id]
  { stopped with protection := stopped.protection.mark id "crash-loop-protected".toList }.record
    [.publish id crashLoopLine]

def observe (id : Text) (seen : Seen) (monitor : Monitor) : Monitor :=
  let state := (monitor.observations.lookup id).getD (Observation.fresh seen)
  let (recovering, protection) := monitor.protection.inManualRecovery id seen.now
  let checked := { monitor with protection }.record [.observe id seen]
  if recovering then checked.setObservation id (Observation.fresh seen)
  else
    let state := state.advance seen
    if state.engages then checked.quarantine id state else checked.setObservation id state

/-! ## One scan -/

/-- What the calls for one container answer, and when. -/
structure Visit where
  observedAt : Nat
  checkedAt : Nat
  inspect : Except Failure Value
  diskForce : Except Failure (Int × Int)

/-- What the supervisor reads from an inspection. -/
def readInspect (now : Nat) (inspect : Value) : Seen where
  now := now
  restart := ((inspect.get "RestartCount".toList).bind Value.asI64).getD 0
  running := ((inspect.pointer ["State".toList, "Running".toList]).bind Value.asBool).getD false
  exit := ((inspect.pointer ["State".toList, "ExitCode".toList]).bind Value.asI64).getD 0

def diskLimitLine (usage limit : Int) : Text :=
  (s!"[agent] Disk limit exceeded ({usage} / {limit} bytes). " ++
    "The server was stopped and cannot start until files are deleted.").toList

/-- Stop a container whose files exceed its limit. -/
def stopForDisk (id : Text) (usage limit : Int) (monitor : Monitor) : Monitor :=
  let stopped := monitor.record
    [.docker ["update".toList, "--restart".toList, "no".toList, id],
      .docker ["stop".toList, "--time".toList, "5".toList, id]]
  { stopped with protection := stopped.protection.mark id "disk-limit-exceeded".toList }.record
    [.publish id (diskLimitLine usage limit)]

/-- The time at which the files of a container are to be measured next. -/
def dueAt (monitor : Monitor) (id : Text) (now : Nat) : Nat :=
  (monitor.diskDue.lookup id).getD now

def setDue (monitor : Monitor) (id : Text) (due : Nat) : Monitor :=
  { monitor with diskDue := monitor.diskDue.insert id due }

/-- Measure the files of a container when that is due. -/
def checkDisk (diskEvery : Nat) (id : Text) (visit : Visit) (monitor : Monitor) :
    Monitor × Except Failure Unit :=
  if monitor.dueAt id visit.checkedAt <= visit.checkedAt then
    let asked := (monitor.setDue id (visit.checkedAt + diskEvery)).record [.diskForce id]
    match visit.diskForce with
    | .error failure => (asked, .error failure)
    | .ok (usage, limit) =>
        if 0 < limit && limit < usage then (asked.stopForDisk id usage limit, .ok ())
        else ({ asked with protection := asked.protection.clearDisk id }, .ok ())
  else (monitor.setDue id (monitor.dueAt id visit.checkedAt), .ok ())

/-- Inspect one container, observe it, and look after its disk. -/
def visitOne (diskEvery : Nat) (id : Text) (visit : Visit) (monitor : Monitor) :
    Monitor × Except Failure Unit :=
  let asked := monitor.record [.inspect id]
  match visit.inspect with
  | .error failure => (asked, .error failure)
  | .ok inspect =>
      let seen := readInspect visit.observedAt inspect
      let woken := if seen.running then asked.record [.wakeReader id] else asked
      (woken.observe id seen).checkDisk diskEvery id visit

/-- Go through the containers, up to the first failure. -/
def visitAll (diskEvery : Nat) (visits : Text -> Visit) :
    List Text -> Monitor -> Monitor × Except Failure Unit
  | [], monitor => (monitor, .ok ())
  | id :: rest, monitor =>
      match monitor.visitOne diskEvery id (visits id) with
      | (visited, .error failure) => (visited, .error failure)
      | (visited, .ok ()) => visitAll diskEvery visits rest visited

/-- Forget a container that is no longer there. -/
def forget (monitor : Monitor) (id : Text) : Monitor :=
  { monitor with
    observations := monitor.observations.erase id
    diskDue := monitor.diskDue.erase id
    protection := monitor.protection.remove id }.record [.forgetRuntimeState id, .detachReader id]

/-- The names which Docker lists. -/
def activeNames (raw : Text) : List Text :=
  ((Text.lines raw).map Text.trim).filter (fun id => !id.isEmpty)

/-- The output of the listing, and the order in which the set of its names is gone through. -/
structure Listing where
  raw : Text
  order : List Text
  nodup : order.Nodup
  covers : forall id, id ∈ order <-> id ∈ activeNames raw

/-- The containers which are known and not listed. -/
def stale (monitor : Monitor) (listing : Listing) : List Text :=
  ((monitor.observations.keys ++ monitor.diskDue.keys).filter (fun id => id ∉ listing.order)).dedup

def scanOnce (diskEvery : Nat) (listed : Except Failure Listing) (visits : Text -> Visit)
    (monitor : Monitor) : Monitor × Except Failure Unit :=
  let begun := { monitor with calls := [] }
  match listed with
  | .error failure => (begun, .error failure)
  | .ok listing =>
      visitAll diskEvery visits listing.order ((begun.stale listing).foldl forget begun)

/-! ## What one observation does -/

/-- The entry an observation goes on from. -/
def entry (monitor : Monitor) (id : Text) (seen : Seen) : Observation :=
  (monitor.observations.lookup id).getD (Observation.fresh seen)

theorem observe_recovering {monitor : Monitor} {id : Text} {seen : Seen}
    (recovering : monitor.protection.recovering id seen.now = true) :
    (monitor.observe id seen).observations.lookup id = some (Observation.fresh seen) := by
  simp [observe, Protection.inManualRecovery, recovering, setObservation, record]

theorem observe_entry {monitor : Monitor} {id : Text} {seen : Seen}
    (outside : monitor.protection.recovering id seen.now = false) :
    (monitor.observe id seen).observations.lookup id =
      some ((monitor.entry id seen).advance seen).settled := by
  simp only [observe, Protection.inManualRecovery, outside, Bool.false_eq_true, if_false]
  rw [<- entry]
  cases engaged : ((monitor.entry id seen).advance seen).engages with
  | true =>
      have long : 3 <= ((monitor.entry id seen).advance seen).failures.length := by
        rw [Observation.engages, Bool.and_eq_true, decide_eq_true_eq] at engaged
        exact engaged.2
      simp [quarantine, setObservation, record, Observation.settled, long]
  | false =>
      have kept : (((monitor.entry id seen).advance seen).quarantined ||
          decide (3 <= ((monitor.entry id seen).advance seen).failures.length)) =
          ((monitor.entry id seen).advance seen).quarantined := by
        rw [Observation.engages] at engaged
        cases held : ((monitor.entry id seen).advance seen).quarantined with
        | true => rfl
        | false =>
            rw [held] at engaged
            simpa using engaged
      simp only [setObservation, record, AList.lookup_insert, Bool.false_eq_true, if_false]
      rw [Observation.settled, kept]

end Monitor

end Runtime
end Agapornis
