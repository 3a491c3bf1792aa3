import Agapornis.Console.History
import Agapornis.Core.Paths
import Agapornis.Foundations.Machine
import Mathlib.Data.List.Lattice

namespace Agapornis
namespace Console

open Foundations
open Agapornis.Core (Failure refuseIf)
open Agapornis.Core.Paths (validateId)

/-!
# The console hub

The hub knows which servers the agent owns, which consoles are read, and where
their lines are broadcast.  A reader is a task that follows the log of one
server as long as somebody listens; it is started for the first viewer of a
console and retires itself some time after the last one has left.

What one operation does while it holds the lifecycle lock is one step here.
Reader tasks and channels are numbered in the order in which they were made, and
a set of ids is a list to which an id is added only once.
-/

/-- How far a reader task is.  It watches its channel until nobody listens, then
lets a timer run; when that fires over an empty channel the task is idle and
waits for the lifecycle lock to retire. -/
inductive ReaderPhase where
  | watching
  | counting
  | idle
  | finished
  deriving DecidableEq, Repr

structure ReaderTask where
  server : Text
  channel : Nat
  active : Bool := true
  suspended : Bool := false
  wake : Bool := false
  viewerWake : Bool := false
  phase : ReaderPhase := .watching
  deriving DecidableEq, Repr

structure ConsoleHub (Line : Type) where
  docker : Bool
  maxActiveReaders : Nat
  desired : List Text := []
  readers : Table Text Nat := ∅
  pendingAdditions : List Text := []
  pendingRemovals : List Text := []
  inventoryInitialized : Bool := false
  senders : Table Text Nat := ∅
  history : HistoryCache Line
  tasks : List ReaderTask := []
  receivers : List Nat := []

structure ConsoleSyncResult where
  activeReaderCount : Nat
  acceptedCount : Nat
  removedCount : Nat
  deriving DecidableEq, Repr

def notAssigned : Failure :=
  .bail "server is not assigned to this agent console inventory"

def removedBeforeBootstrap : Failure :=
  .bail "server was removed before console inventory bootstrap"

def capacityReached (maximum : Nat) : Failure :=
  .bail (("console reader capacity reached (maximum ".append (toString maximum)).append ")")

variable {Line : Type}

namespace ConsoleHub

/-- A reader task is still there. -/
def unfinished (hub : ConsoleHub Line) (task : Nat) : Bool :=
  match hub.tasks[task]? with
  | none => false
  | some reader => reader.phase ≠ .finished

/-- The number of registered readers whose task is still there. -/
def activeReaders (hub : ConsoleHub Line) : Nat :=
  Table.total (fun _ task => if hub.unfinished task then 1 else 0) hub.readers

def modifyTask (hub : ConsoleHub Line) (task : Nat) (change : ReaderTask -> ReaderTask) : ConsoleHub Line :=
  { hub with tasks := hub.tasks.modify task change }

/-- Take a reader out of the register and tell its task to end. -/
def stopReader (hub : ConsoleHub Line) (id : Text) : ConsoleHub Line :=
  match hub.readers.lookup id with
  | none => hub
  | some task =>
      { hub with
        readers := hub.readers.erase id
        tasks := hub.tasks.modify task fun reader => { reader with active := false } }

def startReaderLocked (hub : ConsoleHub Line) (id : Text) (channel : Nat) : ConsoleHub Line :=
  if hub.docker then
    { hub with
      tasks := hub.tasks ++ [{ server := id, channel := channel }]
      readers := hub.readers.insert id hub.tasks.length }
  else hub

def ensureReaderLocked (hub : ConsoleHub Line) (id : Text) (channel : Nat) : ConsoleHub Line :=
  match hub.readers.lookup id with
  | some task =>
      if hub.unfinished task then
        hub.modifyTask task fun reader => { reader with viewerWake := true }
      else (hub.stopReader id).startReaderLocked id channel
  | none => hub.startReaderLocked id channel

def recordAddition (hub : ConsoleHub Line) (id : Text) : ConsoleHub Line :=
  if hub.inventoryInitialized then hub
  else
    { hub with
      pendingRemovals := hub.pendingRemovals.filter (· ≠ id)
      pendingAdditions := hub.pendingAdditions.insert id }

def trackServer (hub : ConsoleHub Line) (id : Text) : Except Failure Unit × ConsoleHub Line :=
  match validateId id with
  | .error failure => (.error failure, hub)
  | .ok _ =>
      let hub := hub.recordAddition id
      (.ok (), { hub with desired := hub.desired.insert id })

def refreshServer (hub : ConsoleHub Line) (id : Text) : Except Failure Unit × ConsoleHub Line :=
  match validateId id with
  | .error failure => (.error failure, hub)
  | .ok _ =>
      let hub := hub.recordAddition id
      let hub := { hub with desired := hub.desired.insert id }
      match hub.readers.lookup id with
      | none => (.ok (), hub)
      | some task =>
          (.ok (), hub.modifyTask task fun reader => { reader with suspended := false, wake := true })

/-- The ids of an inventory, all of them plain names. -/
def validateInventory : List Text -> Except Failure (List Text)
  | [] => .ok []
  | id :: rest => do
      validateId id
      let desired <- validateInventory rest
      return desired.insert id

/-- What the first inventory makes of the servers known before it. -/
def adopted (hub : ConsoleHub Line) (inventory : List Text) : List Text :=
  (inventory ∪ hub.pendingAdditions).filter (· ∉ hub.pendingRemovals)

/-- The servers owned so far that are not among the adopted ones. -/
def dropped (hub : ConsoleHub Line) (inventory : List Text) : List Text :=
  hub.desired.filter (· ∉ hub.adopted inventory)

def syncResult (hub : ConsoleHub Line) (removedCount : Nat) : ConsoleSyncResult where
  activeReaderCount := hub.activeReaders
  acceptedCount := hub.desired.length
  removedCount := removedCount

/-- Forget the channel and the lines of a server. -/
def forget (hub : ConsoleHub Line) (id : Text) : ConsoleHub Line :=
  { hub with senders := hub.senders.erase id, history := hub.history.remove id }

def synchronizeServers (hub : ConsoleHub Line) (serverIds : List Text) :
    Except Failure ConsoleSyncResult × ConsoleHub Line :=
  if hub.inventoryInitialized then (.ok (hub.syncResult 0), hub)
  else
    match validateInventory serverIds with
    | .error failure => (.error failure, hub)
    | .ok inventory =>
        let removed := hub.dropped inventory
        let stopped := removed.foldl stopReader hub
        let settled := { stopped with
          desired := hub.adopted inventory
          pendingAdditions := []
          pendingRemovals := []
          inventoryInitialized := true }
        let discarded := removed.foldl forget settled
        (.ok (discarded.syncResult removed.length), discarded)

def validateSubscription (hub : ConsoleHub Line) (id : Text) : Except Failure Unit × ConsoleHub Line :=
  if hub.inventoryInitialized then
    if id ∈ hub.desired then (.ok (), hub) else (.error notAssigned, hub)
  else if id ∈ hub.pendingRemovals then (.error removedBeforeBootstrap, hub)
  else (.ok (), { hub with desired := hub.desired.insert id })

/-- The reader registered for a server is still there. -/
def isRead (hub : ConsoleHub Line) (id : Text) : Bool :=
  match hub.readers.lookup id with
  | none => false
  | some task => hub.unfinished task

def validateReaderCapacity (hub : ConsoleHub Line) (id : Text) : Except Failure Unit :=
  if !hub.docker || hub.isRead id then .ok ()
  else if hub.maxActiveReaders <= hub.activeReaders then .error (capacityReached hub.maxActiveReaders)
  else .ok ()

/-- The channel of a console, made when there is none. -/
def openSender (hub : ConsoleHub Line) (id : Text) : Nat × ConsoleHub Line :=
  match hub.senders.lookup id with
  | some channel => (channel, hub)
  | none =>
      (hub.receivers.length,
        { hub with
          senders := hub.senders.insert id hub.receivers.length
          receivers := hub.receivers ++ [0] })

/-- One more receiver of a channel. -/
def listen (hub : ConsoleHub Line) (channel : Nat) : ConsoleHub Line :=
  { hub with receivers := hub.receivers.modify channel (· + 1) }

/-- The first step of a subscription: a receiver of the console's channel. -/
def subscribe (hub : ConsoleHub Line) (id : Text) : Except Failure Nat × ConsoleHub Line :=
  match hub.validateSubscription id with
  | (.error failure, hub) => (.error failure, hub)
  | (.ok _, hub) =>
      match hub.validateReaderCapacity id with
      | .error failure => (.error failure, hub)
      | .ok _ =>
          let opened := hub.openSender id
          (.ok opened.1, (opened.2.listen opened.1).ensureReaderLocked id opened.1)

def receiverCount (hub : ConsoleHub Line) (channel : Nat) : Nat :=
  (hub.receivers[channel]?).getD 0

/-- An idle reader gives up its console, or is followed by another one. -/
def retireIdleReader (hub : ConsoleHub Line) (task : Nat) (reader : ReaderTask) : ConsoleHub Line :=
  if hub.readers.lookup reader.server = some task then
    let hub := { hub with readers := hub.readers.erase reader.server }
    if 0 < hub.receiverCount reader.channel && reader.server ∈ hub.desired then
      hub.startReaderLocked reader.server reader.channel
    else
      { hub with
        senders :=
          if hub.senders.lookup reader.server = some reader.channel &&
              hub.receiverCount reader.channel = 0 then
            hub.senders.erase reader.server
          else hub.senders
        history := hub.history.remove reader.server }
  else hub

def remove (hub : ConsoleHub Line) (id : Text) : ConsoleHub Line :=
  let hub :=
    if hub.inventoryInitialized then hub
    else
      { hub with
        pendingAdditions := hub.pendingAdditions.filter (· ≠ id)
        pendingRemovals := hub.pendingRemovals.insert id }
  (({ hub with desired := hub.desired.filter (· ≠ id) }).stopReader id).forget id

/-- A line that is not from the log, as it is after its preparation. -/
def publish [LineText Line] (hub : ConsoleHub Line) (id : Text) (line : Option Line) : ConsoleHub Line :=
  if (hub.inventoryInitialized && id ∉ hub.desired) ||
      (!hub.inventoryInitialized && id ∈ hub.pendingRemovals) then hub
  else
    match line with
    | none => hub
    | some line => { hub with history := (hub.history.push id line).2 }

end ConsoleHub

inductive HubAction (Line : Type) where
  | track (id : Text)
  | refresh (id : Text)
  | synchronize (serverIds : List Text)
  | subscribe (id : Text)
  /-- The second step of a subscription. -/
  | snapshot (id : Text)
  | publish (id : Text) (line : Option Line)
  | remove (id : Text)
  /-- A viewer's receiver is dropped. -/
  | disconnect (channel : Nat)
  /-- Nobody listens to a reader's channel any more. -/
  | closed (task : Nat)
  /-- A reader whose timer runs notices that a viewer has come. -/
  | viewerWoken (task : Nat)
  /-- The timer of a reader fires. -/
  | timer (task : Nat)
  /-- An idle reader gets the lifecycle lock. -/
  | retire (task : Nat)
  /-- A reader that was told to end ends. -/
  | finish (task : Nat)
  /-- A reader pushes a line of the log, as it is after its preparation. -/
  | line (task : Nat) (line : Line)
  deriving DecidableEq

namespace ConsoleHub

/-- A step of a reader task in one phase. -/
def readerStep (hub : ConsoleHub Line) (task : Nat) (phase : ReaderPhase)
    (next : ReaderTask -> ConsoleHub Line) : ConsoleHub Line :=
  match hub.tasks[task]? with
  | none => hub
  | some reader => if reader.phase = phase then next reader else hub

def step [LineText Line] (hub : ConsoleHub Line) : HubAction Line -> ConsoleHub Line
  | .track id => (hub.trackServer id).2
  | .refresh id => (hub.refreshServer id).2
  | .synchronize serverIds => (hub.synchronizeServers serverIds).2
  | .subscribe id => (hub.subscribe id).2
  | .snapshot id => { hub with history := (hub.history.snapshot id).2 }
  | .publish id line => hub.publish id line
  | .remove id => hub.remove id
  | .disconnect channel => { hub with receivers := hub.receivers.modify channel (· - 1) }
  | .closed task => hub.readerStep task .watching fun reader =>
      if hub.receiverCount reader.channel = 0 then
        hub.modifyTask task fun reader => { reader with phase := .counting }
      else hub
  | .viewerWoken task => hub.readerStep task .counting fun reader =>
      if reader.viewerWake then
        hub.modifyTask task fun reader => { reader with phase := .watching, viewerWake := false }
      else hub
  | .timer task => hub.readerStep task .counting fun reader =>
      let next := if hub.receiverCount reader.channel = 0 then ReaderPhase.idle else .watching
      hub.modifyTask task fun reader => { reader with phase := next }
  | .retire task => hub.readerStep task .idle fun reader =>
      (hub.retireIdleReader task reader).modifyTask task fun reader =>
        { reader with phase := .finished }
  | .finish task =>
      match hub.tasks[task]? with
      | none => hub
      | some reader =>
          if reader.active then hub
          else hub.modifyTask task fun reader => { reader with phase := .finished }
  | .line task line =>
      match hub.tasks[task]? with
      | none => hub
      | some reader =>
          if reader.active && reader.phase ≠ .finished && reader.phase ≠ .idle then
            { hub with history := (hub.history.push reader.server line).2 }
          else hub

abbrev after [LineText Line] (hub : ConsoleHub Line) (run : List (HubAction Line)) : ConsoleHub Line :=
  Machine.reach step hub run

/-- A hub as it is made. -/
def start (docker : Bool) (maxActiveReaders maximumBytes : Nat) : ConsoleHub Line where
  docker := docker
  maxActiveReaders := maxActiveReaders
  history := .withMaximum maximumBytes

end ConsoleHub

end Console
end Agapornis
