import Agapornis.Console.Hub

namespace Agapornis
namespace Console

open Foundations
open Agapornis.Core (Failure refuseIf)

/-!
# Console generations, lock by lock

An operation of the hub holds the lifecycle lock from its beginning to its end,
but it takes the lock of the channels and the lock of the histories one after
the other, and a reader publishes under these two without the lifecycle lock.
Here an operation begins with what it does under the lifecycle lock alone, and
the rest of it is a list of effects, each of which waits for the lock it needs.
Every load of a reader's activity flag is a step of its own.
-/

/-- A line with the reader that prints it, or nobody if the agent itself does. -/
structure Printed (Line : Type) where
  reader : Option Nat
  text : Line
  deriving DecidableEq, Repr

instance {Line : Type} [LineText Line] : LineText (Printed Line) where
  len line := LineText.len line.text

/-- What is left of an operation that holds the lifecycle lock. -/
inductive Effect (Line : Type) where
  | attach (id : Text)
  | discardSenders (ids : List Text)
  | discardUnheard (id : Text) (channel : Nat)
  | discardHistories (ids : List Text)
  | push (id : Text) (line : Line)
  | send (id : Text) (entry : ConsoleEntry Line)
  deriving DecidableEq

variable {Line : Type}

namespace ConsoleHub

/-- The beginning of an operation, and what is left of it. -/
def begin [LineText Line] (hub : ConsoleHub Line) : HubAction Line -> ConsoleHub Line × List (Effect Line)
  | .synchronize serverIds =>
      if hub.inventoryInitialized then (hub, [])
      else
        match validateInventory serverIds with
        | .error _ => (hub, [])
        | .ok inventory =>
            let removed := hub.dropped inventory
            let stopped := removed.foldl stopReader hub
            ({ stopped with
                desired := hub.adopted inventory
                pendingAdditions := []
                pendingRemovals := []
                inventoryInitialized := true },
              if removed = [] then [] else [.discardSenders removed, .discardHistories removed])
  | .subscribe id =>
      match hub.validateSubscription id with
      | (.error _, hub) => (hub, [])
      | (.ok _, hub) =>
          match hub.validateReaderCapacity id with
          | .error _ => (hub, [])
          | .ok _ => (hub, [.attach id])
  | .publish id line =>
      if (hub.inventoryInitialized && id ∉ hub.desired) ||
          (!hub.inventoryInitialized && id ∈ hub.pendingRemovals) then (hub, [])
      else
        match line with
        | none => (hub, [])
        | some line => (hub, [.push id line])
  | .remove id =>
      let hub :=
        if hub.inventoryInitialized then hub
        else
          { hub with
            pendingAdditions := hub.pendingAdditions.filter (· ≠ id)
            pendingRemovals := hub.pendingRemovals.insert id }
      (({ hub with desired := hub.desired.filter (· ≠ id) }).stopReader id,
        [.discardSenders [id], .discardHistories [id]])
  | .retire task =>
      match hub.tasks[task]? with
      | none => (hub, [])
      | some reader =>
          if reader.phase = .idle then
            let retired := fun hub : ConsoleHub Line =>
              hub.modifyTask task fun reader => { reader with phase := .finished }
            if hub.readers.lookup reader.server = some task then
              let hub := { hub with readers := hub.readers.erase reader.server }
              if 0 < hub.receiverCount reader.channel && reader.server ∈ hub.desired then
                (retired (hub.startReaderLocked reader.server reader.channel), [])
              else
                (retired hub, [.discardUnheard reader.server reader.channel,
                  .discardHistories [reader.server]])
            else (retired hub, [])
          else (hub, [])
  | action => (hub.step action, [])

/-- What an effect does to the hub. -/
def effect [LineText Line] (hub : ConsoleHub Line) : Effect Line -> ConsoleHub Line
  | .attach id =>
      let opened := hub.openSender id
      (opened.2.listen opened.1).ensureReaderLocked id opened.1
  | .discardSenders ids =>
      { hub with senders := ids.foldl (fun senders id => senders.erase id) hub.senders }
  | .discardUnheard id channel =>
      { hub with
        senders :=
          if hub.senders.lookup id = some channel && hub.receiverCount channel = 0 then
            hub.senders.erase id
          else hub.senders }
  | .discardHistories ids => { hub with history := ids.foldl HistoryCache.remove hub.history }
  | .push id line => { hub with history := (hub.history.push id line).2 }
  | .send _ _ => hub

theorem forgetAll_eq [LineText Line] (ids : List Text) : forall hub : ConsoleHub Line,
    (hub.effect (.discardSenders ids)).effect (.discardHistories ids) = ids.foldl forget hub := by
  induction ids with
  | nil => exact fun hub => rfl
  | cons id rest induction =>
      intro hub
      rw [List.foldl_cons, <- induction]
      rfl

/-- An operation whose effects follow its beginning at once is a step of the hub. -/
theorem effects_begin [LineText Line] (hub : ConsoleHub Line) (action : HubAction Line) :
    (hub.begin action).2.foldl effect (hub.begin action).1 = hub.step action := by
  cases action with
  | synchronize serverIds =>
      simp only [begin, step, synchronizeServers]
      cases hub.inventoryInitialized with
      | true => rfl
      | false =>
          cases validateInventory serverIds with
          | error failure => rfl
          | ok inventory =>
              simp only [Bool.false_eq_true, if_false, <- forgetAll_eq]
              split
              · next none =>
                  rw [none]
                  rfl
              · rfl
  | subscribe id =>
      simp only [begin, step, subscribe]
      rcases hub.validateSubscription id with ⟨failure | _, validated⟩
      · rfl
      · dsimp only
        cases validated.validateReaderCapacity id <;> rfl
  | publish id line =>
      rw [begin.eq_def, step, publish.eq_def]
      dsimp only
      split
      · rfl
      · cases line <;> rfl
  | remove id => rfl
  | retire task =>
      simp only [begin, step, readerStep]
      cases hub.tasks[task]? with
      | none => rfl
      | some reader =>
          dsimp only
          split
          · simp only [retireIdleReader]
            split
            · split <;> rfl
            · rfl
          · rfl
  | track id => rfl
  | refresh id => rfl
  | snapshot id => rfl
  | disconnect channel => rfl
  | closed task => rfl
  | viewerWoken task => rfl
  | timer task => rfl
  | finish task => rfl
  | line task line => rfl

end ConsoleHub

/-- How far a reader is with a line.  In the third and fourth stage it holds the
lock of the histories, in the sixth and seventh that of the channels. -/
inductive Stage (Line : Type) where
  | resting
  | prepared (line : Option Line)
  | admitted (line : Line)
  | inHistory (line : Line)
  | pushing (line : Line)
  | pushed (entry : ConsoleEntry Line)
  | inSenders (entry : ConsoleEntry Line)
  | sending (entry : ConsoleEntry Line)
  | published
  | stale
  deriving DecidableEq

/-- The hub among its readers.  What is pushed and broadcast is kept for the
statements only. -/
structure Generations (Line : Type) where
  hub : ConsoleHub (Printed Line)
  pending : List (Effect (Printed Line)) := []
  historyHeld : Option Nat := none
  sendersHeld : Option Nat := none
  stages : Nat -> Stage (Printed Line) := fun _ => .resting
  pushes : List (Text × Printed Line) := []
  broadcasts : List (Nat × Printed Line) := []

/-- The operations on the hub and the steps of its readers. -/
inductive GenerationAction (Line : Type) where
  | hub (action : HubAction Line)
  /-- The operation that holds the lifecycle lock goes on. -/
  | proceed
  /-- A reader prepares a line. -/
  | prepare (task : Nat) (line : Option Line)
  /-- A reader goes on with its line. -/
  | advance (task : Nat)
  deriving DecidableEq

/-- An action whose line the agent prints itself. -/
def ofAgent : HubAction Line -> HubAction (Printed Line)
  | .track id => .track id
  | .refresh id => .refresh id
  | .synchronize serverIds => .synchronize serverIds
  | .subscribe id => .subscribe id
  | .snapshot id => .snapshot id
  | .publish id line => .publish id (line.map (Printed.mk none))
  | .remove id => .remove id
  | .disconnect channel => .disconnect channel
  | .closed task => .closed task
  | .viewerWoken task => .viewerWoken task
  | .timer task => .timer task
  | .retire task => .retire task
  | .finish task => .finish task
  | .line task line => .line task ⟨none, line⟩

/-- The stages in which a task that is told to end does so. -/
def Stage.awaits : Stage Line -> Bool
  | .resting | .admitted _ | .pushed _ | .stale => true
  | _ => false

def Stage.rests : Stage Line -> Bool
  | .resting => true
  | _ => false

namespace Generations

/-- An action of the hub can be taken now.  A reader looks after its viewers
only while it waits for output. -/
def admits (state : Generations Line) : HubAction Line -> Bool
  | .track _ | .refresh _ | .synchronize _ | .subscribe _ | .publish _ _ | .remove _ | .retire _ =>
      state.pending.isEmpty
  | .snapshot _ => state.historyHeld.isNone
  | .disconnect _ => true
  | .closed task | .viewerWoken task | .timer task => (state.stages task).rests
  | .finish task => (state.stages task).awaits
  | .line _ _ => false

/-- The lock that an effect needs is free. -/
def free (state : Generations Line) : Effect (Printed Line) -> Bool
  | .attach _ | .discardSenders _ | .discardUnheard _ _ | .send _ _ => state.sendersHeld.isNone
  | .discardHistories _ | .push _ _ => state.historyHeld.isNone

/-- A reader has not been told to end. -/
def isActive (state : Generations Line) (task : Nat) : Bool :=
  match state.hub.tasks[task]? with
  | none => false
  | some reader => reader.active

/-- A reader follows the log, so that it may print. -/
def follows (state : Generations Line) (task : Nat) : Bool :=
  match state.hub.tasks[task]? with
  | none => false
  | some reader => reader.phase = .watching || reader.phase = .counting

/-- The console that a reader prints to. -/
def serverOf (state : Generations Line) (task : Nat) : Text :=
  match state.hub.tasks[task]? with
  | none => []
  | some reader => reader.server

def enter (state : Generations Line) (task : Nat) (stage : Stage (Printed Line)) : Generations Line :=
  { state with stages := Function.update state.stages task stage }

/-- Append an entry to the console's history. -/
def pushEntry [LineText Line] (state : Generations Line) (id : Text) (line : Printed Line) :
    ConsoleEntry (Printed Line) × Generations Line :=
  ((state.hub.history.push id line).1,
    { state with
      hub := state.hub.effect (.push id line)
      pushes := state.pushes ++ [(id, line)] })

/-- Broadcast an entry on the console's channel, if it has one. -/
def broadcast (state : Generations Line) (id : Text) (entry : ConsoleEntry (Printed Line)) :
    Generations Line :=
  match state.hub.senders.lookup id with
  | none => state
  | some channel => { state with broadcasts := state.broadcasts ++ [(channel, entry.line)] }

/-- The next effect of the operation that holds the lifecycle lock. -/
def perform [LineText Line] (state : Generations Line) : Effect (Printed Line) -> Generations Line
  | .push id line =>
      let pushed := state.pushEntry id line
      { pushed.2 with pending := .send id pushed.1 :: state.pending }
  | .send id entry => state.broadcast id entry
  | effect => { state with hub := state.hub.effect effect }

/-- The next step of a reader with its line. -/
def advance [LineText Line] (state : Generations Line) (task : Nat) : Generations Line :=
  match state.stages task with
  | .resting => state
  | .prepared line =>
      if state.isActive task then
        match line with
        | none => state.enter task .published
        | some line => state.enter task (.admitted line)
      else state.enter task .stale
  | .admitted line =>
      if state.historyHeld.isNone then
        { state.enter task (.inHistory line) with historyHeld := some task }
      else state
  | .inHistory line =>
      if state.isActive task then state.enter task (.pushing line)
      else { state.enter task .published with historyHeld := none }
  | .pushing line =>
      let pushed := state.pushEntry (state.serverOf task) line
      { pushed.2.enter task (.pushed pushed.1) with historyHeld := none }
  | .pushed entry =>
      if state.sendersHeld.isNone then
        { state.enter task (.inSenders entry) with sendersHeld := some task }
      else state
  | .inSenders entry =>
      if state.isActive task then state.enter task (.sending entry)
      else { state.enter task .published with sendersHeld := none }
  | .sending entry =>
      { (state.broadcast (state.serverOf task) entry).enter task .published with sendersHeld := none }
  | .published => if state.isActive task then state.enter task .resting else state.enter task .stale
  | .stale => state

def step [LineText Line] (state : Generations Line) : GenerationAction Line -> Generations Line
  | .hub action =>
      if state.admits action then
        let begun := state.hub.begin (ofAgent action)
        { state with hub := begun.1, pending := state.pending ++ begun.2 }
      else state
  | .proceed =>
      match state.pending with
      | [] => state
      | effect :: rest =>
          if state.free effect then ({ state with pending := rest }).perform effect else state
  | .prepare task line =>
      if state.follows task && (state.stages task).rests then
        state.enter task (.prepared (line.map (Printed.mk (some task))))
      else state
  | .advance task => if state.hub.unfinished task then state.advance task else state

abbrev after [LineText Line] (state : Generations Line) (run : List (GenerationAction Line)) :
    Generations Line :=
  Machine.reach step state run

/-- A hub as it is made, without readers. -/
def start (docker : Bool) (maxActiveReaders maximumBytes : Nat) : Generations Line where
  hub := .start docker maxActiveReaders maximumBytes

end Generations

end Console
end Agapornis
