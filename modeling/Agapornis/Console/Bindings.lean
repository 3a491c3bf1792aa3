import Mathlib.Logic.Function.Basic
import Agapornis.Console.Commands
import Agapornis.Foundations.Machine
import Agapornis.Foundations.Turns

namespace Agapornis
namespace Console
namespace Bindings

open Foundations Agapornis.Core

/-!
# The console bindings of the agent

The attachment that commands of a server are written to is kept in a cell,
which one task may hold at a time, and the cells are kept by the ids of the
servers.  Tasks that send a command, detach the console or start a server take
turns in any order; between two of its turns a task awaits Docker, a cell or the
connection, and it may be given up there.
-/

/-- What a task is for. -/
inductive Work where
  | command (line : Bytes)
  | detach
  | start
  deriving DecidableEq

/-- Where a task is. -/
inductive Phase where
  /-- Before it looks for the binding of its server, or takes it away. -/
  | finding
  | starting
  | attaching
  | inserting (attachment : Nat)
  | locking (cell : Nat)
  /-- With the cell locked, before it looks whether the attachment is finished. -/
  | checking (cell : Nat)
  /-- With the cell locked, before the attachment is made anew, possibly after a failed write. -/
  | reattaching (cell : Nat) (again : Bool)
  | writing (cell : Nat) (again : Bool) (written : Nat)
  | ended (ok : Bool)
  | givenUp
  deriving DecidableEq

/-- The cell that a task has locked. -/
def Phase.held : Phase -> Option Nat
  | .checking cell | .reattaching cell _ | .writing cell _ _ => some cell
  | .finding | .starting | .attaching | .inserting _ | .locking _ | .ended _ | .givenUp => none

structure ConsoleTask where
  server : Text
  work : Work
  phase : Phase

/-- A cell for a binding: the attachment in it, and the task that has locked it. -/
structure ConsoleCell where
  attachment : Nat
  holder : Option Nat

/-- Bytes that an attachment took. -/
structure Taken where
  attachment : Nat
  task : Nat
  bytes : Bytes

structure ConsoleState where
  bindings : Text -> Option Nat
  cells : Nat -> Option ConsoleCell
  /-- The servers of the attachments that were made. -/
  attached : Nat -> Option Text
  tasks : Nat -> Option ConsoleTask
  taken : List Taken

def noBindings : ConsoleState :=
  ⟨fun _ => none, fun _ => none, fun _ => none, fun _ => none, []⟩

namespace ConsoleState

variable (state : ConsoleState)

def moveTo (task : Nat) (known : ConsoleTask) (phase : Phase) : ConsoleState :=
  { state with tasks := Function.update state.tasks task (some { known with phase := phase }) }

def setCell (cell : Nat) (value : ConsoleCell) : ConsoleState :=
  { state with cells := Function.update state.cells cell (some value) }

def setBinding (server : Text) (cell : Option Nat) : ConsoleState :=
  { state with bindings := Function.update state.bindings server cell }

/-- An attachment is made. -/
def attach (attachment : Nat) (server : Text) : ConsoleState :=
  { state with attached := Function.update state.attached attachment (some server) }

/-- Unlock the cell that a task has locked, if it has one. -/
def unlock (held : Option Nat) : ConsoleState :=
  match held with
  | none => state
  | some cell =>
      match state.cells cell with
      | none => state
      | some value => state.setCell cell { value with holder := none }

/-- A task ends. -/
def finish (task : Nat) (known : ConsoleTask) (phase : Phase) : ConsoleState :=
  (state.moveTo task known phase).unlock known.phase.held

def take (attachment task : Nat) (bytes : Bytes) : ConsoleState :=
  { state with taken := state.taken ++ [⟨attachment, task, bytes⟩] }

/-- An entry of an updated map is the new one or an earlier one. -/
theorem update_some {Key Value : Type} [DecidableEq Key] {map : Key -> Option Value} {key other : Key}
    {value found : Value} (here : Function.update map key (some value) other = some found) :
    (other = key /\ found = value) \/ (Not (other = key) /\ map other = some found) := by
  by_cases same : other = key
  · subst same
    rw [Function.update_self] at here
    exact Or.inl ⟨rfl, (Option.some.inj here).symm⟩
  · rw [Function.update_of_ne same] at here
    exact Or.inr ⟨same, here⟩

variable {state} {task other cell : Nat} {known found : ConsoleTask} {phase : Phase}

theorem moveTo_moveTo (first : Phase) :
    (state.moveTo task known first).moveTo task { known with phase := first } phase =
    state.moveTo task known phase := by
  rw [moveTo, moveTo, moveTo, Function.update_idem]

@[simp] theorem moveTo_same : (state.moveTo task known phase).tasks task = some { known with phase := phase } :=
  Function.update_self task _ _

@[simp] theorem moveTo_other (differs : Not (other = task)) :
    (state.moveTo task known phase).tasks other = state.tasks other :=
  Function.update_of_ne differs _ _

theorem moveTo_some (here : (state.moveTo task known phase).tasks other = some found) :
    (other = task /\ found = { known with phase := phase }) \/ (Not (other = task) /\ state.tasks other = some found) :=
  update_some here

@[simp] theorem setCell_same {value : ConsoleCell} : (state.setCell cell value).cells cell = some value :=
  Function.update_self cell _ _

@[simp] theorem setCell_other {value : ConsoleCell} (differs : Not (other = cell)) :
    (state.setCell cell value).cells other = state.cells other :=
  Function.update_of_ne differs _ _

theorem setCell_some {value held : ConsoleCell} (here : (state.setCell cell value).cells other = some held) :
    (other = cell /\ held = value) \/ (Not (other = cell) /\ state.cells other = some held) :=
  update_some here

end ConsoleState

/-! ## The turns of the tasks -/

inductive Turn where
  | begin (task : Nat) (server : Text) (work : Work)
  | find (task : Nat)
  | started (task : Nat) (ok : Bool)
  | attach (task : Nat) (made : Option Nat)
  | insert (task cell : Nat)
  | lock (task : Nat)
  | check (task : Nat) (finished : Bool)
  | reattach (task : Nat) (made : Option Nat)
  /-- The attachment takes some more bytes of the line. -/
  | take (task count : Nat)
  /-- The line was written and flushed, or this failed or took too long. -/
  | written (task : Nat) (ok : Bool)
  | giveUp (task : Nat)
  deriving DecidableEq

/-- Look up the binding for a command, or take it away before the console is detached. -/
def find (state : ConsoleState) (task : Nat) (known : ConsoleTask) : ConsoleState :=
  match known.work, state.bindings known.server with
  | .command _, some cell => state.moveTo task known (.locking cell)
  | .command _, none => state.moveTo task known .attaching
  | .detach, some cell | .start, some cell =>
      (state.setBinding known.server none).moveTo task known (.locking cell)
  | .detach, none => state.moveTo task known (.ended true)
  | .start, none => state.moveTo task known .starting

/-- Keep the binding that was made; a command prefers one that is there by now. -/
def insert (state : ConsoleState) (task : Nat) (known : ConsoleTask) (attachment cell : Nat) : ConsoleState :=
  match known.work, state.bindings known.server with
  | .command _, some existing => state.moveTo task known (.locking existing)
  | .command _, none =>
      ((state.setCell cell ⟨attachment, none⟩).setBinding known.server (some cell)).moveTo task known (.locking cell)
  | .detach, _ | .start, _ =>
      ((state.setCell cell ⟨attachment, none⟩).setBinding known.server (some cell)).moveTo task known (.ended true)

/-- What follows once a cell is free: a command locks it, and the reader of a detached attachment
is aborted. -/
def lock (state : ConsoleState) (task : Nat) (known : ConsoleTask) (cell : Nat) (value : ConsoleCell) : ConsoleState :=
  match known.work with
  | .command _ => (state.setCell cell { value with holder := some task }).moveTo task known (.checking cell)
  | .detach => state.moveTo task known (.ended true)
  | .start => state.moveTo task known .starting

/-- The end of a write, or of a first write that failed. -/
def concludeWrite (state : ConsoleState) (task : Nat) (known : ConsoleTask) (line : Bytes) (cell : Nat) (again : Bool)
    (written : Nat) (ok : Bool) : ConsoleState :=
  if ok then if written = line.length then state.finish task known (.ended true) else state
  else if again then state.finish task known (.ended false)
  else state.moveTo task known (.reattaching cell true)

/-- One turn of a task.  A turn that a task cannot take changes nothing. -/
def takeTurn (state : ConsoleState) (turn : Turn) : ConsoleState :=
  match turn with
  | .begin task server work =>
      match state.tasks task with
      | some _ => state
      | none => { state with tasks := Function.update state.tasks task (some ⟨server, work, .finding⟩) }
  | .find task =>
      match state.tasks task with
      | some ⟨server, work, .finding⟩ => find state task ⟨server, work, .finding⟩
      | _ => state
  | .started task ok =>
      match state.tasks task with
      | some ⟨server, work, .starting⟩ =>
          state.moveTo task ⟨server, work, .starting⟩ (if ok then .attaching else .ended false)
      | _ => state
  | .attach task made =>
      match state.tasks task, made with
      | some ⟨server, work, .attaching⟩, none => state.moveTo task ⟨server, work, .attaching⟩ (.ended false)
      | some ⟨server, work, .attaching⟩, some attachment =>
          if (state.attached attachment).isSome then state
          else (state.attach attachment server).moveTo task ⟨server, work, .attaching⟩ (.inserting attachment)
      | _, _ => state
  | .insert task cell =>
      match state.tasks task with
      | some ⟨server, work, .inserting attachment⟩ =>
          if (state.cells cell).isSome then state
          else insert state task ⟨server, work, .inserting attachment⟩ attachment cell
      | _ => state
  | .lock task =>
      match state.tasks task with
      | some ⟨server, work, .locking cell⟩ =>
          match state.cells cell with
          | some ⟨attachment, none⟩ => lock state task ⟨server, work, .locking cell⟩ cell ⟨attachment, none⟩
          | _ => state
      | _ => state
  | .check task finished =>
      match state.tasks task with
      | some ⟨server, work, .checking cell⟩ =>
          state.moveTo task ⟨server, work, .checking cell⟩
            (if finished then .reattaching cell false else .writing cell false 0)
      | _ => state
  | .reattach task made =>
      match state.tasks task, made with
      | some ⟨server, work, .reattaching cell again⟩, none =>
          state.finish task ⟨server, work, .reattaching cell again⟩ (.ended false)
      | some ⟨server, work, .reattaching cell again⟩, some attachment =>
          if (state.attached attachment).isSome then state
          else
            ((state.attach attachment server).setCell cell ⟨attachment, some task⟩).moveTo task
              ⟨server, work, .reattaching cell again⟩ (.writing cell again 0)
      | _, _ => state
  | .take task count =>
      match state.tasks task with
      | some ⟨server, .command line, .writing cell again written⟩ =>
          match state.cells cell with
          | some value =>
              if 0 < count && written + count <= line.length then
                (state.take value.attachment task ((line.drop written).take count)).moveTo task
                  ⟨server, .command line, .writing cell again written⟩ (.writing cell again (written + count))
              else state
          | none => state
      | _ => state
  | .written task ok =>
      match state.tasks task with
      | some ⟨server, .command line, .writing cell again written⟩ =>
          concludeWrite state task ⟨server, .command line, .writing cell again written⟩ line cell again written ok
      | _ => state
  | .giveUp task =>
      match state.tasks task with
      | some ⟨_, _, .ended _⟩ | some ⟨_, _, .givenUp⟩ => state
      | some known => state.finish task known .givenUp
      | none => state

/-- What a run of turns comes to. -/
def after (run : List Turn) : ConsoleState :=
  Machine.reach takeTurn noBindings run

end Bindings
end Console
end Agapornis
