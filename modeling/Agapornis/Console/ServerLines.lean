import Agapornis.Console.BoundLines

namespace Agapornis
namespace Console
namespace Bindings

open Foundations Agapornis.Core

/-!
# Lines to a server

As long as the console of a server is not detached, and the server is not
started, all commands to it use one cell.  Then they come one after the other
also where they are written to different attachments.
-/

/-- A turn that begins nothing but commands to a server. -/
def Turn.Commands (server : Text) : Turn -> Prop
  | .begin _ _ (.command _) => True
  | .begin _ other .detach | .begin _ other .start => Not (other = server)
  | _ => True

/-- What the attachments to a server took, by the tasks that wrote it. -/
def ConsoleState.toServer (state : ConsoleState) (server : Text) : List (Nat × Bytes) :=
  (state.taken.filter fun entry => state.attached entry.attachment = some server).map fun entry =>
    (entry.task, entry.bytes)

/-- The commands to a server use one cell, and their bytes come in turns. -/
structure OneCell (server : Text) (state : ConsoleState) : Prop where
  commands : forall task known, state.tasks task = some known -> known.server = server ->
    Exists fun line => known.work = .command line
  bound : forall task known cell, state.tasks task = some known -> known.server = server ->
    known.phase.cell = some cell -> state.bindings server = some cell
  turns : (Turns.writers (state.toServer server)).Nodup
  follows : forall task known cell, state.tasks task = some known -> known.server = server ->
    known.phase.held = some cell -> Turns.MayFollow (Turns.writers (state.toServer server)) task

section Changes

variable {server : Text} {state : ConsoleState} {task other cell attachment : Nat} {known : ConsoleTask} {phase : Phase}

theorem OneCell.moveTo (one : OneCell server state) (here : state.tasks task = some known)
    (bound : forall cell, phase.cell = some cell -> known.server = server -> state.bindings server = some cell)
    (follows : forall cell, phase.held = some cell -> known.server = server ->
      Turns.MayFollow (Turns.writers (state.toServer server)) task) :
    OneCell server (state.moveTo task known phase) where
  commands other found present same := by
    rcases ConsoleState.moveTo_some present with ⟨rfl, rfl⟩ | ⟨_, earlier⟩
    · exact one.commands other known here same
    · exact one.commands other found earlier same
  bound other found cell present same reached := by
    rcases ConsoleState.moveTo_some present with ⟨rfl, rfl⟩ | ⟨_, earlier⟩
    · exact bound cell reached same
    · exact one.bound other found cell earlier same reached
  turns := one.turns
  follows other found cell present same held := by
    rcases ConsoleState.moveTo_some present with ⟨rfl, rfl⟩ | ⟨_, earlier⟩
    · exact follows cell held same
    · exact one.follows other found cell earlier same held

/-- A move to a place without a cell. -/
theorem OneCell.moveAway (one : OneCell server state) (here : state.tasks task = some known)
    (away : phase.cell = none) : OneCell server (state.moveTo task known phase) := by
  refine one.moveTo here ?_ ?_
  · intro cell reached
    cases away.symm.trans reached
  · intro cell held
    cases away.symm.trans (cell_of_held held)

/-- A move of a task that keeps what it has locked. -/
theorem OneCell.moveLocked (one : OneCell server state) (here : state.tasks task = some known)
    (held : known.phase.held = some cell) (same : phase.cell = some cell) :
    OneCell server (state.moveTo task known phase) := by
  refine one.moveTo here ?_ ?_
  · intro other reached owned
    cases same.symm.trans reached
    exact one.bound task known cell here owned (cell_of_held held)
  · intro other _ owned
    exact one.follows task known cell here owned held

theorem OneCell.begin (one : OneCell server state) (owner : Text) (work : Work)
    (commands : owner = server -> Exists fun line => work = .command line) :
    OneCell server (begin state task owner work) where
  commands other found present same := by
    rcases ConsoleState.update_some present with ⟨rfl, rfl⟩ | ⟨_, earlier⟩
    · exact commands same
    · exact one.commands other found earlier same
  bound other found cell present same reached := by
    rcases ConsoleState.update_some present with ⟨rfl, rfl⟩ | ⟨_, earlier⟩
    · cases reached
    · exact one.bound other found cell earlier same reached
  turns := one.turns
  follows other found cell present same held := by
    rcases ConsoleState.update_some present with ⟨rfl, rfl⟩ | ⟨_, earlier⟩
    · cases held
    · exact one.follows other found cell earlier same held

theorem OneCell.setCell (one : OneCell server state) (value : ConsoleCell) :
    OneCell server (state.setCell cell value) :=
  ⟨one.commands, one.bound, one.turns, one.follows⟩

/-- The binding of another server is changed, or there was none. -/
theorem OneCell.setBinding (one : OneCell server state) (owner : Text) (binding : Option Nat)
    (free : owner = server -> state.bindings server = none) : OneCell server (state.setBinding owner binding) where
  commands := one.commands
  bound other found cell present same reached := by
    have before := one.bound other found cell present same reached
    have apart : Not (server = owner) := by
      rintro rfl
      rw [free rfl] at before
      cases before
    exact (Function.update_of_ne apart _ _).trans before
  turns := one.turns
  follows := one.follows

theorem toServer_attach (lined : state.Lined) (owner : Text) (fresh : Not ((state.attached attachment).isSome = true)) :
    (state.attach attachment owner).toServer server = state.toServer server := by
  have unwritten := fresh_unwritten lined fresh
  refine congrArg (List.map fun entry : Taken => (entry.task, entry.bytes)) (List.filter_congr ?_)
  intro entry member
  have same : (state.attach attachment owner).attached entry.attachment = state.attached entry.attachment :=
    Function.update_of_ne (unwritten entry member) _ _
  rw [same]

theorem OneCell.attach (one : OneCell server state) (lined : state.Lined) (owner : Text)
    (fresh : Not ((state.attached attachment).isSome = true)) : OneCell server (state.attach attachment owner) where
  commands := one.commands
  bound := one.bound
  turns := by
    rw [toServer_attach lined owner fresh]
    exact one.turns
  follows := by
    rw [toServer_attach lined owner fresh]
    exact one.follows

theorem OneCell.unlock (one : OneCell server state) (held : Option Nat) : OneCell server (state.unlock held) := by
  rw [ConsoleState.unlock.eq_def]
  split
  · exact one
  · split
    · exact one
    · exact one.setCell _

theorem OneCell.finish (one : OneCell server state) (here : state.tasks task = some known)
    (away : phase.cell = none) : OneCell server (state.finish task known phase) :=
  (one.moveAway here away).unlock known.phase.held

/-- The binding of a server is not touched by what is not a command to it. -/
theorem OneCell.foreign (one : OneCell server state) (here : state.tasks task = some known)
    (notCommand : forall line, Not (known.work = .command line)) : Not (known.server = server) := by
  intro same
  rcases one.commands task known here same with ⟨line, work⟩
  exact notCommand line work

theorem oneCell_find (one : OneCell server state) {owner : Text} {work : Work}
    (here : state.tasks task = some ⟨owner, work, .finding⟩) :
    OneCell server (find state task ⟨owner, work, .finding⟩) := by
  have locking {found : Nat} (bound : state.bindings owner = some found) :
      OneCell server (state.moveTo task ⟨owner, work, .finding⟩ (.locking found)) := by
    refine one.moveTo here ?_ (fun _ impossible => by cases impossible)
    rintro cell reached rfl
    cases reached
    exact bound
  have taken {found : Nat} (notCommand : forall line, Not (work = .command line)) :
      OneCell server ((state.setBinding owner none).moveTo task ⟨owner, work, .finding⟩ (.locking found)) := by
    have apart := one.foreign here notCommand
    refine (one.setBinding owner none (fun same => absurd same apart)).moveTo here ?_ ?_
    · intro cell _ same
      exact absurd same apart
    · intro cell impossible
      cases impossible
  rw [find.eq_def]
  dsimp only
  cases bound : state.bindings owner with
  | some found =>
      cases work with
      | command line => exact locking bound
      | detach => exact taken (fun _ impossible => by cases impossible)
      | start => exact taken (fun _ impossible => by cases impossible)
  | none => cases work <;> exact one.moveAway here rfl

theorem oneCell_insert (one : OneCell server state) {owner : Text} {work : Work}
    (here : state.tasks task = some ⟨owner, work, .inserting attachment⟩) :
    OneCell server (insert state task ⟨owner, work, .inserting attachment⟩ attachment cell) := by
  have celled := @OneCell.setCell server state cell one ⟨attachment, none⟩
  have replaced (notCommand : forall line, Not (work = .command line)) :
      OneCell server (((state.setCell cell ⟨attachment, none⟩).setBinding owner (some cell)).moveTo task
        ⟨owner, work, .inserting attachment⟩ (.ended true)) := by
    have apart := one.foreign here notCommand
    exact (celled.setBinding owner (some cell) (fun same => absurd same apart)).moveAway here rfl
  rw [insert.eq_def]
  dsimp only
  cases work with
  | command line =>
      cases existing : state.bindings owner with
      | some found =>
          refine one.moveTo here ?_ (fun _ impossible => by cases impossible)
          rintro other reached rfl
          cases reached
          exact existing
      | none =>
          have bound : OneCell server ((state.setCell cell ⟨attachment, none⟩).setBinding owner (some cell)) := by
            refine celled.setBinding owner (some cell) ?_
            rintro rfl
            exact existing
          refine bound.moveTo here ?_ (fun _ impossible => by cases impossible)
          rintro other reached rfl
          cases reached
          exact Function.update_self owner _ _
  | detach => exact replaced (fun _ impossible => by cases impossible)
  | start => exact replaced (fun _ impossible => by cases impossible)

/-- A task that has not written is not among the writers to its server. -/
theorem not_writer_toServer (unwritten : forall entry, entry ∈ state.taken -> Not (entry.task = task)) :
    Not (task ∈ Turns.writers (state.toServer server)) := by
  intro member
  rcases Turns.mem_writers.mp member with ⟨bytes, logged⟩
  rcases List.mem_map.mp logged with ⟨entry, kept, same⟩
  exact unwritten entry (List.mem_filter.mp kept).1 (congrArg Prod.fst same)

theorem oneCell_lock (one : OneCell server state) (lined : state.Lined) {owner : Text} {work : Work}
    {value : ConsoleCell}
    (here : state.tasks task = some ⟨owner, work, .locking cell⟩) :
    OneCell server (lock state task ⟨owner, work, .locking cell⟩ cell value) := by
  rw [lock.eq_def]
  dsimp only
  cases work with
  | command line =>
      refine (one.setCell _).moveTo here ?_ ?_
      · rintro other reached rfl
        cases reached
        exact one.bound task _ cell here rfl rfl
      · intro other _ _
        exact Or.inr (not_writer_toServer (lined.early task _ here trivial))
  | detach => exact one.moveAway here rfl
  | start => exact one.moveAway here rfl

/-! ## Bytes that are taken -/

variable {owner : Text} {line : Bytes} {again : Bool} {written : Nat} {value : ConsoleCell}

theorem toServer_take_own (attached : state.attached attachment = some server) (bytes : Bytes) :
    (state.take attachment task bytes).toServer server = state.toServer server ++ [(task, bytes)] := by
  have here :
      [(⟨attachment, task, bytes⟩ : Taken)].filter (fun entry => state.attached entry.attachment = some server) =
      [⟨attachment, task, bytes⟩] := List.filter_cons_of_pos (decide_eq_true attached)
  rw [ConsoleState.toServer, ConsoleState.take, List.filter_append, here, List.map_append]
  rfl

theorem toServer_take_other (apart : Not (state.attached attachment = some server)) (bytes : Bytes) :
    (state.take attachment task bytes).toServer server = state.toServer server := by
  have elsewhere : [(⟨attachment, task, bytes⟩ : Taken)].filter
      (fun entry => state.attached entry.attachment = some server) = [] :=
    List.filter_cons_of_neg (by rw [decide_eq_true_eq]; exact apart)
  rw [ConsoleState.toServer, ConsoleState.take, List.filter_append, elsewhere, List.append_nil]
  rfl

theorem oneCell_take (one : OneCell server state) (kept : state.Kept)
    (writes : Writes state task owner line cell again written value) (bytes : Bytes) :
    OneCell server (state.take value.attachment task bytes) := by
  rcases kept.reached task _ cell writes.present rfl with ⟨found, located, attached⟩
  cases writes.located.symm.trans located
  by_cases own : owner = server
  · subst own
    have log : (state.take value.attachment task bytes).toServer owner = _ := toServer_take_own attached bytes
    have may := one.follows task _ cell writes.present rfl rfl
    refine ⟨one.commands, one.bound, ?_, ?_⟩
    · rw [log, Turns.writers_append]
      exact Turns.nodup_follow one.turns may
    · intro other second place present same held
      have boundHere := one.bound task _ cell writes.present rfl rfl
      have boundThere := one.bound other second place present same (cell_of_held held)
      cases boundHere.symm.trans boundThere
      rw [log, Turns.writers_append, writes.alone kept present held]
      exact Or.inl (Turns.getLast?_follow _ _)
  · have log : (state.take value.attachment task bytes).toServer server = state.toServer server := by
      refine toServer_take_other ?_ bytes
      rw [attached]
      exact fun same => own (Option.some.inj same)
    refine ⟨one.commands, one.bound, ?_, ?_⟩
    · rw [log]
      exact one.turns
    · rw [log]
      exact one.follows

end Changes

/-! ## Runs -/

section Runs

variable {server : Text} {state : ConsoleState}

theorem oneCell_concludeWrite (one : OneCell server state) {task cell written : Nat} {owner : Text} {line : Bytes}
    {again ok : Bool} (here : state.tasks task = some ⟨owner, .command line, .writing cell again written⟩) :
    OneCell server
      (concludeWrite state task ⟨owner, .command line, .writing cell again written⟩ line cell again written ok) := by
  rw [concludeWrite]
  cases ok with
  | true =>
      rw [if_pos rfl]
      split
      · exact one.finish here rfl
      · exact one
  | false =>
      rw [if_neg Bool.false_ne_true]
      split
      · exact one.finish here rfl
      · exact one.moveLocked here rfl rfl

/-- A turn that begins nothing but commands to a server keeps them to one cell. -/
theorem oneCell_takeTurn (sound : Sound state) (one : OneCell server state) {turn : Turn}
    (commands : turn.Commands server) : OneCell server (takeTurn state turn) := by
  cases turn with
  | begin task owner work =>
      rw [takeTurn.eq_def]
      dsimp only
      split
      · exact one
      · refine one.begin owner work ?_
        rintro rfl
        cases work with
        | command line => exact ⟨line, rfl⟩
        | detach => exact absurd rfl commands
        | start => exact absurd rfl commands
  | find task =>
      rw [takeTurn.eq_def]
      dsimp only
      split
      · next here => exact oneCell_find one here
      · exact one
  | started task ok =>
      rw [takeTurn.eq_def]
      dsimp only
      split
      · next here => cases ok <;> exact one.moveAway here rfl
      · exact one
  | attach task made =>
      rw [takeTurn.eq_def]
      dsimp only
      split
      · next here => exact one.moveAway here rfl
      · next here =>
          split
          · exact one
          · next fresh => exact (one.attach sound.lined _ fresh).moveAway here rfl
      · exact one
  | insert task cell =>
      rw [takeTurn.eq_def]
      dsimp only
      split
      · next here =>
          split
          · exact one
          · exact oneCell_insert one here
      · exact one
  | lock task =>
      rw [takeTurn.eq_def]
      dsimp only
      split
      · next here =>
          split
          · exact oneCell_lock one sound.lined here
          · exact one
      · exact one
  | check task finished =>
      rw [takeTurn.eq_def]
      dsimp only
      split
      · next here => cases finished <;> exact one.moveLocked here rfl rfl
      · exact one
  | reattach task made =>
      rw [takeTurn.eq_def]
      dsimp only
      split
      · next here => exact one.finish here rfl
      · next here =>
          split
          · exact one
          · next fresh => exact ((one.attach sound.lined _ fresh).setCell _).moveLocked here rfl rfl
      · exact one
  | take task count =>
      rw [takeTurn.eq_def]
      dsimp only
      split
      · next here =>
          split
          · next located =>
              split
              · exact (oneCell_take one sound.kept ⟨here, located⟩ _).moveLocked here rfl rfl
              · exact one
          · exact one
      · exact one
  | written task ok =>
      rw [takeTurn.eq_def]
      dsimp only
      split
      · next here => exact oneCell_concludeWrite one here
      · exact one
  | giveUp task =>
      rw [takeTurn.eq_def]
      dsimp only
      split
      · exact one
      · exact one
      · next here => exact one.finish here rfl
      · exact one

theorem oneCell_noBindings (server : Text) : OneCell server noBindings where
  commands _ _ impossible := by cases impossible
  bound _ _ _ impossible := by cases impossible
  turns := List.nodup_nil
  follows _ _ _ impossible := by cases impossible

theorem oneCell_after {run : List Turn} (commands : forall turn, turn ∈ run -> turn.Commands server) :
    OneCell server (after run) := by
  suffices both : Sound (after run) /\ OneCell server (after run) from both.2
  induction run using List.reverseRecOn with
  | nil => exact ⟨sound_noBindings, oneCell_noBindings server⟩
  | append_singleton run turn induction =>
      rcases induction (fun other member => commands other (List.mem_append_left _ member)) with ⟨sound, one⟩
      have last : after (run ++ [turn]) = takeTurn (after run) turn :=
        Machine.reach_append takeTurn noBindings run [turn]
      rw [last]
      exact ⟨sound_takeTurn sound turn,
        oneCell_takeTurn sound one (commands turn (List.mem_append_right _ List.mem_cons_self))⟩

end Runs

/-- The lines on an attachment: each comes at once, as far as it comes, and the part of a line is
followed by another one only where its call has failed or was given up. -/
structure LinesOn (state : ConsoleState) (attachment : Nat) : Prop where
  inTurns : (Turns.writers (state.onAttachment attachment)).Nodup
  portions : Turns.written (state.onAttachment attachment) =
    (Turns.writers (state.onAttachment attachment)).flatMap (Turns.portion (state.onAttachment attachment))
  lines : forall task, task ∈ Turns.writers (state.onAttachment attachment) ->
    Exists fun known => Exists fun line => state.tasks task = some known /\ known.work = .command line /\
      state.attached attachment = some known.server /\
      Turns.portion (state.onAttachment attachment) task <+: line /\
      (task ∈ (Turns.writers (state.onAttachment attachment)).dropLast ->
        Turns.portion (state.onAttachment attachment) task = line \/ known.phase.Bad)

/-- The lines of commands after some turns: on each attachment, of each command that ends well, and
over all attachments to a server. -/
structure LinesKept (run : List Turn) : Prop where
  onAttachment : forall attachment, LinesOn (after run) attachment
  whole : forall task known line, (after run).tasks task = some known -> known.work = .command line ->
    known.phase = .ended true -> Exists fun attachment => (after run).attached attachment = some known.server /\
      Turns.portion ((after run).onAttachment attachment) task = line
  inTurns : forall server, (forall turn, turn ∈ run -> turn.Commands server) ->
    (Turns.writers ((after run).toServer server)).Nodup
  portions : forall server, (forall turn, turn ∈ run -> turn.Commands server) ->
    Turns.written ((after run).toServer server) =
      (Turns.writers ((after run).toServer server)).flatMap (Turns.portion ((after run).toServer server))

/-- Commands do not disturb each other: in every run, the lines on an attachment come one after the
other; a command that ends well has its whole line on one attachment to its server; and as long as
nothing but commands is begun for a server its lines come one after the other over all attachments. -/
theorem console_lines (run : List Turn) : LinesKept run where
  onAttachment attachment := by
    have lined := (sound_after run).lined
    refine ⟨lined.turns attachment, Turns.written_eq_portions (lined.turns attachment), ?_⟩
    intro task member
    rcases Turns.mem_writers.mp member with ⟨bytes, logged⟩
    rcases List.mem_map.mp logged with ⟨entry, kept, same⟩
    rcases List.mem_filter.mp kept with ⟨taken, here⟩
    rcases lined.logged entry taken with ⟨known, line, present, work, attached⟩
    cases same
    rw [of_decide_eq_true here] at attached
    exact ⟨known, line, present, work, attached, lined.begun attachment entry.task known line present work,
      lined.passed attachment entry.task known line present work⟩
  whole := (sound_after run).lined.done
  inTurns _ commands := (oneCell_after commands).turns
  portions _ commands := Turns.written_eq_portions (oneCell_after commands).turns

/-- A line that is given up in its middle runs into the next one. -/
example :
    Turns.written ((after [.begin 0 ['s'] (.command [97, 10]), .find 0, .attach 0 (some 7), .insert 0 3, .lock 0,
      .check 0 false, .take 0 1, .giveUp 0, .begin 1 ['s'] (.command [98, 10]), .find 1, .lock 1, .check 1 false,
      .take 1 2, .written 1 true]).onAttachment 7) = [97, 98, 10] := by
  decide

end Bindings
end Console
end Agapornis
