import Agapornis.Console.Bindings

namespace Agapornis
namespace Console
namespace Bindings

open Foundations Agapornis.Core

/-!
# Lines on attachments

Only the task that has locked a cell writes to the attachment in it, and an
attachment is in one cell.  So the lines on an attachment come one after the
other, and the part of a line is followed by another line only where its call
has failed or was given up.
-/

/-- The cell that a task waits for or has locked. -/
def Phase.cell : Phase -> Option Nat
  | .locking cell => some cell
  | phase => phase.held

/-- A task that has not written yet. -/
def Phase.Early : Phase -> Prop
  | .reattaching _ again => again = false
  | .writing _ _ _ | .ended _ | .givenUp => False
  | .finding | .starting | .attaching | .inserting _ | .locking _ | .checking _ => True

/-- A place without a cell and without an attachment. -/
def Phase.Loose : Phase -> Prop
  | .finding | .starting | .attaching | .ended _ | .givenUp => True
  | .inserting _ | .locking _ | .checking _ | .reattaching _ _ | .writing _ _ _ => False

/-- A task that is over without success. -/
def Phase.Bad : Phase -> Prop
  | .ended ok => ok = false
  | .givenUp => True
  | _ => False

namespace ConsoleState

/-- What an attachment took, by the tasks that wrote it. -/
def onAttachment (state : ConsoleState) (attachment : Nat) : List (Nat × Bytes) :=
  (state.taken.filter fun entry => entry.attachment = attachment).map fun entry => (entry.task, entry.bytes)

/-- A cell has an attachment to a server. -/
def Fits (state : ConsoleState) (server : Text) (cell : Nat) : Prop :=
  Exists fun value => state.cells cell = some value /\ state.attached value.attachment = some server

/-- The tasks, the cells and the attachments agree. -/
structure Kept (state : ConsoleState) : Prop where
  holders : forall task known cell, state.tasks task = some known -> known.phase.held = some cell ->
    Exists fun value => state.cells cell = some value /\ value.holder = some task
  reached : forall task known cell, state.tasks task = some known -> known.phase.cell = some cell ->
    state.Fits known.server cell
  bound : forall server cell, state.bindings server = some cell -> state.Fits server cell
  made : forall cell value, state.cells cell = some value -> (state.attached value.attachment).isSome
  apart : forall first second one other, state.cells first = some one -> state.cells second = some other ->
    one.attachment = other.attachment -> first = second
  candidate : forall task known attachment, state.tasks task = some known -> known.phase = .inserting attachment ->
    state.attached attachment = some known.server /\
      (forall cell value, state.cells cell = some value -> Not (value.attachment = attachment)) /\
      (forall entry, entry ∈ state.taken -> Not (entry.attachment = attachment)) /\
      forall other second, state.tasks other = some second -> second.phase = .inserting attachment -> other = task

/-- What the attachments took agrees with the tasks. -/
structure Lined (state : ConsoleState) : Prop where
  logged : forall entry, entry ∈ state.taken -> Exists fun known => Exists fun line =>
    state.tasks entry.task = some known /\ known.work = .command line /\
      state.attached entry.attachment = some known.server
  early : forall task known, state.tasks task = some known -> known.phase.Early ->
    forall entry, entry ∈ state.taken -> Not (entry.task = task)
  writing : forall task server line cell again written value,
    state.tasks task = some ⟨server, .command line, .writing cell again written⟩ -> state.cells cell = some value ->
      written <= line.length /\
        Turns.portion (state.onAttachment value.attachment) task = line.take written /\
        Turns.MayFollow (Turns.writers (state.onAttachment value.attachment)) task
  begun : forall attachment task known line, state.tasks task = some known -> known.work = .command line ->
    Turns.portion (state.onAttachment attachment) task <+: line
  turns : forall attachment, (Turns.writers (state.onAttachment attachment)).Nodup
  passed : forall attachment task known line, state.tasks task = some known -> known.work = .command line ->
    task ∈ (Turns.writers (state.onAttachment attachment)).dropLast ->
      Turns.portion (state.onAttachment attachment) task = line \/ known.phase.Bad
  clean : forall cell value task known line, state.cells cell = some value -> state.tasks task = some known ->
    known.work = .command line -> task ∈ Turns.writers (state.onAttachment value.attachment) ->
      Turns.portion (state.onAttachment value.attachment) task = line \/ known.phase.Bad \/
        known.phase.held = some cell
  done : forall task known line, state.tasks task = some known -> known.work = .command line ->
    known.phase = .ended true -> Exists fun attachment => state.attached attachment = some known.server /\
      Turns.portion (state.onAttachment attachment) task = line

end ConsoleState

section Changes

variable {state : ConsoleState} {task other cell attachment : Nat} {known found : ConsoleTask} {phase : Phase}

/-! ## Moves -/

/-- A task may move to a place: it is known there what it has written. -/
structure Allowed (state : ConsoleState) (task : Nat) (known : ConsoleTask) (phase : Phase) : Prop where
  early : phase.Early -> known.phase.Early
  writing : forall cell again written value, phase = .writing cell again written -> state.cells cell = some value ->
    written = 0 /\ Not (task ∈ Turns.writers (state.onAttachment value.attachment))
  running : Not known.phase.Bad
  clean : forall cell value line, state.cells cell = some value -> known.work = .command line ->
    known.phase.held = some cell -> task ∈ Turns.writers (state.onAttachment value.attachment) ->
      Turns.portion (state.onAttachment value.attachment) task = line \/ phase.Bad \/ phase.held = some cell
  done : forall line, phase = .ended true -> known.work = .command line ->
    Exists fun attachment => state.attached attachment = some known.server /\
      Turns.portion (state.onAttachment attachment) task = line

theorem kept_moveTo (kept : state.Kept)
    (allowedHeld : forall cell, phase.held = some cell ->
      Exists fun value => state.cells cell = some value /\ value.holder = some task)
    (allowedReached : forall cell, phase.cell = some cell -> state.Fits known.server cell)
    (settled : forall attachment, Not (phase = .inserting attachment)) : (state.moveTo task known phase).Kept where
  holders := by
    intro other found cell present held
    rcases ConsoleState.moveTo_some present with ⟨rfl, rfl⟩ | ⟨_, earlier⟩
    · exact allowedHeld cell held
    · exact kept.holders other found cell earlier held
  reached := by
    intro other found cell present held
    rcases ConsoleState.moveTo_some present with ⟨rfl, rfl⟩ | ⟨_, earlier⟩
    · exact allowedReached cell held
    · exact kept.reached other found cell earlier held
  bound := kept.bound
  made := kept.made
  apart := kept.apart
  candidate := by
    intro other found attachment present inserting
    rcases ConsoleState.moveTo_some present with ⟨rfl, rfl⟩ | ⟨_, earlier⟩
    · exact absurd inserting (settled attachment)
    · rcases kept.candidate other found attachment earlier inserting with ⟨attached, free, unwritten, alone⟩
      refine ⟨attached, free, unwritten, ?_⟩
      intro third second presentToo insertingToo
      rcases ConsoleState.moveTo_some presentToo with ⟨rfl, rfl⟩ | ⟨_, earlierToo⟩
      · exact absurd insertingToo (settled attachment)
      · exact alone third second earlierToo insertingToo

/-- A task that has not written is not among the writers. -/
theorem not_writer (unwritten : forall entry, entry ∈ state.taken -> Not (entry.task = task)) (attachment : Nat) :
    Not (task ∈ Turns.writers (state.onAttachment attachment)) := by
  intro member
  rcases Turns.mem_writers.mp member with ⟨bytes, logged⟩
  rcases List.mem_map.mp logged with ⟨entry, kept, same⟩
  exact unwritten entry (List.mem_filter.mp kept).1 (congrArg Prod.fst same)

theorem lined_moveTo (lined : state.Lined) (here : state.tasks task = some known)
    (allowed : Allowed state task known phase) : (state.moveTo task known phase).Lined where
  logged := by
    intro entry member
    rcases lined.logged entry member with ⟨writer, line, present, work, attached⟩
    by_cases same : entry.task = task
    · rw [same, here] at present
      cases present
      refine ⟨{ known with phase := phase }, line, ?_, work, attached⟩
      rw [same, ConsoleState.moveTo_same]
    · refine ⟨writer, line, ?_, work, attached⟩
      rw [ConsoleState.moveTo_other same]
      exact present
  early := by
    intro other found present early
    rcases ConsoleState.moveTo_some present with ⟨rfl, rfl⟩ | ⟨_, earlier⟩
    · exact lined.early other known here (allowed.early early)
    · exact lined.early other found earlier early
  writing := by
    intro other server line cell again written value present located
    rcases ConsoleState.moveTo_some present with ⟨rfl, same⟩ | ⟨_, earlier⟩
    · have inPhase : phase = .writing cell again written := (congrArg ConsoleTask.phase same).symm
      rcases allowed.writing cell again written value inPhase located with ⟨rfl, absent⟩
      exact ⟨Nat.zero_le _, Turns.portion_absent absent, Or.inr absent⟩
    · exact lined.writing other server line cell again written value earlier located
  begun := by
    intro attachment other found line present work
    rcases ConsoleState.moveTo_some present with ⟨rfl, rfl⟩ | ⟨_, earlier⟩
    · exact lined.begun attachment other known line here work
    · exact lined.begun attachment other found line earlier work
  turns := lined.turns
  passed := by
    intro attachment other found line present work member
    rcases ConsoleState.moveTo_some present with ⟨rfl, rfl⟩ | ⟨_, earlier⟩
    · rcases lined.passed attachment other known line here work member with whole | bad
      · exact Or.inl whole
      · exact absurd bad allowed.running
    · exact lined.passed attachment other found line earlier work member
  clean := by
    intro cell value other found line located present work member
    rcases ConsoleState.moveTo_some present with ⟨rfl, rfl⟩ | ⟨_, earlier⟩
    · rcases lined.clean cell value other known line located here work member with whole | bad | held
      · exact Or.inl whole
      · exact absurd bad allowed.running
      · exact allowed.clean cell value line located work held member
    · exact lined.clean cell value other found line located earlier work member
  done := by
    intro other found line present work ended
    rcases ConsoleState.moveTo_some present with ⟨rfl, rfl⟩ | ⟨_, earlier⟩
    · exact allowed.done line ended work
    · exact lined.done other found line earlier work ended

/-! ## New tasks, bindings and attachments -/

def begin (state : ConsoleState) (task : Nat) (server : Text) (work : Work) : ConsoleState :=
  { state with tasks := Function.update state.tasks task (some ⟨server, work, .finding⟩) }

theorem kept_begin (kept : state.Kept) (server : Text) (work : Work) :
    (begin state task server work).Kept where
  holders := by
    intro other found cell present held
    rcases ConsoleState.update_some present with ⟨rfl, rfl⟩ | ⟨_, earlier⟩
    · cases held
    · exact kept.holders other found cell earlier held
  reached := by
    intro other found cell present held
    rcases ConsoleState.update_some present with ⟨rfl, rfl⟩ | ⟨_, earlier⟩
    · cases held
    · exact kept.reached other found cell earlier held
  bound := kept.bound
  made := kept.made
  apart := kept.apart
  candidate := by
    intro other found attachment present inserting
    rcases ConsoleState.update_some present with ⟨rfl, rfl⟩ | ⟨_, earlier⟩
    · cases inserting
    · rcases kept.candidate other found attachment earlier inserting with ⟨attached, free, unwritten, alone⟩
      refine ⟨attached, free, unwritten, ?_⟩
      intro third second presentToo insertingToo
      rcases ConsoleState.update_some presentToo with ⟨rfl, rfl⟩ | ⟨_, earlierToo⟩
      · cases insertingToo
      · exact alone third second earlierToo insertingToo

theorem lined_begin (lined : state.Lined) (free : state.tasks task = none) (server : Text) (work : Work) :
    (begin state task server work).Lined := by
  have unwritten : forall entry, entry ∈ state.taken -> Not (entry.task = task) := by
    intro entry member same
    rcases lined.logged entry member with ⟨writer, line, present, _⟩
    rw [same, free] at present
    cases present
  have absent (attachment : Nat) := not_writer unwritten attachment
  constructor
  case logged =>
    intro entry member
    rcases lined.logged entry member with ⟨writer, line, present, rest⟩
    refine ⟨writer, line, ?_, rest⟩
    exact (Function.update_of_ne (unwritten entry member) _ _).trans present
  case early =>
    intro other found present early
    rcases ConsoleState.update_some present with ⟨rfl, rfl⟩ | ⟨_, earlier⟩
    · exact unwritten
    · exact lined.early other found earlier early
  case writing =>
    intro other server line cell again written value present located
    rcases ConsoleState.update_some present with ⟨rfl, same⟩ | ⟨_, earlier⟩
    · cases same
    · exact lined.writing other server line cell again written value earlier located
  case begun =>
    intro attachment other found line present work
    rcases ConsoleState.update_some present with ⟨rfl, rfl⟩ | ⟨_, earlier⟩
    · exact (Turns.portion_absent (absent attachment)).symm ▸ List.nil_prefix
    · exact lined.begun attachment other found line earlier work
  case turns => exact lined.turns
  case passed =>
    intro attachment other found line present work member
    rcases ConsoleState.update_some present with ⟨rfl, rfl⟩ | ⟨_, earlier⟩
    · exact absurd (List.dropLast_subset _ member) (absent attachment)
    · exact lined.passed attachment other found line earlier work member
  case clean =>
    intro cell value other found line located present work member
    rcases ConsoleState.update_some present with ⟨rfl, rfl⟩ | ⟨_, earlier⟩
    · exact absurd member (absent value.attachment)
    · exact lined.clean cell value other found line located earlier work member
  case done =>
    intro other found line present work ended
    rcases ConsoleState.update_some present with ⟨rfl, rfl⟩ | ⟨_, earlier⟩
    · cases ended
    · exact lined.done other found line earlier work ended

theorem kept_setBinding (kept : state.Kept) (server : Text) (binding : Option Nat)
    (fits : forall cell, binding = some cell -> state.Fits server cell) : (state.setBinding server binding).Kept where
  holders := kept.holders
  reached := kept.reached
  bound := by
    intro other cell bound
    by_cases same : other = server
    · subst same
      have now : (state.setBinding other binding).bindings other = binding := Function.update_self other _ _
      exact fits cell (now.symm.trans bound)
    · have before : (state.setBinding server binding).bindings other = state.bindings other :=
        Function.update_of_ne same _ _
      exact kept.bound other cell (before.symm.trans bound)
  made := kept.made
  apart := kept.apart
  candidate := kept.candidate

theorem lined_setBinding (lined : state.Lined) (server : Text) (binding : Option Nat) :
    (state.setBinding server binding).Lined :=
  ⟨lined.logged, lined.early, lined.writing, lined.begun, lined.turns, lined.passed, lined.clean, lined.done⟩

/-- What is attached stays attached where a new attachment is made. -/
theorem attach_keeps {server owner : Text} (fresh : Not ((state.attached attachment).isSome = true))
    (attached : state.attached other = some owner) : (state.attach attachment server).attached other = some owner := by
  refine (Function.update_of_ne ?_ _ _).trans attached
  rintro rfl
  rw [attached] at fresh
  exact fresh rfl

theorem attach_fits {server owner : Text} (fresh : Not ((state.attached attachment).isSome = true))
    (fits : state.Fits owner cell) : (state.attach attachment server).Fits owner cell := by
  rcases fits with ⟨value, located, attached⟩
  exact ⟨value, located, attach_keeps fresh attached⟩

theorem kept_attach (kept : state.Kept) (server : Text) (fresh : Not ((state.attached attachment).isSome = true)) :
    (state.attach attachment server).Kept where
  holders := kept.holders
  reached other found cell present held := attach_fits fresh (kept.reached other found cell present held)
  bound other cell bound := attach_fits fresh (kept.bound other cell bound)
  made cell value located := by
    rcases Option.isSome_iff_exists.mp (kept.made cell value located) with ⟨owner, attached⟩
    rw [attach_keeps fresh attached]
    rfl
  apart := kept.apart
  candidate other found candidate present inserting := by
    rcases kept.candidate other found candidate present inserting with ⟨attached, rest⟩
    exact ⟨attach_keeps fresh attached, rest⟩

theorem lined_attach (lined : state.Lined) (server : Text) (fresh : Not ((state.attached attachment).isSome = true)) :
    (state.attach attachment server).Lined where
  logged entry member := by
    rcases lined.logged entry member with ⟨writer, line, present, work, attached⟩
    exact ⟨writer, line, present, work, attach_keeps fresh attached⟩
  early := lined.early
  writing := lined.writing
  begun := lined.begun
  turns := lined.turns
  passed := lined.passed
  clean := lined.clean
  done other found line present work ended := by
    rcases lined.done other found line present work ended with ⟨attachment, attached, whole⟩
    exact ⟨attachment, attach_keeps fresh attached, whole⟩

/-- Nothing was taken by an attachment that was not made. -/
theorem fresh_unwritten (lined : state.Lined) (fresh : Not ((state.attached attachment).isSome = true)) :
    forall entry, entry ∈ state.taken -> Not (entry.attachment = attachment) := by
  intro entry member same
  rcases lined.logged entry member with ⟨_, _, _, _, attached⟩
  rw [same] at attached
  rw [attached] at fresh
  exact fresh rfl

theorem fresh_free (kept : state.Kept) (fresh : Not ((state.attached attachment).isSome = true)) :
    forall cell value, state.cells cell = some value -> Not (value.attachment = attachment) := by
  rintro cell value located rfl
  exact fresh (kept.made cell value located)

/-- A task that has made an attachment is its only candidate. -/
theorem kept_inserting (kept : state.Kept) (lined : state.Lined)
    (fresh : Not ((state.attached attachment).isSome = true)) :
    ((state.attach attachment known.server).moveTo task known (.inserting attachment)).Kept where
  holders := by
    intro other found cell present held
    rcases ConsoleState.moveTo_some present with ⟨rfl, rfl⟩ | ⟨_, earlier⟩
    · cases held
    · exact kept.holders other found cell earlier held
  reached := by
    intro other found cell present held
    rcases ConsoleState.moveTo_some present with ⟨rfl, rfl⟩ | ⟨_, earlier⟩
    · cases held
    · exact attach_fits fresh (kept.reached other found cell earlier held)
  bound := (kept_attach kept known.server fresh).bound
  made := (kept_attach kept known.server fresh).made
  apart := kept.apart
  candidate := by
    intro other found candidate present inserting
    have free := fresh_free kept fresh
    have unwritten := fresh_unwritten lined fresh
    have unused := fresh_free kept fresh
    have unwritten := fresh_unwritten lined fresh
    have new {third : Nat} {second : ConsoleTask} (earlier : state.tasks third = some second)
        (inserting : second.phase = .inserting attachment) : False := by
      rw [(kept.candidate third second attachment earlier inserting).1] at fresh
      exact fresh rfl
    rcases ConsoleState.moveTo_some present with ⟨rfl, rfl⟩ | ⟨_, earlier⟩
    · cases inserting
      refine ⟨Function.update_self attachment _ _, unused, unwritten, ?_⟩
      intro third second presentToo insertingToo
      rcases ConsoleState.moveTo_some presentToo with ⟨rfl, _⟩ | ⟨_, earlierToo⟩
      · rfl
      · exact (new earlierToo insertingToo).elim
    · rcases kept.candidate other found candidate earlier inserting with ⟨attached, free, unwritten, alone⟩
      refine ⟨attach_keeps fresh attached, free, unwritten, ?_⟩
      intro third second presentToo insertingToo
      rcases ConsoleState.moveTo_some presentToo with ⟨rfl, rfl⟩ | ⟨_, earlierToo⟩
      · cases insertingToo
        exact (new earlier inserting).elim
      · exact alone third second earlierToo insertingToo

/-! ## Cells -/

/-- Nobody waits for a cell that is not there. -/
theorem not_reached (kept : state.Kept) (free : Not ((state.cells cell).isSome = true))
    (present : state.tasks other = some found) : Not (found.phase.cell = some cell) := by
  intro reached
  rcases kept.reached other found cell present reached with ⟨value, located, _⟩
  rw [located] at free
  exact free rfl

theorem cell_of_held {held : Nat} (here : phase.held = some held) : phase.cell = some held := by
  cases phase <;> first | exact here | cases here

/-- A cell keeps the server of its attachment where it is given another one. -/
theorem fits_setCell {value held : ConsoleCell} {owner server : Text} (located : state.cells cell = some value)
    (attached : state.attached value.attachment = some server) (again : state.attached held.attachment = some server)
    (fits : state.Fits owner other) : (state.setCell cell held).Fits owner other := by
  rcases fits with ⟨found, present, owned⟩
  by_cases same : other = cell
  · subst same
    rw [located] at present
    cases present
    rw [attached] at owned
    cases owned
    exact ⟨held, ConsoleState.setCell_same, again⟩
  · exact ⟨found, (ConsoleState.setCell_other same).trans present, owned⟩

/-- The place of a binding is taken by another one of the same server, which no other cell and no
candidate has. -/
theorem kept_setCell (kept : state.Kept) {value held : ConsoleCell} {server : Text}
    (located : state.cells cell = some value) (attached : state.attached value.attachment = some server)
    (again : state.attached held.attachment = some server)
    (own : forall other found, state.cells other = some found -> found.attachment = held.attachment -> other = cell)
    (uncontested : forall other found, state.tasks other = some found ->
      Not (found.phase = .inserting held.attachment))
    (holders : forall other found, state.tasks other = some found -> found.phase.held = some cell ->
      held.holder = some other) : (state.setCell cell held).Kept where
  holders other found place present holds := by
    by_cases same : place = cell
    · subst same
      exact ⟨held, ConsoleState.setCell_same, holders other found present holds⟩
    · rcases kept.holders other found place present holds with ⟨value, there, holder⟩
      exact ⟨value, (ConsoleState.setCell_other same).trans there, holder⟩
  reached other found place present holds :=
    fits_setCell located attached again (kept.reached other found place present holds)
  bound other place bound := fits_setCell located attached again (kept.bound other place bound)
  made place found present := by
    rcases ConsoleState.setCell_some present with ⟨rfl, rfl⟩ | ⟨_, earlier⟩
    · show (state.attached found.attachment).isSome
      rw [again]
      rfl
    · exact kept.made place found earlier
  apart first second one other present presentToo same := by
    rcases ConsoleState.setCell_some present with ⟨rfl, rfl⟩ | ⟨_, earlier⟩
    · rcases ConsoleState.setCell_some presentToo with ⟨rfl, rfl⟩ | ⟨_, earlierToo⟩
      · rfl
      · exact (own second other earlierToo same.symm).symm
    · rcases ConsoleState.setCell_some presentToo with ⟨rfl, rfl⟩ | ⟨_, earlierToo⟩
      · exact own first one earlier same
      · exact kept.apart first second one other earlier earlierToo same
  candidate other found candidate present inserting := by
    rcases kept.candidate other found candidate present inserting with ⟨owned, free, rest⟩
    refine ⟨owned, ?_, rest⟩
    intro place value there same
    rcases ConsoleState.setCell_some there with ⟨rfl, rfl⟩ | ⟨_, earlier⟩
    · exact uncontested other found present (same ▸ inserting)
    · exact free place value earlier same

/-- A new cell is not in the place of another one. -/
theorem setCell_keeps {value held : ConsoleCell} (free : Not ((state.cells cell).isSome = true))
    (located : state.cells other = some value) : (state.setCell cell held).cells other = some value := by
  refine (ConsoleState.setCell_other ?_).trans located
  rintro rfl
  rw [located] at free
  exact free rfl

theorem fits_newCell {held : ConsoleCell} {owner : Text} (free : Not ((state.cells cell).isSome = true))
    (fits : state.Fits owner other) : (state.setCell cell held).Fits owner other := by
  rcases fits with ⟨value, located, attached⟩
  exact ⟨value, setCell_keeps free located, attached⟩

/-- A new cell for an attachment that nobody else has. -/
theorem kept_newCell (kept : state.Kept) {server : Text} (free : Not ((state.cells cell).isSome = true))
    (attached : state.attached attachment = some server)
    (own : forall other found, state.cells other = some found -> Not (found.attachment = attachment))
    (uncontested : forall other found, state.tasks other = some found -> Not (found.phase = .inserting attachment)) :
    (state.setCell cell ⟨attachment, none⟩).Kept where
  holders other found place present holds := by
    rcases kept.holders other found place present holds with ⟨value, there, holder⟩
    exact ⟨value, setCell_keeps free there, holder⟩
  reached other found place present holds := fits_newCell free (kept.reached other found place present holds)
  bound other place bound := fits_newCell free (kept.bound other place bound)
  made place found present := by
    rcases ConsoleState.setCell_some present with ⟨rfl, rfl⟩ | ⟨_, earlier⟩
    · show (state.attached attachment).isSome
      rw [attached]
      rfl
    · exact kept.made place found earlier
  apart first second one other present presentToo same := by
    rcases ConsoleState.setCell_some present with ⟨rfl, rfl⟩ | ⟨_, earlier⟩
    · rcases ConsoleState.setCell_some presentToo with ⟨rfl, rfl⟩ | ⟨_, earlierToo⟩
      · rfl
      · exact absurd same.symm (own second other earlierToo)
    · rcases ConsoleState.setCell_some presentToo with ⟨rfl, rfl⟩ | ⟨_, earlierToo⟩
      · exact absurd same (own first one earlier)
      · exact kept.apart first second one other earlier earlierToo same
  candidate other found candidate present inserting := by
    rcases kept.candidate other found candidate present inserting with ⟨owned, unused, rest⟩
    refine ⟨owned, ?_, rest⟩
    intro place value there same
    rcases ConsoleState.setCell_some there with ⟨rfl, rfl⟩ | ⟨_, earlier⟩
    · cases same
      exact uncontested other found present inserting
    · exact unused place value earlier same

theorem onAttachment_fresh (unwritten : forall entry, entry ∈ state.taken -> Not (entry.attachment = attachment)) :
    state.onAttachment attachment = [] := by
  have none : state.taken.filter (fun entry => entry.attachment = attachment) = [] := by
    refine List.filter_eq_nil_iff.mpr ?_
    intro entry member same
    exact unwritten entry member (of_decide_eq_true same)
  rw [ConsoleState.onAttachment, none]
  rfl

/-- A cell may be given an attachment that took nothing, or keep the one that it has. -/
theorem lined_setCell (lined : state.Lined) {held : ConsoleCell}
    (same : (Exists fun value => state.cells cell = some value /\ value.attachment = held.attachment) \/
      forall entry, entry ∈ state.taken -> Not (entry.attachment = held.attachment))
    (idle : (Exists fun value => state.cells cell = some value /\ value.attachment = held.attachment) \/
      forall other found again written, state.tasks other = some found ->
        Not (found.phase = .writing cell again written)) :
    (state.setCell cell held).Lined where
  logged := lined.logged
  early := lined.early
  writing other server line place again written value present located := by
    rcases ConsoleState.setCell_some located with ⟨rfl, rfl⟩ | ⟨_, earlier⟩
    · rcases idle with ⟨before, there, equal⟩ | nobody
      · rw [<- equal]
        exact lined.writing other server line place again written before present there
      · exact absurd rfl (nobody other _ again written present)
    · exact lined.writing other server line place again written value present earlier
  begun := lined.begun
  turns := lined.turns
  passed := lined.passed
  clean place value other found line located present work member := by
    rcases ConsoleState.setCell_some located with ⟨rfl, rfl⟩ | ⟨_, earlier⟩
    · rcases same with ⟨before, there, equal⟩ | unwritten
      · rw [<- equal] at member ⊢
        exact lined.clean place before other found line there present work member
      · have empty : (state.setCell place value).onAttachment value.attachment = [] := onAttachment_fresh unwritten
        rw [empty] at member
        exact absurd member List.not_mem_nil
    · exact lined.clean place value other found line earlier present work member
  done := lined.done

/-! ## Bytes that are taken -/

/-- A task writes a line to the attachment in its cell. -/
structure Writes (state : ConsoleState) (task : Nat) (server : Text) (line : Bytes) (cell : Nat) (again : Bool)
    (written : Nat) (value : ConsoleCell) : Prop where
  present : state.tasks task = some ⟨server, .command line, .writing cell again written⟩
  located : state.cells cell = some value

variable {server : Text} {line : Bytes} {again : Bool} {written : Nat} {value : ConsoleCell}

/-- Nobody else has locked the cell. -/
theorem Writes.alone (writes : Writes state task server line cell again written value) (kept : state.Kept)
    (present : state.tasks other = some found) (held : found.phase.held = some cell) : other = task := by
  rcases kept.holders other found cell present held with ⟨first, there, holder⟩
  rcases kept.holders task _ cell writes.present rfl with ⟨second, thereToo, holderToo⟩
  rw [there] at thereToo
  cases thereToo
  rw [holder] at holderToo
  exact Option.some.inj holderToo

theorem onAttachment_take_same (bytes : Bytes) :
    (state.take attachment task bytes).onAttachment attachment = state.onAttachment attachment ++ [(task, bytes)] := by
  have here : [(⟨attachment, task, bytes⟩ : Taken)].filter (fun entry => entry.attachment = attachment) =
      [⟨attachment, task, bytes⟩] := List.filter_cons_of_pos (decide_eq_true rfl)
  rw [ConsoleState.onAttachment, ConsoleState.take, List.filter_append, here, List.map_append]
  rfl

theorem onAttachment_take_other {second : Nat} (differs : Not (attachment = second)) (bytes : Bytes) :
    (state.take attachment task bytes).onAttachment second = state.onAttachment second := by
  have elsewhere : [(⟨attachment, task, bytes⟩ : Taken)].filter (fun entry => entry.attachment = second) = [] :=
    List.filter_cons_of_neg (by rw [decide_eq_true_eq]; exact differs)
  rw [ConsoleState.onAttachment, ConsoleState.take, List.filter_append, elsewhere, List.append_nil]
  rfl

theorem kept_take (kept : state.Kept) (located : state.cells cell = some value) (bytes : Bytes) :
    (state.take value.attachment task bytes).Kept where
  holders := kept.holders
  reached := kept.reached
  bound := kept.bound
  made := kept.made
  apart := kept.apart
  candidate other found candidate present inserting := by
    rcases kept.candidate other found candidate present inserting with ⟨owned, free, unwritten, alone⟩
    refine ⟨owned, free, ?_, alone⟩
    intro entry member
    rcases List.mem_append.mp member with earlier | new
    · exact unwritten entry earlier
    · rw [List.mem_singleton.mp new]
      exact free cell value located

/-- The state after the attachment took some more bytes of a line. -/
def taking (state : ConsoleState) (task : Nat) (server : Text) (line : Bytes) (cell : Nat) (again : Bool)
    (written : Nat) (value : ConsoleCell) (count : Nat) : ConsoleState :=
  (state.take value.attachment task ((line.drop written).take count)).moveTo task
    ⟨server, .command line, .writing cell again written⟩ (.writing cell again (written + count))

variable {count : Nat}

theorem onAttachment_taking_same :
    (taking state task server line cell again written value count).onAttachment value.attachment =
      state.onAttachment value.attachment ++ [(task, (line.drop written).take count)] :=
  onAttachment_take_same _

theorem onAttachment_taking_other (differs : Not (value.attachment = attachment)) :
    (taking state task server line cell again written value count).onAttachment attachment =
      state.onAttachment attachment :=
  onAttachment_take_other differs _

theorem writers_taking :
    Turns.writers ((taking state task server line cell again written value count).onAttachment value.attachment) =
      Turns.follow (Turns.writers (state.onAttachment value.attachment)) task := by
  rw [onAttachment_taking_same, Turns.writers_append]

/-- The task has written the line up to the bytes taken now. -/
theorem portion_taking (lined : state.Lined) (writes : Writes state task server line cell again written value) :
    Turns.portion ((taking state task server line cell again written value count).onAttachment value.attachment)
      task = line.take (written + count) := by
  have portion := (lined.writing task server line cell again written value writes.present writes.located).2.1
  rw [onAttachment_taking_same, Turns.portion_append_same, portion, List.take_add]

/-- The other tasks have written what they had. -/
theorem portion_taking_other (attachment : Nat) (differs : Not (other = task)) :
    Turns.portion ((taking state task server line cell again written value count).onAttachment attachment) other =
      Turns.portion (state.onAttachment attachment) other := by
  by_cases here : value.attachment = attachment
  · subst here
    rw [onAttachment_taking_same, Turns.portion_append_other (fun equal => differs equal.symm)]
  · rw [onAttachment_taking_other here]

theorem taking_same :
    (taking state task server line cell again written value count).tasks task =
      some ⟨server, .command line, .writing cell again (written + count)⟩ :=
  ConsoleState.moveTo_same

theorem taking_some
    (present : (taking state task server line cell again written value count).tasks other = some found) :
    (other = task /\ found = ⟨server, .command line, .writing cell again (written + count)⟩) \/
      (Not (other = task) /\ state.tasks other = some found) :=
  ConsoleState.moveTo_some present

/-- The attachment is in one cell only. -/
theorem Writes.place (writes : Writes state task server line cell again written value) (kept : state.Kept)
    {place : Nat} {held : ConsoleCell} (there : state.cells place = some held)
    (equal : value.attachment = held.attachment) : place = cell :=
  kept.apart place cell held value there writes.located equal.symm

theorem logged_taking (kept : state.Kept) (lined : state.Lined)
    (writes : Writes state task server line cell again written value) (entry : Taken)
    (member : entry ∈ (taking state task server line cell again written value count).taken) :
    Exists fun known => Exists fun text =>
      (taking state task server line cell again written value count).tasks entry.task = some known /\
        known.work = .command text /\ state.attached entry.attachment = some known.server := by
  rcases List.mem_append.mp member with earlier | new
  · rcases lined.logged entry earlier with ⟨writer, text, present, work, attached⟩
    by_cases equal : entry.task = task
    · rw [equal, writes.present] at present
      cases present
      refine ⟨⟨server, .command line, .writing cell again (written + count)⟩, text, ?_, work, attached⟩
      rw [equal]
      exact taking_same
    · exact ⟨writer, text, (ConsoleState.moveTo_other equal).trans present, work, attached⟩
  · rw [List.mem_singleton.mp new]
    rcases kept.reached task _ cell writes.present rfl with ⟨held, there, attached⟩
    rw [writes.located] at there
    cases there
    exact ⟨_, line, taking_same, rfl, attached⟩

theorem early_taking (lined : state.Lined) (other : Nat) (found : ConsoleTask)
    (present : (taking state task server line cell again written value count).tasks other = some found)
    (early : found.phase.Early) (entry : Taken)
    (member : entry ∈ (taking state task server line cell again written value count).taken) :
    Not (entry.task = other) := by
  rcases taking_some present with ⟨rfl, rfl⟩ | ⟨differs, earlier⟩
  · exact early.elim
  · rcases List.mem_append.mp member with before | new
    · exact lined.early other found earlier early entry before
    · rw [List.mem_singleton.mp new]
      exact fun equal => differs equal.symm

theorem begun_taking (lined : state.Lined) (writes : Writes state task server line cell again written value)
    (attachment other : Nat) (found : ConsoleTask) (text : Bytes)
    (present : (taking state task server line cell again written value count).tasks other = some found)
    (work : found.work = .command text) :
    Turns.portion ((taking state task server line cell again written value count).onAttachment attachment) other <+:
      text := by
  rcases taking_some present with ⟨rfl, rfl⟩ | ⟨differs, earlier⟩
  · cases work
    by_cases here : value.attachment = attachment
    · subst here
      rw [portion_taking lined writes]
      exact List.take_prefix _ _
    · rw [onAttachment_taking_other here]
      exact lined.begun attachment other _ line writes.present rfl
  · rw [portion_taking_other attachment differs]
    exact lined.begun attachment other found text earlier work

/-- Nobody comes back to an attachment that another task has written to. -/
theorem turns_taking (lined : state.Lined) (writes : Writes state task server line cell again written value)
    (attachment : Nat) :
    (Turns.writers
      ((taking state task server line cell again written value count).onAttachment attachment)).Nodup := by
  by_cases here : value.attachment = attachment
  · subst here
    have may := (lined.writing task server line cell again written value writes.present writes.located).2.2
    rw [writers_taking]
    exact Turns.nodup_follow (lined.turns _) may
  · rw [onAttachment_taking_other here]
    exact lined.turns attachment

theorem writing_taking (kept : state.Kept) (lined : state.Lined)
    (writes : Writes state task server line cell again written value) (enough : written + count <= line.length)
    (other : Nat) (owner : Text) (text : Bytes) (place : Nat) (second : Bool) (already : Nat) (held : ConsoleCell)
    (present : (taking state task server line cell again written value count).tasks other =
      some ⟨owner, .command text, .writing place second already⟩)
    (there : state.cells place = some held) :
    already <= text.length /\
      Turns.portion ((taking state task server line cell again written value count).onAttachment held.attachment)
        other = text.take already /\
      Turns.MayFollow (Turns.writers
        ((taking state task server line cell again written value count).onAttachment held.attachment)) other := by
  rcases taking_some present with ⟨rfl, equal⟩ | ⟨differs, earlier⟩
  · cases equal
    have equal : some held = some value := there.symm.trans writes.located
    cases equal
    refine ⟨enough, portion_taking lined writes, ?_⟩
    rw [writers_taking]
    exact Or.inl (Turns.getLast?_follow _ _)
  · have apart : Not (value.attachment = held.attachment) := by
      intro equal
      have sameCell := writes.place kept there equal
      exact differs (writes.alone kept earlier (congrArg some sameCell))
    rw [onAttachment_taking_other apart]
    exact lined.writing other owner text place second already held earlier there

theorem passed_taking (kept : state.Kept) (lined : state.Lined)
    (writes : Writes state task server line cell again written value) (attachment other : Nat) (found : ConsoleTask)
    (text : Bytes) (present : (taking state task server line cell again written value count).tasks other = some found)
    (work : found.work = .command text)
    (member : other ∈ (Turns.writers
      ((taking state task server line cell again written value count).onAttachment attachment)).dropLast) :
    Turns.portion ((taking state task server line cell again written value count).onAttachment attachment) other =
      text \/ found.phase.Bad := by
  by_cases here : value.attachment = attachment
  · subst here
    have nodup := @turns_taking _ _ _ _ _ _ _ _ count lined writes value.attachment
    rw [writers_taking] at member nodup
    rcases Turns.mem_dropLast_follow member nodup with ⟨before, differs⟩
    rcases taking_some present with ⟨equal, _⟩ | ⟨_, earlier⟩
    · exact absurd equal differs
    · rw [portion_taking_other _ differs]
      rcases lined.clean cell value other found text writes.located earlier work before with whole | bad | held
      · exact Or.inl whole
      · exact Or.inr bad
      · exact absurd (writes.alone kept earlier held) differs
  · rw [onAttachment_taking_other here] at member ⊢
    rcases taking_some present with ⟨rfl, rfl⟩ | ⟨_, earlier⟩
    · rcases lined.passed attachment other _ text writes.present work member with whole | bad
      · exact Or.inl whole
      · exact bad.elim
    · exact lined.passed attachment other found text earlier work member

theorem clean_taking (kept : state.Kept) (lined : state.Lined)
    (writes : Writes state task server line cell again written value) (place : Nat) (held : ConsoleCell) (other : Nat)
    (found : ConsoleTask) (text : Bytes) (there : state.cells place = some held)
    (present : (taking state task server line cell again written value count).tasks other = some found)
    (work : found.work = .command text)
    (member : other ∈ Turns.writers
      ((taking state task server line cell again written value count).onAttachment held.attachment)) :
    Turns.portion ((taking state task server line cell again written value count).onAttachment held.attachment)
      other = text \/ found.phase.Bad \/ found.phase.held = some place := by
  rcases taking_some present with ⟨rfl, rfl⟩ | ⟨differs, earlier⟩
  · by_cases here : value.attachment = held.attachment
    · exact Or.inr (Or.inr (congrArg some (writes.place kept there here).symm))
    · rw [onAttachment_taking_other here] at member ⊢
      rcases lined.clean place held other _ text there writes.present work member with whole | bad | holds
      · exact Or.inl whole
      · exact bad.elim
      · exact Or.inr (Or.inr holds)
  · rw [portion_taking_other _ differs]
    refine lined.clean place held other found text there earlier work ?_
    by_cases here : value.attachment = held.attachment
    · rw [<- here] at member ⊢
      rw [writers_taking] at member
      exact (Turns.mem_follow.mp member).resolve_right differs
    · rw [onAttachment_taking_other here] at member
      exact member

theorem done_taking (lined : state.Lined) (other : Nat) (found : ConsoleTask) (text : Bytes)
    (present : (taking state task server line cell again written value count).tasks other = some found)
    (work : found.work = .command text) (ended : found.phase = .ended true) :
    Exists fun attachment => state.attached attachment = some found.server /\
      Turns.portion ((taking state task server line cell again written value count).onAttachment attachment) other =
        text := by
  rcases taking_some present with ⟨rfl, rfl⟩ | ⟨differs, earlier⟩
  · cases ended
  · rcases lined.done other found text earlier work ended with ⟨attachment, attached, whole⟩
    exact ⟨attachment, attached, (portion_taking_other attachment differs).trans whole⟩

theorem lined_taking (kept : state.Kept) (lined : state.Lined)
    (writes : Writes state task server line cell again written value) (enough : written + count <= line.length) :
    (taking state task server line cell again written value count).Lined where
  logged := logged_taking kept lined writes
  early := early_taking lined
  writing := writing_taking kept lined writes enough
  begun := begun_taking lined writes
  turns := turns_taking lined writes
  passed := passed_taking kept lined writes
  clean := clean_taking kept lined writes
  done := done_taking lined

/-! ## Turns -/

/-- The tasks, the cells and what the attachments took agree. -/
structure Sound (state : ConsoleState) : Prop where
  kept : state.Kept
  lined : state.Lined

theorem sound_noBindings : Sound noBindings where
  kept :=
    { holders := fun _ _ _ impossible => by cases impossible
      reached := fun _ _ _ impossible => by cases impossible
      bound := fun _ _ impossible => by cases impossible
      made := fun _ _ impossible => by cases impossible
      apart := fun _ _ _ _ impossible => by cases impossible
      candidate := fun _ _ _ impossible => by cases impossible }
  lined :=
    { logged := fun _ impossible => by cases impossible
      early := fun _ _ impossible => by cases impossible
      writing := fun _ _ _ _ _ _ _ impossible => by cases impossible
      begun := fun _ _ _ _ impossible => by cases impossible
      turns := fun _ => List.nodup_nil
      passed := fun _ _ _ _ impossible => by cases impossible
      clean := fun _ _ _ _ _ impossible => by cases impossible
      done := fun _ _ _ impossible => by cases impossible }

/-- A task that writes nothing moves on. -/
theorem Sound.moveTo (sound : Sound state) (here : state.tasks task = some known)
    (held : forall cell, phase.held = some cell ->
      Exists fun value => state.cells cell = some value /\ value.holder = some task)
    (reached : forall cell, phase.cell = some cell -> state.Fits known.server cell)
    (settled : forall attachment, Not (phase = .inserting attachment))
    (allowed : Allowed state task known phase) : Sound (state.moveTo task known phase) :=
  ⟨kept_moveTo sound.kept held reached settled, lined_moveTo sound.lined here allowed⟩

/-- A move between places where no cell is locked. -/
theorem Sound.moveFree (sound : Sound state) (here : state.tasks task = some known)
    (before : known.phase.held = none) (after : phase.held = none) (running : Not known.phase.Bad)
    (reached : forall cell, phase.cell = some cell -> state.Fits known.server cell)
    (settled : forall attachment, Not (phase = .inserting attachment)) (early : phase.Early -> known.phase.Early)
    (done : phase = .ended true -> forall line, Not (known.work = .command line)) :
    Sound (state.moveTo task known phase) := by
  refine sound.moveTo here ?_ reached settled ⟨early, ?_, running, ?_, ?_⟩
  · intro cell held
    cases after.symm.trans held
  · rintro cell again written value rfl
    cases after
  · intro cell value line _ _ held
    cases before.symm.trans held
  · intro line ended work
    exact absurd work (done ended line)

/-- The lock of a cell is changed for a task that is to hold it, or where nobody holds it. -/
theorem Sound.setHolder (sound : Sound state) {value : ConsoleCell} (located : state.cells cell = some value)
    (holder : Option Nat)
    (holders : forall other found, state.tasks other = some found -> found.phase.held = some cell ->
      holder = some other) : Sound (state.setCell cell { value with holder := holder }) := by
  rcases Option.isSome_iff_exists.mp (sound.kept.made cell value located) with ⟨server, attached⟩
  have same : Exists fun first => state.cells cell = some first /\ first.attachment = value.attachment :=
    ⟨value, located, rfl⟩
  refine ⟨kept_setCell sound.kept located attached attached ?_ ?_ holders, lined_setCell sound.lined (Or.inl same)
    (Or.inl same)⟩
  · intro other found present equal
    exact sound.kept.apart other cell found value present located equal
  · intro other found present inserting
    exact (sound.kept.candidate other found value.attachment present inserting).2.1 cell value located rfl

/-- A task that has locked a cell is over and unlocks it. -/
theorem Sound.finish (sound : Sound state) (here : state.tasks task = some known) (running : Not known.phase.Bad)
    (loose : phase.cell = none /\ Not phase.Early /\ forall attachment, Not (phase = .inserting attachment))
    (clean : forall cell value line, state.cells cell = some value -> known.work = .command line ->
      known.phase.held = some cell -> phase = .ended true ->
        Turns.portion (state.onAttachment value.attachment) task = line)
    (bad : Not (phase = .ended true) -> phase.Bad)
    (done : known.phase.held = none -> phase = .ended true -> forall line, Not (known.work = .command line)) :
    Sound (state.finish task known phase) := by
  have free : phase.held = none := by
    cases held : phase.held with
    | none => rfl
    | some cell => cases loose.1.symm.trans (cell_of_held held)
  have moved : Sound (state.moveTo task known phase) := by
    refine sound.moveTo here ?_ ?_ loose.2.2 ⟨fun early => absurd early loose.2.1, ?_, running, ?_, ?_⟩
    · intro cell held
      cases free.symm.trans held
    · intro cell reached
      cases loose.1.symm.trans reached
    · rintro cell again written value rfl
      cases free
    · intro cell value line located work held _
      by_cases ended : phase = .ended true
      · exact Or.inl (clean cell value line located work held ended)
      · exact Or.inr (Or.inl (bad ended))
    · intro line ended work
      cases held : known.phase.held with
      | none => exact absurd work (done held ended line)
      | some cell =>
          rcases sound.kept.reached task known cell here (cell_of_held held) with ⟨value, located, attached⟩
          exact ⟨value.attachment, attached, clean cell value line located work held ended⟩
  rw [ConsoleState.finish, ConsoleState.unlock.eq_def]
  cases held : known.phase.held with
  | none => exact moved
  | some cell =>
      rcases sound.kept.holders task known cell here held with ⟨value, located, holder⟩
      have there : (state.moveTo task known phase).cells cell = some value := located
      dsimp only
      rw [there]
      refine moved.setHolder there none ?_
      intro other found present holds
      rcases ConsoleState.moveTo_some present with ⟨rfl, rfl⟩ | ⟨differs, earlier⟩
      · cases free.symm.trans holds
      · rcases sound.kept.holders other found cell earlier holds with ⟨same, thereToo, holderToo⟩
        cases located.symm.trans thereToo
        exact absurd (Option.some.inj (holderToo.symm.trans holder)) differs

/-- A move to a place without a cell and without an attachment. -/
theorem Sound.moveLoose (sound : Sound state) (here : state.tasks task = some known) (before : known.phase.held = none)
    (loose : phase.Loose) (running : Not known.phase.Bad) (early : phase.Early -> known.phase.Early)
    (done : phase = .ended true -> forall line, Not (known.work = .command line)) :
    Sound (state.moveTo task known phase) := by
  have nothing : phase.cell = none /\ phase.held = none := by
    cases phase <;> first | exact loose.elim | exact ⟨rfl, rfl⟩
  refine sound.moveFree here before nothing.2 running ?_ ?_ early done
  · intro cell reached
    cases nothing.1.symm.trans reached
  · rintro attachment rfl
    exact loose.elim

/-- A move to the wait for a cell that is there. -/
theorem Sound.moveToCell (sound : Sound state) (here : state.tasks task = some known) (before : known.phase.held = none)
    (running : Not known.phase.Bad) (early : known.phase.Early) (fits : state.Fits known.server cell) :
    Sound (state.moveTo task known (.locking cell)) := by
  refine sound.moveFree here before rfl running ?_ ?_ (fun _ => early) ?_
  · intro other reached
    cases reached
    exact fits
  · intro attachment impossible
    cases impossible
  · intro impossible
    cases impossible

theorem Sound.setBinding (sound : Sound state) (server : Text) (binding : Option Nat)
    (fits : forall cell, binding = some cell -> state.Fits server cell) : Sound (state.setBinding server binding) :=
  ⟨kept_setBinding sound.kept server binding fits, lined_setBinding sound.lined server binding⟩

theorem sound_find (sound : Sound state) {server : Text} {work : Work}
    (here : state.tasks task = some ⟨server, work, .finding⟩) : Sound (find state task ⟨server, work, .finding⟩) := by
  have unbound := sound.setBinding server none (fun cell impossible => by cases impossible)
  rw [find.eq_def]
  dsimp only
  cases bound : state.bindings server with
  | some cell =>
      have fits := sound.kept.bound server cell bound
      cases work with
      | command line => exact sound.moveToCell here rfl not_false trivial fits
      | detach => exact unbound.moveToCell here rfl not_false trivial fits
      | start => exact unbound.moveToCell here rfl not_false trivial fits
  | none =>
      cases work with
      | command line =>
          exact sound.moveLoose here rfl trivial not_false (fun _ => trivial) (fun impossible => by cases impossible)
      | detach =>
          refine sound.moveLoose here rfl trivial not_false (fun _ => trivial) ?_
          intro _ line impossible
          cases impossible
      | start =>
          exact sound.moveLoose here rfl trivial not_false (fun _ => trivial) (fun impossible => by cases impossible)

/-- The candidate of a task gets a cell. -/
theorem sound_candidate (sound : Sound state) {server : Text} {work : Work}
    (here : state.tasks task = some ⟨server, work, .inserting attachment⟩)
    (free : Not ((state.cells cell).isSome = true)) :
    Sound
      (((state.moveTo task ⟨server, work, .inserting attachment⟩ .attaching).setCell cell ⟨attachment, none⟩).setBinding
      server (some cell)) := by
  have moved : Sound (state.moveTo task ⟨server, work, .inserting attachment⟩ .attaching) :=
    sound.moveLoose here rfl trivial not_false (fun _ => trivial) (fun impossible => by cases impossible)
  rcases sound.kept.candidate task _ attachment here rfl with ⟨attached, unused, unwritten, alone⟩
  have uncontested : forall other found,
      (state.moveTo task ⟨server, work, .inserting attachment⟩ .attaching).tasks other = some found ->
        Not (found.phase = .inserting attachment) := by
    intro other found present inserting
    rcases ConsoleState.moveTo_some present with ⟨rfl, rfl⟩ | ⟨differs, earlier⟩
    · cases inserting
    · exact differs (alone other found earlier inserting)
  have unreached : forall other found again written,
      (state.moveTo task ⟨server, work, .inserting attachment⟩ .attaching).tasks other = some found ->
        Not (found.phase = .writing cell again written) := by
    intro other found again written present writing
    exact not_reached moved.kept free present (by rw [writing]; rfl)
  have celled : Sound ((state.moveTo task ⟨server, work, .inserting attachment⟩ .attaching).setCell cell
      ⟨attachment, none⟩) :=
    ⟨kept_newCell moved.kept free attached unused uncontested,
      lined_setCell moved.lined (Or.inr unwritten) (Or.inr unreached)⟩
  refine celled.setBinding server (some cell) ?_
  intro other same
  cases same
  exact ⟨⟨attachment, none⟩, ConsoleState.setCell_same, attached⟩

theorem sound_insert (sound : Sound state) {server : Text} {work : Work}
    (here : state.tasks task = some ⟨server, work, .inserting attachment⟩)
    (free : Not ((state.cells cell).isSome = true)) :
    Sound (insert state task ⟨server, work, .inserting attachment⟩ attachment cell) := by
  have bound := sound_candidate sound here free
  have again (phase : Phase) :
      (((state.moveTo task ⟨server, work, .inserting attachment⟩ .attaching).setCell cell ⟨attachment, none⟩).setBinding
        server (some cell)).moveTo task ⟨server, work, .attaching⟩ phase =
      ((state.setCell cell ⟨attachment, none⟩).setBinding server (some cell)).moveTo task
        ⟨server, work, .inserting attachment⟩ phase :=
    @ConsoleState.moveTo_moveTo ((state.setCell cell ⟨attachment, none⟩).setBinding server (some cell)) task
      ⟨server, work, .inserting attachment⟩ phase .attaching
  have present : (((state.moveTo task ⟨server, work, .inserting attachment⟩ .attaching).setCell cell
      ⟨attachment, none⟩).setBinding server (some cell)).tasks task = some ⟨server, work, .attaching⟩ :=
    ConsoleState.moveTo_same
  have ended (notCommand : forall line, Not (work = .command line)) :
      Sound (((state.setCell cell ⟨attachment, none⟩).setBinding server (some cell)).moveTo task
        ⟨server, work, .inserting attachment⟩ (.ended true)) := by
    rw [<- again]
    exact bound.moveLoose present rfl trivial not_false (fun _ => trivial) (fun _ => notCommand)
  rw [insert.eq_def]
  dsimp only
  cases work with
  | command line =>
      cases existing : state.bindings server with
      | some found => exact sound.moveToCell here rfl not_false trivial (sound.kept.bound server found existing)
      | none =>
          dsimp only
          rw [<- again]
          refine bound.moveToCell present rfl not_false trivial (bound.kept.bound server cell ?_)
          exact Function.update_self server _ _
  | detach => exact ended (fun line impossible => by cases impossible)
  | start => exact ended (fun line impossible => by cases impossible)

theorem sound_lock (sound : Sound state) {server : Text} {work : Work} {attachment : Nat}
    (here : state.tasks task = some ⟨server, work, .locking cell⟩)
    (located : state.cells cell = some ⟨attachment, none⟩) :
    Sound (lock state task ⟨server, work, .locking cell⟩ cell ⟨attachment, none⟩) := by
  rw [lock.eq_def]
  dsimp only
  cases work with
  | command line =>
      have locked : Sound (state.setCell cell ⟨attachment, some task⟩) := by
        refine sound.setHolder located (some task) ?_
        intro other found present held
        rcases sound.kept.holders other found cell present held with ⟨value, there, holder⟩
        cases located.symm.trans there
        cases holder
      have fits := locked.kept.reached task _ cell here rfl
      refine locked.moveTo here ?_ ?_ ?_ ⟨fun _ => trivial, ?_, not_false, ?_, ?_⟩
      · intro other held
        cases held
        exact ⟨_, ConsoleState.setCell_same, rfl⟩
      · intro other reached
        cases reached
        exact fits
      · intro other impossible
        cases impossible
      · intro other again written value impossible
        cases impossible
      · intro other value text _ _ impossible
        cases impossible
      · intro text impossible
        cases impossible
  | detach =>
      refine sound.moveLoose here rfl trivial not_false (fun _ => trivial) ?_
      intro _ line impossible
      cases impossible
  | start =>
      exact sound.moveLoose here rfl trivial not_false (fun _ => trivial) (fun impossible => by cases impossible)

/-- A task keeps the cell that it has locked. -/
theorem Sound.moveLocked (sound : Sound state) (here : state.tasks task = some known)
    (held : known.phase.held = some cell) (same : phase.held = some cell) (reached : phase.cell = some cell)
    (early : phase.Early -> known.phase.Early) (running : Not known.phase.Bad)
    (writing : forall other again written value, phase = .writing other again written ->
      state.cells other = some value ->
        written = 0 /\ Not (task ∈ Turns.writers (state.onAttachment value.attachment))) :
    Sound (state.moveTo task known phase) := by
  refine sound.moveTo here ?_ ?_ ?_ ⟨early, writing, running, ?_, ?_⟩
  · intro other holds
    cases same.symm.trans holds
    exact sound.kept.holders task known cell here held
  · intro other waits
    cases reached.symm.trans waits
    exact sound.kept.reached task known cell here (cell_of_held held)
  · rintro attachment rfl
    cases same
  · intro other value line _ _ holds _
    exact Or.inr (Or.inr (same.trans (held.symm.trans holds)))
  · rintro line rfl
    cases same

theorem sound_concludeWrite (sound : Sound state) {server : Text} {line : Bytes} {again ok : Bool} {written : Nat}
    (here : state.tasks task = some ⟨server, .command line, .writing cell again written⟩) :
    Sound (concludeWrite state task ⟨server, .command line, .writing cell again written⟩ line cell again written
      ok) := by
  rw [concludeWrite]
  cases ok with
  | true =>
      rw [if_pos rfl]
      split
      · next whole =>
          refine sound.finish here not_false ⟨rfl, not_false, fun _ impossible => by cases impossible⟩ ?_
            (fun never => absurd rfl never) ?_
          · intro other value text located work held _
            cases work
            cases held
            rcases sound.lined.writing task server line cell again written value here located with ⟨_, portion, _⟩
            rw [portion, whole, List.take_length]
          · intro impossible
            cases impossible
      · exact sound
  | false =>
      rw [if_neg Bool.false_ne_true]
      split
      · refine sound.finish here not_false ⟨rfl, not_false, fun _ impossible => by cases impossible⟩ ?_
          (fun _ => rfl) ?_
        · intro other value text _ _ _ impossible
          cases impossible
        · intro impossible
          cases impossible
      · refine sound.moveLocked here rfl rfl rfl ?_ not_false ?_
        · intro impossible
          cases impossible
        · intro other second already value impossible
          cases impossible

/-- The binding of a cell is made anew by the task that has locked it. -/
theorem sound_reattach (sound : Sound state) {server : Text} {work : Work} {again : Bool}
    (here : state.tasks task = some ⟨server, work, .reattaching cell again⟩)
    (fresh : Not ((state.attached attachment).isSome = true)) :
    Sound (((state.attach attachment server).setCell cell ⟨attachment, some task⟩).moveTo task
      ⟨server, work, .reattaching cell again⟩ (.writing cell again 0)) := by
  have attached : Sound (state.attach attachment server) :=
    ⟨kept_attach sound.kept server fresh, lined_attach sound.lined server fresh⟩
  have unused := fresh_free sound.kept fresh
  have unwritten := fresh_unwritten sound.lined fresh
  rcases sound.kept.holders task _ cell here rfl with ⟨value, located, holder⟩
  rcases attached.kept.reached task _ cell here rfl with ⟨same, there, owned⟩
  cases located.symm.trans there
  have alone : forall other found, state.tasks other = some found -> found.phase.held = some cell -> other = task := by
    intro other found present held
    rcases sound.kept.holders other found cell present held with ⟨second, thereToo, holderToo⟩
    cases located.symm.trans thereToo
    exact Option.some.inj (holderToo.symm.trans holder)
  have celled : Sound ((state.attach attachment server).setCell cell ⟨attachment, some task⟩) := by
    refine ⟨kept_setCell attached.kept there owned (Function.update_self attachment _ _) ?_ ?_ ?_,
      lined_setCell attached.lined (Or.inr unwritten) (Or.inr ?_)⟩
    · intro other found present equal
      exact absurd equal (unused other found present)
    · intro other found present inserting
      have known := (sound.kept.candidate other found attachment present inserting).1
      rw [known] at fresh
      exact fresh rfl
    · intro other found present held
      exact congrArg some (alone other found present held).symm
    · intro other found second written present writing
      have equal : other = task := alone other found present (by rw [writing]; rfl)
      subst equal
      have phases : found.phase = .reattaching cell again :=
        congrArg ConsoleTask.phase (Option.some.inj (present.symm.trans here))
      cases phases.symm.trans writing
  refine celled.moveLocked here rfl rfl rfl False.elim not_false ?_
  intro other second written value writing present
  cases writing
  cases ConsoleState.setCell_same.symm.trans present
  refine ⟨rfl, ?_⟩
  have empty : ((state.attach attachment server).setCell cell ⟨attachment, some task⟩).onAttachment attachment = [] :=
    onAttachment_fresh unwritten
  rw [empty]
  exact List.not_mem_nil

/-- A task that is not over may be given up. -/
theorem sound_giveUp (sound : Sound state) (here : state.tasks task = some known)
    (running : Not known.phase.Bad) : Sound (state.finish task known .givenUp) := by
  refine sound.finish here running ⟨rfl, not_false, fun _ impossible => by cases impossible⟩ ?_ (fun _ => trivial) ?_
  · intro other value line _ _ _ impossible
    cases impossible
  · intro _ impossible
    cases impossible

end Changes

section Turns

variable {state : ConsoleState}

theorem sound_begin (sound : Sound state) (task : Nat) (server : Text) (work : Work) :
    Sound (takeTurn state (.begin task server work)) := by
  rw [takeTurn.eq_def]
  dsimp only
  split
  · exact sound
  · next free => exact ⟨kept_begin sound.kept server work, lined_begin sound.lined free server work⟩

theorem sound_findTurn (sound : Sound state) (task : Nat) : Sound (takeTurn state (.find task)) := by
  rw [takeTurn.eq_def]
  dsimp only
  split
  · next here => exact sound_find sound here
  · exact sound

theorem sound_started (sound : Sound state) (task : Nat) (ok : Bool) : Sound (takeTurn state (.started task ok)) := by
  rw [takeTurn.eq_def]
  dsimp only
  split
  · next here =>
      cases ok with
      | true =>
          exact sound.moveLoose here rfl trivial not_false (fun _ => trivial) (fun impossible => by cases impossible)
      | false =>
          exact sound.moveLoose here rfl trivial not_false False.elim (fun impossible => by cases impossible)
  · exact sound

theorem sound_attach (sound : Sound state) (task : Nat) (made : Option Nat) :
    Sound (takeTurn state (.attach task made)) := by
  rw [takeTurn.eq_def]
  dsimp only
  split
  · next here =>
      exact sound.moveLoose here rfl trivial not_false False.elim (fun impossible => by cases impossible)
  · next server work attachment here =>
      split
      · exact sound
      · next fresh =>
          refine ⟨@kept_inserting state task attachment ⟨server, work, .attaching⟩ sound.kept sound.lined fresh,
            lined_moveTo (lined_attach sound.lined server fresh) here ⟨fun _ => trivial, ?_, not_false, ?_, ?_⟩⟩
          · intro cell again written value impossible
            cases impossible
          · intro cell value line _ _ impossible
            cases impossible
          · intro line impossible
            cases impossible
  · exact sound

theorem sound_insertTurn (sound : Sound state) (task cell : Nat) : Sound (takeTurn state (.insert task cell)) := by
  rw [takeTurn.eq_def]
  dsimp only
  split
  · next here =>
      split
      · exact sound
      · next free => exact sound_insert sound here free
  · exact sound

theorem sound_lockTurn (sound : Sound state) (task : Nat) : Sound (takeTurn state (.lock task)) := by
  rw [takeTurn.eq_def]
  dsimp only
  split
  · next here =>
      split
      · next located => exact sound_lock sound here located
      · exact sound
  · exact sound

theorem sound_check (sound : Sound state) (task : Nat) (finished : Bool) :
    Sound (takeTurn state (.check task finished)) := by
  rw [takeTurn.eq_def]
  dsimp only
  split
  · next cell here =>
      cases finished with
      | true =>
          refine sound.moveLocked here rfl rfl rfl (fun _ => trivial) not_false ?_
          intro other again written value impossible
          cases impossible
      | false =>
          refine sound.moveLocked here rfl rfl rfl False.elim not_false ?_
          intro other again written value writing located
          cases writing
          exact ⟨rfl, not_writer (sound.lined.early task _ here trivial) _⟩
  · exact sound

theorem sound_reattachTurn (sound : Sound state) (task : Nat) (made : Option Nat) :
    Sound (takeTurn state (.reattach task made)) := by
  rw [takeTurn.eq_def]
  dsimp only
  split
  · next here =>
      refine sound.finish here not_false ⟨rfl, not_false, fun _ impossible => by cases impossible⟩ ?_
        (fun _ => rfl) ?_
      · intro other value line _ _ _ impossible
        cases impossible
      · intro _ impossible
        cases impossible
  · next here =>
      split
      · exact sound
      · next fresh => exact sound_reattach sound here fresh
  · exact sound

theorem sound_take (sound : Sound state) (task count : Nat) : Sound (takeTurn state (.take task count)) := by
  rw [takeTurn.eq_def]
  dsimp only
  split
  · next server line cell again written here =>
      split
      · next value located =>
          split
          · next enough =>
              rw [Bool.and_eq_true, decide_eq_true_eq, decide_eq_true_eq] at enough
              refine ⟨kept_moveTo (kept_take sound.kept located _) ?_ ?_ ?_,
                lined_taking sound.kept sound.lined ⟨here, located⟩ enough.2⟩
              · intro other held
                exact sound.kept.holders task _ other here held
              · intro other reached
                exact sound.kept.reached task _ other here reached
              · intro attachment impossible
                cases impossible
          · exact sound
      · exact sound
  · exact sound

theorem sound_written (sound : Sound state) (task : Nat) (ok : Bool) : Sound (takeTurn state (.written task ok)) := by
  rw [takeTurn.eq_def]
  dsimp only
  split
  · next here => exact sound_concludeWrite sound here
  · exact sound

theorem sound_giveUpTurn (sound : Sound state) (task : Nat) : Sound (takeTurn state (.giveUp task)) := by
  rw [takeTurn.eq_def]
  dsimp only
  split
  · exact sound
  · exact sound
  · next known notEnded notGivenUp here =>
      refine sound_giveUp sound here ?_
      intro bad
      rcases known with ⟨server, work, phase⟩
      cases phase <;> first | exact bad | exact notEnded _ _ _ rfl | exact notGivenUp _ _ rfl
  · exact sound

/-- Every turn keeps the tasks, the cells and what the attachments took in agreement. -/
theorem sound_takeTurn (sound : Sound state) (turn : Turn) : Sound (takeTurn state turn) := by
  cases turn with
  | begin task server work => exact sound_begin sound task server work
  | find task => exact sound_findTurn sound task
  | started task ok => exact sound_started sound task ok
  | attach task made => exact sound_attach sound task made
  | insert task cell => exact sound_insertTurn sound task cell
  | lock task => exact sound_lockTurn sound task
  | check task finished => exact sound_check sound task finished
  | reattach task made => exact sound_reattachTurn sound task made
  | take task count => exact sound_take sound task count
  | written task ok => exact sound_written sound task ok
  | giveUp task => exact sound_giveUpTurn sound task

end Turns

theorem sound_after (run : List Turn) : Sound (after run) :=
  @Machine.invariant _ _ takeTurn Sound (fun _ turn sound => sound_takeTurn sound turn) _ sound_noBindings run

end Bindings
end Console
end Agapornis
