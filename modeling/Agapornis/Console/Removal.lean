import Agapornis.Console.Stopping

namespace Agapornis
namespace Console

open Foundations

/-!
# What a removal ends

A removal tells the reader of the console to end before it takes the lock of the
channels, and takes that before the lock of the histories.  A reader that was
told to end may still hold one of these locks; once the removal has had both of
them the reader cannot publish any more, whatever is made under the same id
afterwards.
-/

variable {Line : Type}

/-- The line that a reader has in hand. -/
def Stage.line : Stage Line -> Option Line
  | .prepared line => line
  | .admitted line | .inHistory line | .pushing line => some line
  | .pushed entry | .inSenders entry | .sending entry => some entry.line
  | _ => none

def Stage.holdsHistory : Stage Line -> Bool
  | .inHistory _ | .pushing _ => true
  | _ => false

def Stage.holdsSenders : Stage Line -> Bool
  | .inSenders _ | .sending _ => true
  | _ => false

/-- The line that an operation has in hand. -/
def Effect.line : Effect Line -> Option Line
  | .push _ line => some line
  | .send _ entry => some entry.line
  | _ => none

namespace Generations

/-- Who holds which lock, and whose lines are in hand. -/
structure Orderly [LineText Line] (state : Generations Line) : Prop where
  living : state.hub.Living
  sound : state.hub.history.Sound
  history : forall task, (state.stages task).holdsHistory = true -> state.historyHeld = some task
  senders : forall task, (state.stages task).holdsSenders = true -> state.sendersHeld = some task
  own : forall task line, (state.stages task).line = some line -> line.reader = some task
  agents : forall rest, rest ∈ state.pending -> forall line, rest.line = some line -> line.reader = none

theorem orderly_start [LineText Line] (docker : Bool) (maxActiveReaders maximumBytes : Nat) :
    Orderly (start docker maxActiveReaders maximumBytes : Generations Line) where
  living {task reader} found := by
    change ([] : List ReaderTask)[task]? = some reader at found
    rw [List.getElem?_nil] at found
    cases found
  sound := HistoryCache.sound_withMaximum maximumBytes
  history _ := nofun
  senders _ := nofun
  own _ _ := nofun
  agents _ := nofun

/-- The effects that an operation leaves have lines of the agent. -/
theorem agents_begin [LineText Line] (hub : ConsoleHub (Printed Line)) (action : HubAction Line) :
    forall rest, rest ∈ (hub.begin (ofAgent action)).2 -> forall line, rest.line = some line ->
      line.reader = none := by
  have discards : forall (first second : Effect (Printed Line)), first.line = none -> second.line = none ->
      forall rest, rest ∈ [first, second] -> forall line, rest.line = some line -> line.reader = none := by
    intro first second one other rest member line held
    simp only [List.mem_cons, List.not_mem_nil, or_false] at member
    rcases member with same | same
    · rw [same, one] at held
      cases held
    · rw [same, other] at held
      cases held
  have silent : forall rest, rest ∈ ([] : List (Effect (Printed Line))) -> forall line, rest.line = some line ->
      line.reader = none :=
    fun rest member => absurd member List.not_mem_nil
  cases action with
  | synchronize serverIds =>
      rw [ofAgent, ConsoleHub.begin]
      split
      · exact silent
      · split
        · exact silent
        · dsimp only
          split
          · exact silent
          · exact discards _ _ rfl rfl
  | subscribe id =>
      rw [ofAgent, ConsoleHub.begin]
      split
      · exact silent
      · split
        · exact silent
        · intro rest member line held
          rw [List.mem_singleton.mp member] at held
          cases held
  | publish id line =>
      rw [ofAgent, ConsoleHub.begin.eq_def]
      cases line with
      | none =>
          dsimp only [Option.map_none]
          split <;> exact silent
      | some text =>
          dsimp only [Option.map_some]
          split
          · exact silent
          · intro rest member line held
            rw [List.mem_singleton.mp member] at held
            cases held
            rfl
  | remove id => exact discards _ _ rfl rfl
  | retire task =>
      rw [ofAgent, ConsoleHub.begin]
      split
      · exact silent
      · split
        · dsimp only
          split
          · split
            · exact silent
            · exact discards _ _ rfl rfl
          · exact silent
        · exact silent
  | track id => exact silent
  | refresh id => exact silent
  | snapshot id => exact silent
  | disconnect channel => exact silent
  | closed task => exact silent
  | viewerWoken task => exact silent
  | timer task => exact silent
  | finish task => exact silent
  | line task line => exact silent

/-- A reader that moves to another stage. -/
theorem Orderly.enter [LineText Line] {state next : Generations Line} (orderly : Orderly state) {task : Nat}
    {stage : Stage (Printed Line)} (living : next.hub.Living) (sound : next.hub.history.Sound)
    (pending : next.pending = state.pending)
    (stages : next.stages = Function.update state.stages task stage)
    (own : forall line, stage.line = some line -> line.reader = some task)
    (history : stage.holdsHistory = true -> next.historyHeld = some task)
    (historyOf : forall other, Not (other = task) -> state.historyHeld = some other ->
      next.historyHeld = some other)
    (senders : stage.holdsSenders = true -> next.sendersHeld = some task)
    (sendersOf : forall other, Not (other = task) -> state.sendersHeld = some other ->
      next.sendersHeld = some other) : Orderly next where
  living := living
  sound := sound
  history other held := by
    rw [stages] at held
    by_cases same : other = task
    · subst same
      rw [Function.update_self] at held
      exact history held
    · rw [Function.update_of_ne same] at held
      exact historyOf other same (orderly.history other held)
  senders other held := by
    rw [stages] at held
    by_cases same : other = task
    · subst same
      rw [Function.update_self] at held
      exact senders held
    · rw [Function.update_of_ne same] at held
      exact sendersOf other same (orderly.senders other held)
  own other line held := by
    rw [stages] at held
    by_cases same : other = task
    · subst same
      rw [Function.update_self] at held
      exact own line held
    · rw [Function.update_of_ne same] at held
      exact orderly.own other line held
  agents := by
    rw [pending]
    exact orderly.agents

/-- A broadcast touches only what is kept of broadcasts. -/
theorem broadcast_eq (state : Generations Line) (id : Text) (entry : ConsoleEntry (Printed Line)) :
    Exists fun sent => state.broadcast id entry = { state with broadcasts := state.broadcasts ++ sent } /\
      forall channel line, (channel, line) ∈ sent -> line = entry.line := by
  rw [broadcast]
  split
  · exact ⟨[], by rw [List.append_nil], nofun⟩
  · refine ⟨_, rfl, ?_⟩
    intro channel line member
    cases List.mem_singleton.mp member
    rfl

theorem orderly_advance [LineText Line] {state : Generations Line} (orderly : Orderly state) (task : Nat) :
    Orderly (state.advance task) := by
  have own := orderly.own task
  have unheld : forall {held : Option Nat}, held.isNone = true ->
      forall other, held = some other -> some task = some other := by
    intro held free other found
    rw [found] at free
    cases free
  have released : forall {held : Option Nat}, held = some task ->
      forall other, Not (other = task) -> held = some other -> none = some other := by
    intro held here other different found
    cases here.symm.trans found
    exact absurd rfl different
  rw [advance]
  cases stage : state.stages task with
  | resting => exact orderly
  | prepared line =>
      rw [stage] at own
      dsimp only
      split
      · cases line with
        | none =>
            exact orderly.enter orderly.living orderly.sound rfl rfl nofun nofun (fun _ _ held => held)
              nofun (fun _ _ held => held)
        | some line =>
            exact orderly.enter orderly.living orderly.sound rfl rfl own nofun (fun _ _ held => held)
              nofun (fun _ _ held => held)
      · exact orderly.enter orderly.living orderly.sound rfl rfl nofun nofun (fun _ _ held => held)
          nofun (fun _ _ held => held)
  | admitted line =>
      rw [stage] at own
      dsimp only
      split
      · next free =>
          exact orderly.enter orderly.living orderly.sound rfl rfl own (fun _ => rfl)
            (fun other _ => unheld free other) nofun (fun _ _ held => held)
      · exact orderly
  | inHistory line =>
      have here := orderly.history task (by rw [stage]; rfl)
      rw [stage] at own
      dsimp only
      split
      · exact orderly.enter orderly.living orderly.sound rfl rfl own (fun _ => here)
          (fun _ _ held => held) nofun (fun _ _ held => held)
      · exact orderly.enter orderly.living orderly.sound rfl rfl nofun nofun (released here)
          nofun (fun _ _ held => held)
  | pushing line =>
      have here := orderly.history task (by rw [stage]; rfl)
      rw [stage] at own
      exact orderly.enter orderly.living (HistoryCache.push_spec orderly.sound _ line).1 rfl rfl own
        nofun (released here) nofun (fun _ _ held => held)
  | pushed entry =>
      rw [stage] at own
      dsimp only
      split
      · next free =>
          exact orderly.enter orderly.living orderly.sound rfl rfl own nofun (fun _ _ held => held)
            (fun _ => rfl) (fun other _ => unheld free other)
      · exact orderly
  | inSenders entry =>
      have here := orderly.senders task (by rw [stage]; rfl)
      rw [stage] at own
      dsimp only
      split
      · exact orderly.enter orderly.living orderly.sound rfl rfl own nofun (fun _ _ held => held)
          (fun _ => here) (fun _ _ held => held)
      · exact orderly.enter orderly.living orderly.sound rfl rfl nofun nofun (fun _ _ held => held)
          nofun (released here)
  | sending entry =>
      have here := orderly.senders task (by rw [stage]; rfl)
      rcases broadcast_eq state (state.serverOf task) entry with ⟨sent, same, _⟩
      simp only [same]
      exact orderly.enter orderly.living orderly.sound rfl rfl nofun nofun (fun _ _ held => held)
        nofun (released here)
  | published =>
      dsimp only
      split
      · exact orderly.enter orderly.living orderly.sound rfl rfl nofun nofun (fun _ _ held => held)
          nofun (fun _ _ held => held)
      · exact orderly.enter orderly.living orderly.sound rfl rfl nofun nofun (fun _ _ held => held)
          nofun (fun _ _ held => held)
  | stale => exact orderly

theorem tame_effect [LineText Line] (hub : ConsoleHub (Printed Line)) {rest : Effect (Printed Line)}
    (agent : forall line, rest.line = some line -> line.reader = none) :
    HistoryCache.Tame hub.history (hub.effect rest).history := by
  cases rest with
  | attach id =>
      have opened : (hub.openSender id).2.history = hub.history := by
        rw [ConsoleHub.openSender]
        split <;> rfl
      rw [ConsoleHub.effect, ConsoleHub.history_ensureReaderLocked]
      change HistoryCache.Tame hub.history (hub.openSender id).2.history
      rw [opened]
      exact HistoryCache.Tame.refl hub.history
  | discardSenders ids => exact HistoryCache.Tame.refl hub.history
  | discardUnheard id channel => exact HistoryCache.Tame.refl hub.history
  | discardHistories ids =>
      exact ⟨HistoryCache.removeAll_sound ids, fun _ _ _ lacks => lacks.removeAll ids⟩
  | push id line => exact HistoryCache.tame_push hub.history id (agent line rfl)
  | send id entry => exact HistoryCache.Tame.refl hub.history

/-- What the next effect of an operation does. -/
theorem perform_eq [LineText Line] (state : Generations Line) (rest : Effect (Printed Line)) :
    Exists fun left => Exists fun pushed => Exists fun sent =>
      state.perform rest = { state with
        hub := state.hub.effect rest
        pending := left ++ state.pending
        pushes := state.pushes ++ pushed
        broadcasts := state.broadcasts ++ sent } /\
      (forall effect, effect ∈ left -> forall line, effect.line = some line -> rest.line = some line) /\
      (forall id line, (id, line) ∈ pushed -> rest.line = some line) /\
      (forall channel line, (channel, line) ∈ sent -> rest.line = some line) := by
  have plain : forall hub : ConsoleHub (Printed Line), { state with hub := hub } =
      { state with
        hub := hub
        pending := [] ++ state.pending
        pushes := state.pushes ++ []
        broadcasts := state.broadcasts ++ [] } := by
    intro hub
    rw [List.nil_append, List.append_nil, List.append_nil]
  cases rest with
  | attach id => exact ⟨[], [], [], plain _, nofun, nofun, nofun⟩
  | discardSenders ids => exact ⟨[], [], [], plain _, nofun, nofun, nofun⟩
  | discardUnheard id channel => exact ⟨[], [], [], plain _, nofun, nofun, nofun⟩
  | discardHistories ids => exact ⟨[], [], [], plain _, nofun, nofun, nofun⟩
  | push id line =>
      refine ⟨[.send id (state.hub.history.push id line).1], [(id, line)], [], ?_, ?_, ?_, nofun⟩
      · rw [List.append_nil]
        rfl
      · intro effect member other held
        rw [List.mem_singleton.mp member] at held
        exact held
      · intro other text member
        cases List.mem_singleton.mp member
        rfl
  | send id entry =>
      rcases broadcast_eq state id entry with ⟨sent, same, lines⟩
      refine ⟨[], [], sent, ?_, nofun, nofun, ?_⟩
      · rw [perform, same, List.nil_append, List.append_nil]
        rfl
      · intro channel line member
        rw [lines channel line member]
        rfl

theorem orderly_step [LineText Line] {state : Generations Line} (orderly : Orderly state)
    (action : GenerationAction Line) : Orderly (state.step action) := by
  cases action with
  | hub action =>
      rw [step]
      split
      · have steady := ConsoleHub.steady_begin state.hub (ofAgent action)
        refine ⟨steady.living orderly.living, (ConsoleHub.tame_begin state.hub action).sound orderly.sound,
          orderly.history, orderly.senders, orderly.own, ?_⟩
        intro rest member
        rcases List.mem_append.mp member with old | new
        · exact orderly.agents rest old
        · exact agents_begin state.hub action rest new
      · exact orderly
  | proceed =>
      rw [step]
      cases pending : state.pending with
      | nil => exact orderly
      | cons first rest =>
          have agents := orderly.agents
          rw [pending] at agents
          have agent := agents first List.mem_cons_self
          dsimp only
          split
          · rcases perform_eq ({ state with pending := rest }) first with
              ⟨left, pushed, sent, same, lines, _⟩
            rw [same]
            refine ⟨(ConsoleHub.steady_effect state.hub first).living orderly.living,
              (tame_effect state.hub agent).sound orderly.sound, orderly.history, orderly.senders,
              orderly.own, ?_⟩
            intro effect member line held
            rcases List.mem_append.mp member with new | old
            · exact agent line (lines effect new line held)
            · exact agents effect (List.mem_cons_of_mem first old) line held
          · exact orderly
  | prepare task line =>
      rw [step]
      split
      · refine orderly.enter orderly.living orderly.sound rfl rfl ?_ nofun (fun _ _ held => held)
          nofun (fun _ _ held => held)
        intro prepared held
        rcases Option.map_eq_some_iff.mp held with ⟨text, _, same⟩
        rw [<- same]
      · exact orderly
  | advance task =>
      rw [step]
      split
      · exact orderly_advance orderly task
      · exact orderly

theorem orderly_after [LineText Line] (docker : Bool) (maxActiveReaders maximumBytes : Nat)
    (run : List (GenerationAction Line)) :
    Orderly ((start docker maxActiveReaders maximumBytes).after run) := by
  have keeps : forall (state : Generations Line) action, Orderly state -> Orderly (state.step action) :=
    fun _ action orderly => orderly_step orderly action
  exact Machine.invariant keeps (orderly_start docker maxActiveReaders maximumBytes) run

/-- What is left to a reader that was told to end: it may be about to broadcast
as long as it can still be heard, and about to push as long as its console is
remembered. -/
structure Quiet (task : Nat) (id : Text) (heard remembered : Bool) (state : Generations Line) : Prop where
  told : Exists fun reader => state.hub.tasks[task]? = some reader /\
    (reader.active = false \/ reader.phase = .finished)
  mute : heard = false -> forall entry, Not (state.stages task = .sending entry)
  still : remembered = false -> forall line, Not (state.stages task = .pushing line)
  lacks : remembered = false -> state.hub.history.Lacks task id

variable {task : Nat} {id : Text} {heard remembered : Bool}

/-- A reader that was told to end and still moves is not active. -/
theorem Quiet.inactive {state : Generations Line} (quiet : Quiet task id heard remembered state)
    (moves : state.hub.unfinished task = true) : state.isActive task = false := by
  rcases quiet.told with ⟨reader, held, inactive | isOver⟩
  · rw [isActive, held]
    exact inactive
  · rw [ConsoleHub.unfinished, held] at moves
    exact absurd isOver (of_decide_eq_true moves)

/-- A change of the hub by others. -/
theorem Quiet.of_hub [LineText Line] {state next : Generations Line} (orderly : Orderly state)
    (quiet : Quiet task id heard remembered state) (steady : ConsoleHub.Steady state.hub next.hub)
    (tame : HistoryCache.Tame state.hub.history next.hub.history)
    (stages : next.stages = state.stages) : Quiet task id heard remembered next where
  told := by
    rcases quiet.told with ⟨reader, held, ended⟩
    rcases steady.kept held with ⟨later, heldLater, _, active, finished⟩
    refine ⟨later, heldLater, ended.imp ?_ finished⟩
    intro inactive
    cases still : later.active with
    | false => rfl
    | true => exact (active still).symm.trans inactive
  mute free := by
    rw [stages]
    exact quiet.mute free
  still free := by
    rw [stages]
    exact quiet.still free
  lacks free := tame.lacks orderly.sound (quiet.lacks free)

/-- A reader moves to a stage in which it does not publish at once. -/
theorem Quiet.enter {state next : Generations Line} (quiet : Quiet task id heard remembered state)
    {other : Nat} {stage : Stage (Printed Line)} (hub : next.hub = state.hub)
    (stages : next.stages = Function.update state.stages other stage)
    (harmless : other = task -> (forall entry, Not (stage = .sending entry)) /\
      forall line, Not (stage = .pushing line)) : Quiet task id heard remembered next where
  told := by
    rw [hub]
    exact quiet.told
  mute free entry := by
    rw [stages]
    by_cases same : other = task
    · rw [same, Function.update_self]
      exact (harmless same).1 entry
    · rw [Function.update_of_ne (Ne.symm same)]
      exact quiet.mute free entry
  still free line := by
    rw [stages]
    by_cases same : other = task
    · rw [same, Function.update_self]
      exact (harmless same).2 line
    · rw [Function.update_of_ne (Ne.symm same)]
      exact quiet.still free line
  lacks free := by
    rw [hub]
    exact quiet.lacks free

theorem quiet_advance [LineText Line] {state : Generations Line} (orderly : Orderly state)
    (quiet : Quiet task id heard remembered state) {other : Nat}
    (moves : state.hub.unfinished other = true) :
    Quiet task id heard remembered (state.advance other) := by
  have silenced : other = task -> state.isActive other = false := by
    intro same
    subst same
    exact quiet.inactive moves
  rw [advance]
  cases stage : state.stages other with
  | resting => exact quiet
  | prepared line =>
      dsimp only
      split
      · cases line with
        | none => exact quiet.enter rfl rfl fun _ => ⟨nofun, nofun⟩
        | some line => exact quiet.enter rfl rfl fun _ => ⟨nofun, nofun⟩
      · exact quiet.enter rfl rfl fun _ => ⟨nofun, nofun⟩
  | admitted line =>
      dsimp only
      split
      · exact quiet.enter rfl rfl fun _ => ⟨nofun, nofun⟩
      · exact quiet
  | inHistory line =>
      dsimp only
      split
      · next active =>
          refine quiet.enter rfl rfl fun same => ?_
          cases (silenced same).symm.trans active
      · exact quiet.enter rfl rfl fun _ => ⟨nofun, nofun⟩
  | pushing line =>
      dsimp only
      have pushed : Quiet task id heard remembered (state.pushEntry (state.serverOf other) line).2 := by
        refine ⟨quiet.told, quiet.mute, quiet.still, ?_⟩
        intro free
        apply (quiet.lacks free).push orderly.sound
        intro mine
        have own := orderly.own other line (by rw [stage]; rfl)
        have same : other = task := Option.some.inj (own.symm.trans mine)
        subst same
        exact quiet.still free line stage
      exact pushed.enter rfl rfl fun _ => ⟨nofun, nofun⟩
  | pushed entry =>
      dsimp only
      split
      · exact quiet.enter rfl rfl fun _ => ⟨nofun, nofun⟩
      · exact quiet
  | inSenders entry =>
      dsimp only
      split
      · next active =>
          refine quiet.enter rfl rfl fun same => ?_
          cases (silenced same).symm.trans active
      · exact quiet.enter rfl rfl fun _ => ⟨nofun, nofun⟩
  | sending entry =>
      rcases broadcast_eq state (state.serverOf other) entry with ⟨sent, same, _⟩
      simp only [same]
      exact quiet.enter rfl rfl fun _ => ⟨nofun, nofun⟩
  | published =>
      dsimp only
      split
      · exact quiet.enter rfl rfl fun _ => ⟨nofun, nofun⟩
      · exact quiet.enter rfl rfl fun _ => ⟨nofun, nofun⟩
  | stale => exact quiet

/-- A reader that was told to end gets no further. -/
theorem quiet_step [LineText Line] {state : Generations Line} (orderly : Orderly state)
    (quiet : Quiet task id heard remembered state) (action : GenerationAction Line) :
    Quiet task id heard remembered (state.step action) := by
  cases action with
  | hub action =>
      rw [step]
      split
      · exact quiet.of_hub orderly (ConsoleHub.steady_begin state.hub (ofAgent action))
          (ConsoleHub.tame_begin state.hub action) rfl
      · exact quiet
  | proceed =>
      rw [step]
      cases pending : state.pending with
      | nil => exact quiet
      | cons first rest =>
          have agent := orderly.agents
          rw [pending] at agent
          dsimp only
          split
          · rcases perform_eq ({ state with pending := rest }) first with ⟨left, pushed, sent, same, _⟩
            rw [same]
            exact quiet.of_hub orderly (ConsoleHub.steady_effect state.hub first)
              (tame_effect state.hub (agent first List.mem_cons_self)) rfl
          · exact quiet
  | prepare other line =>
      rw [step]
      split
      · exact quiet.enter rfl rfl fun _ => ⟨nofun, nofun⟩
      · exact quiet
  | advance other =>
      rw [step]
      split
      · next moves => exact quiet_advance orderly quiet moves
      · exact quiet

/-- What a reader has pushed. -/
def pushesOf (state : Generations Line) (task : Nat) : List (Text × Printed Line) :=
  state.pushes.filter fun push => push.2.reader = some task

/-- What a reader has broadcast. -/
def broadcastsOf (state : Generations Line) (task : Nat) : List (Nat × Printed Line) :=
  state.broadcasts.filter fun broadcast => broadcast.2.reader = some task

/-- What a reader's step adds to what is pushed and broadcast. -/
theorem advance_adds [LineText Line] (state : Generations Line) (task : Nat) :
    Exists fun pushed => Exists fun sent =>
      (state.advance task).pushes = state.pushes ++ pushed /\
      (state.advance task).broadcasts = state.broadcasts ++ sent /\
      (forall id line, (id, line) ∈ pushed -> state.stages task = .pushing line) /\
      forall channel line, (channel, line) ∈ sent ->
        Exists fun entry => state.stages task = .sending entry /\ line = entry.line := by
  have nothing : forall {stage : Stage (Printed Line)} {next : Generations Line},
      next.pushes = state.pushes -> next.broadcasts = state.broadcasts ->
      Exists fun pushed => Exists fun sent =>
        next.pushes = state.pushes ++ pushed /\ next.broadcasts = state.broadcasts ++ sent /\
        (forall id line, (id, line) ∈ pushed -> stage = .pushing line) /\
        forall channel line, (channel, line) ∈ sent ->
          Exists fun entry => stage = .sending entry /\ line = entry.line := by
    intro stage next pushes broadcasts
    exact ⟨[], [], by rw [pushes, List.append_nil], by rw [broadcasts, List.append_nil], nofun, nofun⟩
  rw [advance]
  cases stage : state.stages task with
  | resting => exact nothing rfl rfl
  | prepared line =>
      dsimp only
      split
      · cases line <;> exact nothing rfl rfl
      · exact nothing rfl rfl
  | admitted line =>
      dsimp only
      split <;> exact nothing rfl rfl
  | inHistory line =>
      dsimp only
      split <;> exact nothing rfl rfl
  | pushing line =>
      refine ⟨[(state.serverOf task, line)], [], rfl, (List.append_nil _).symm, ?_, nofun⟩
      intro id other member
      cases List.mem_singleton.mp member
      rfl
  | pushed entry =>
      dsimp only
      split <;> exact nothing rfl rfl
  | inSenders entry =>
      dsimp only
      split <;> exact nothing rfl rfl
  | sending entry =>
      rcases broadcast_eq state (state.serverOf task) entry with ⟨sent, same, lines⟩
      refine ⟨[], sent, ?_, ?_, nofun, fun channel line member => ⟨entry, rfl, lines channel line member⟩⟩
      · simp only [same, enter, List.append_nil]
      · simp only [same, enter]
  | published =>
      dsimp only
      split <;> exact nothing rfl rfl
  | stale => exact nothing rfl rfl

theorem filter_append_of_foreign {Place : Type} {task : Nat} {log added : List (Place × Printed Line)}
    (foreign : forall place line, (place, line) ∈ added -> Not (line.reader = some task)) :
    ((log ++ added).filter fun item => item.2.reader = some task) =
      log.filter fun item => item.2.reader = some task := by
  have none : (added.filter fun item => item.2.reader = some task) = [] := by
    rw [List.filter_eq_nil_iff]
    intro item member
    rw [decide_eq_true_eq]
    exact foreign item.1 item.2 member
  rw [List.filter_append, none, List.append_nil]

/-- A reader of which nothing is left publishes nothing. -/
theorem silent_step [LineText Line] {state : Generations Line} (orderly : Orderly state)
    (quiet : Quiet task id false false state) (action : GenerationAction Line) :
    (state.step action).pushesOf task = state.pushesOf task /\
      (state.step action).broadcastsOf task = state.broadcastsOf task := by
  cases action with
  | hub action =>
      rw [step]
      split <;> exact ⟨rfl, rfl⟩
  | proceed =>
      rw [step]
      cases pending : state.pending with
      | nil => exact ⟨rfl, rfl⟩
      | cons first rest =>
          have agent := orderly.agents
          rw [pending] at agent
          have nobody : forall line, first.line = some line -> Not (line.reader = some task) := by
            intro line held
            rw [agent first List.mem_cons_self line held]
            nofun
          dsimp only
          split
          · rcases perform_eq ({ state with pending := rest }) first with
              ⟨left, pushed, sent, same, _, pushes, broadcasts⟩
            rw [same]
            exact ⟨filter_append_of_foreign fun place line member => nobody line (pushes place line member),
              filter_append_of_foreign fun place line member => nobody line (broadcasts place line member)⟩
          · exact ⟨rfl, rfl⟩
  | prepare other line =>
      rw [step]
      split <;> exact ⟨rfl, rfl⟩
  | advance other =>
      rw [step]
      split
      · rcases advance_adds state other with ⟨pushed, sent, pushes, broadcasts, pushing, sending⟩
        rw [pushesOf, broadcastsOf, pushes, broadcasts]
        constructor
        · apply filter_append_of_foreign
          intro place line member mine
          have stage := pushing place line member
          have own := orderly.own other line (by rw [stage]; rfl)
          cases own.symm.trans mine
          exact quiet.still rfl line stage
        · apply filter_append_of_foreign
          intro place line member mine
          rcases sending place line member with ⟨entry, stage, same⟩
          subst same
          have own := orderly.own other entry.line (by rw [stage]; rfl)
          cases own.symm.trans mine
          exact quiet.mute rfl entry stage
      · exact ⟨rfl, rfl⟩

/-- How far a removal is, as an old reader of the console sees it. -/
inductive Removal (task : Nat) (id : Text) (state : Generations Line) : Prop where
  | begun (pending : state.pending = [.discardSenders [id], .discardHistories [id]])
      (quiet : Quiet task id true true state)
  | unheard (pending : state.pending = [.discardHistories [id]]) (quiet : Quiet task id false true state)
  | completed (quiet : Quiet task id false false state)

@[simp] theorem advance_pending [LineText Line] (state : Generations Line) (task : Nat) :
    (state.advance task).pending = state.pending := by
  rw [advance]
  cases state.stages task with
  | prepared line =>
      dsimp only
      split
      · cases line <;> rfl
      · rfl
  | sending entry =>
      rcases broadcast_eq state (state.serverOf task) entry with ⟨sent, same, _⟩
      simp only [same, enter]
  | resting => rfl
  | pushing line => rfl
  | stale => rfl
  | _ =>
      dsimp only
      split <;> rfl

/-- While an operation is under way, another one does not begin. -/
theorem pending_step [LineText Line] {state : Generations Line} {first : Effect (Printed Line)}
    {rest : List (Effect (Printed Line))} (pending : state.pending = first :: rest)
    (action : GenerationAction Line) : (state.step action).pending = first :: rest \/
      (state.free first = true /\ state.step action = ({ state with pending := rest }).perform first) := by
  cases action with
  | hub action =>
      left
      rw [step]
      split
      · next admitted =>
          have busy : state.pending.isEmpty = false := by
            rw [pending]
            rfl
          have nothing : (state.hub.begin (ofAgent action)).2 = [] := by
            cases action with
            | snapshot id => rfl
            | disconnect channel => rfl
            | closed task => rfl
            | viewerWoken task => rfl
            | timer task => rfl
            | finish task => rfl
            | line task line => rfl
            | _ =>
                rw [admits, busy] at admitted
                cases admitted
          dsimp only
          rw [nothing, List.append_nil, pending]
      · exact pending
  | proceed =>
      rw [step, pending]
      dsimp only
      split
      · next free => exact Or.inr ⟨free, rfl⟩
      · exact Or.inl pending
  | prepare task line =>
      left
      rw [step]
      split <;> exact pending
  | advance task =>
      left
      rw [step]
      split
      · rw [advance_pending]
        exact pending
      · exact pending

theorem removal_step [LineText Line] {state : Generations Line} (orderly : Orderly state)
    (removal : Removal task id state) (action : GenerationAction Line) :
    Removal task id (state.step action) := by
  cases removal with
  | begun pending quiet =>
      have next := quiet_step orderly quiet action
      rcases pending_step pending action with same | ⟨free, performed⟩
      · exact .begun same next
      · refine .unheard ?_ ⟨next.told, ?_, nofun, nofun⟩
        · rw [performed]
          rfl
        · intro _ entry sending
          rw [performed] at sending
          have stage : state.stages task = .sending entry := sending
          have held := orderly.senders task (by rw [stage]; rfl)
          change state.sendersHeld.isNone = true at free
          rw [held] at free
          cases free
  | unheard pending quiet =>
      have next := quiet_step orderly quiet action
      rcases pending_step pending action with same | ⟨free, performed⟩
      · exact .unheard same next
      · refine .completed ⟨next.told, next.mute, ?_, ?_⟩
        · intro _ line pushing
          rw [performed] at pushing
          have stage : state.stages task = .pushing line := pushing
          have held := orderly.history task (by rw [stage]; rfl)
          change state.historyHeld.isNone = true at free
          rw [held] at free
          cases free
        · intro _ history found
          rw [performed] at found
          have gone : (state.hub.history.remove id).entries.lookup id = some history := found
          rw [HistoryCache.remove_entries, AList.lookup_erase] at gone
          cases gone
  | completed quiet => exact .completed (quiet_step orderly quiet action)

/-- A removal tells the readers of its console to end. -/
theorem removal_begins [LineText Line] {state : Generations Line} (orderly : Orderly state)
    (ready : state.pending = []) {reader : ReaderTask} (old : state.hub.tasks[task]? = some reader)
    (server : reader.server = id) : Removal task id (state.step (.hub (.remove id))) := by
  have admitted : state.admits (.remove id) = true := by
    rw [admits, ready]
    rfl
  have stopped : forall hub : ConsoleHub (Printed Line), hub.tasks = state.hub.tasks ->
      hub.readers = state.hub.readers -> Exists fun later =>
        (hub.stopReader id).tasks[task]? = some later /\
          (later.active = false \/ later.phase = .finished) := by
    intro hub tasks readers
    have living : hub.Living :=
      (ConsoleHub.Steady.of_same tasks readers).living orderly.living
    have held : hub.tasks[task]? = some reader := by rw [tasks, old]
    rcases (ConsoleHub.steady_stopReader hub id).kept held with ⟨later, heldLater, _, active, finished⟩
    refine ⟨later, heldLater, ?_⟩
    by_cases isOver : reader.phase = .finished
    · exact Or.inr (finished isOver)
    · left
      cases still : later.active with
      | false => rfl
      | true =>
          have registered := living held (active still) isOver
          rw [server] at registered
          rw [ConsoleHub.stopReader, registered] at heldLater
          rcases ConsoleHub.getElem?_modify_some heldLater with ⟨before, _, same⟩
          rw [if_pos rfl] at same
          rw [same] at still
          cases still
  refine .begun ?_ ⟨?_, fun impossible => (by cases impossible), fun impossible => (by cases impossible),
    fun impossible => (by cases impossible)⟩
  · rw [step, if_pos admitted, ready]
    rfl
  · rw [step, if_pos admitted]
    apply stopped
    · dsimp only
      split <;> rfl
    · dsimp only
      split <;> rfl

theorem removal_after [LineText Line] {state : Generations Line} (orderly : Orderly state)
    (removal : Removal task id state) (run : List (GenerationAction Line)) :
    Orderly (state.after run) /\ Removal task id (state.after run) := by
  have keeps : forall (state : Generations Line) action, Orderly state /\ Removal task id state ->
      Orderly (state.step action) /\ Removal task id (state.step action) :=
    fun _ action holds => ⟨orderly_step holds.1 action, removal_step holds.1 holds.2 action⟩
  exact Machine.invariant keeps ⟨orderly, removal⟩ run

theorem silent_after [LineText Line] {state : Generations Line} (orderly : Orderly state)
    (quiet : Quiet task id false false state) (run : List (GenerationAction Line)) :
    (state.after run).pushesOf task = state.pushesOf task /\
      (state.after run).broadcastsOf task = state.broadcastsOf task /\
      (state.after run).hub.history.Lacks task id := by
  induction run generalizing state with
  | nil => exact ⟨rfl, rfl, quiet.lacks rfl⟩
  | cons action rest induction =>
      have silent := silent_step orderly quiet action
      rcases induction (orderly_step orderly action) (quiet_step orderly quiet action) with
        ⟨pushes, broadcasts, lacks⟩
      exact ⟨pushes.trans silent.1, broadcasts.trans silent.2, lacks⟩

/-- Once a removal is complete, the readers that the console had before it push
and broadcast nothing more, and the console's history has no line of theirs. -/
theorem removed_reader_silent [LineText Line] (docker : Bool) (maxActiveReaders maximumBytes : Nat)
    (before during later : List (GenerationAction Line)) (id : Text) (task : Nat) (reader : ReaderTask)
    (ready : ((start docker maxActiveReaders maximumBytes).after before).pending = [])
    (old : ((start docker maxActiveReaders maximumBytes).after before).hub.tasks[task]? = some reader)
    (server : reader.server = id)
    (complete : ((start docker maxActiveReaders maximumBytes).after
      (before ++ .hub (.remove id) :: during)).pending = []) :
    ((start docker maxActiveReaders maximumBytes).after
        (before ++ .hub (.remove id) :: during ++ later)).pushesOf task =
      ((start docker maxActiveReaders maximumBytes).after
        (before ++ .hub (.remove id) :: during)).pushesOf task /\
    ((start docker maxActiveReaders maximumBytes).after
        (before ++ .hub (.remove id) :: during ++ later)).broadcastsOf task =
      ((start docker maxActiveReaders maximumBytes).after
        (before ++ .hub (.remove id) :: during)).broadcastsOf task /\
    ((start docker maxActiveReaders maximumBytes).after
        (before ++ .hub (.remove id) :: during ++ later)).hub.history.Lacks task id := by
  have orderly := orderly_after docker maxActiveReaders maximumBytes before
  have removed := removal_after (orderly_step orderly (.hub (.remove id)))
    (removal_begins orderly ready old server) during
  have reached : (start docker maxActiveReaders maximumBytes).after (before ++ .hub (.remove id) :: during) =
      (((start docker maxActiveReaders maximumBytes).after before).step (.hub (.remove id))).after during :=
    Machine.reach_append _ _ _ _
  have further : (start docker maxActiveReaders maximumBytes).after
      (before ++ .hub (.remove id) :: during ++ later) =
        ((start docker maxActiveReaders maximumBytes).after
          (before ++ .hub (.remove id) :: during)).after later :=
    Machine.reach_append _ _ _ _
  rw [further, reached]
  rw [reached] at complete
  cases removed.2 with
  | begun pending _ => cases complete.symm.trans pending
  | unheard pending _ => cases complete.symm.trans pending
  | completed quiet => exact silent_after removed.1 quiet later

/-- A reader that has pushed a line and waits for the channels. -/
def beforeRemoval : List (GenerationAction Text) :=
  [.hub (.synchronize [['s']]), .hub (.subscribe ['s']), .proceed, .prepare 0 (some ['x']),
    .advance 0, .advance 0, .advance 0, .advance 0]

/-- It finds itself stopped between the two effects of the removal. -/
def duringRemoval : List (GenerationAction Text) :=
  [.proceed, .advance 0, .advance 0, .proceed]

theorem removed_reader_silent_recreated :
    ((start true 256 (1024 * 1024)).after (beforeRemoval ++ .hub (.remove ['s']) :: duringRemoval ++
        [.hub (.track ['s']), .hub (.subscribe ['s']), .proceed, .advance 0])).hub.history.Lacks 0 ['s'] :=
  (removed_reader_silent true 256 (1024 * 1024) beforeRemoval duringRemoval _ ['s'] 0
    { server := ['s'], channel := 0 } (by decide) (by decide) rfl (by decide)).2.2

end Generations

end Console
end Agapornis
