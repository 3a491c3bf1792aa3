import Agapornis.Console.Sequences
import Mathlib.Data.List.Perm.Basic
import Mathlib.Data.List.Nodup

namespace Agapornis
namespace Console

open Foundations

/-!
# What reaches a viewer

A viewer's receiver is installed first and the history is replayed to it later;
a publisher pushes a line into the history first and broadcasts it later.  The
steps of all of them interleave.  The viewer is sent the replayed lines, and of
what its channel brings the entries above the last sequence replayed.

Lines are numbered as they are published, so that equal texts can be told
apart; the code sees their texts only.
-/

structure Publication where
  number : Nat
  text : Text
  deriving DecidableEq, Repr

instance : LineText Publication where
  len publication := LineText.len publication.text

def consoleBroadcastCapacity : Nat := 64

/-- One viewer of a console among publishers of all consoles.  The rows in
flight are pushed and not yet broadcast.  What is kept for the statements only
is everything published, and of the viewer's console what was pushed and what
was broadcast since its receiver was installed. -/
structure Viewing where
  history : HistoryCache Publication
  inFlight : List (Text × ConsoleEntry Publication) := []
  installed : Bool := false
  waiting : List (ConsoleEntry Publication) := []
  received : List (ConsoleEntry Publication) := []
  replay : Option (List Publication × Nat) := none
  published : List (Text × ConsoleEntry Publication) := []
  since : List (ConsoleEntry Publication) := []
  sent : List (ConsoleEntry Publication) := []

inductive ViewAction where
  /-- A publisher pushes a line into the history. -/
  | push (target text : Text)
  /-- A publisher sends what it has pushed. -/
  | broadcast (position : Nat)
  /-- A publisher stops between its push and its broadcast. -/
  | abandon (position : Nat)
  /-- Another viewer takes its snapshot. -/
  | snapshot (target : Text)
  /-- A server is removed. -/
  | remove (target : Text)
  /-- The receiver is installed. -/
  | install
  /-- The viewer takes its snapshot. -/
  | replay
  /-- The viewer takes the next entry from its channel. -/
  | receive
  deriving DecidableEq

/-- A full channel drops its oldest entry. -/
def enqueue {Line : Type} (waiting : List (ConsoleEntry Line)) (entry : ConsoleEntry Line) : List (ConsoleEntry Line) :=
  if waiting.length < consoleBroadcastCapacity then waiting ++ [entry]
  else (waiting ++ [entry]).tail

namespace Viewing

def start (maximumBytes : Nat) : Viewing where
  history := .withMaximum maximumBytes

/-- One step of a publisher, of another viewer or of the viewer of a console. -/
def step (id : Text) (state : Viewing) : ViewAction -> Viewing
  | .push target text =>
      let pushed := state.history.push target ⟨state.published.length, text⟩
      { state with
        history := pushed.2
        inFlight := state.inFlight ++ [(target, pushed.1)]
        published := state.published ++ [(target, pushed.1)]
        since := if state.installed && target = id then state.since ++ [pushed.1] else state.since }
  | .broadcast position =>
      match state.inFlight[position]? with
      | none => state
      | some (target, entry) =>
          if state.installed && target = id then
            { state with
              inFlight := state.inFlight.eraseIdx position
              waiting := enqueue state.waiting entry
              sent := state.sent ++ [entry] }
          else { state with inFlight := state.inFlight.eraseIdx position }
  | .abandon position => { state with inFlight := state.inFlight.eraseIdx position }
  | .snapshot target => { state with history := (state.history.snapshot target).2 }
  | .remove target => { state with history := state.history.remove target }
  | .install => { state with installed := true }
  | .replay =>
      if state.installed && state.replay.isNone then
        { state with
          history := (state.history.snapshot id).2
          replay := some (state.history.snapshot id).1 }
      else state
  | .receive =>
      match state.replay, state.waiting with
      | some _, entry :: rest =>
          { state with waiting := rest, received := state.received ++ [entry] }
      | _, _ => state

abbrev after (id : Text) (state : Viewing) (run : List ViewAction) : Viewing :=
  Machine.reach (step id) state run

/-- What the viewer is sent: the lines replayed, and what its channel has brought
and still holds as far as it passes the filter. -/
def reached (state : Viewing) : List Publication :=
  match state.replay with
  | none => []
  | some (lines, replayedThrough) =>
      lines ++ ((state.received ++ state.waiting).filter (passes replayedThrough)).map ConsoleEntry.line

/-- Every line pushed and broadcast since the receiver was installed reaches the
viewer once, and no line twice. -/
def MissesNothing (state : Viewing) : Prop :=
  Not (state.replay = none) ->
    (forall entry, entry ∈ state.since -> entry ∈ state.sent ->
      state.reached.count entry.line = 1) /\
    forall line, state.reached.count line <= 1

/-- The viewer's console is not removed, and its channel has room. -/
def Attended (id : Text) (state : Viewing) : ViewAction -> Prop
  | .remove target => Not (target = id)
  | .broadcast _ => state.waiting.length < consoleBroadcastCapacity
  | _ => True

/-- A line pushed to a console under a viewer finds the history of the console
still there, unless nothing of it was pushed since or replayed; the console's
counter has words left; and until the snapshot all lines pushed since the
receiver was installed fit into the history. -/
def Retained (id : Text) (state : Viewing) : ViewAction -> Prop
  | .push target text =>
      state.installed = true -> target = id ->
        state.history.counter id < largestWord /\
        (state.history.entries.lookup id = none ->
          state.since = [] /\ (state.replay.map Prod.snd).getD 0 = 0) /\
        (state.replay = none -> HistoryCache.Fits state.history.maximumBytes
          (state.since ++ [state.history.nextEntry id ⟨state.published.length, text⟩]))
  | _ => True

instance Attended.decidable (id : Text) (state : Viewing) :
    forall action, Decidable (state.Attended id action)
  | .remove target => inferInstanceAs (Decidable (Not (target = id)))
  | .broadcast _ => inferInstanceAs (Decidable (state.waiting.length < consoleBroadcastCapacity))
  | .push _ _ | .abandon _ | .snapshot _ | .install | .replay | .receive => isTrue trivial

instance Retained.decidable (id : Text) (state : Viewing) :
    forall action, Decidable (state.Retained id action)
  | .push target text => inferInstanceAs (Decidable (state.installed = true -> target = id ->
      state.history.counter id < largestWord /\
      (state.history.entries.lookup id = none ->
        state.since = [] /\ (state.replay.map Prod.snd).getD 0 = 0) /\
      (state.replay = none ->
        (state.since ++ [state.history.nextEntry id ⟨state.published.length, text⟩]).length <=
            consoleHistoryLines /\
          contentOf (state.since ++ [state.history.nextEntry id ⟨state.published.length, text⟩]) <=
            consoleHistoryBytes /\
          chargeOf (state.since ++ [state.history.nextEntry id ⟨state.published.length, text⟩]) <=
            state.history.maximumBytes)))
  | .remove _ | .broadcast _ | .abandon _ | .snapshot _ | .install | .replay | .receive => isTrue trivial

/-- What is known of the entries that a viewer deals with. -/
structure Known (id : Text) (state : Viewing) : Prop where
  sound : state.history.Sound
  numbers : state.published.map (fun row => row.2.line.number) = List.range state.published.length
  held : forall {history}, state.history.entries.lookup id = some history ->
    (history.lines.map (Prod.mk id)).Sublist state.published
  flying : forall row, row ∈ state.inFlight ++ state.sent.map (Prod.mk id) -> row ∈ state.published
  apart : (state.inFlight ++ state.sent.map (Prod.mk id)).Nodup
  recent : forall entry, entry ∈ state.since -> 0 < entry.sequence
  queued : state.sent = state.received ++ state.waiting
  quiet : state.installed = false -> state.since = [] /\ state.replay = none

/-- What the viewer's snapshot has left to its channel. -/
structure Covered (id : Text) (state : Viewing) : Prop extends Known id state where
  before : state.replay = none -> forall {history}, state.history.entries.lookup id = some history ->
    state.since <:+ history.lines
  replayed : forall {lines through}, state.replay = some (lines, through) ->
    lines.Nodup /\ (forall line, line ∈ lines -> Exists fun entry =>
      (id, entry) ∈ state.published /\ entry.line = line /\ entry.sequence <= through) /\
    (forall entry, entry ∈ state.since -> entry.line ∈ lines \/ through < entry.sequence) /\
    forall {history}, state.history.entries.lookup id = some history ->
      through <= history.nextSequence

theorem numbers_nodup {id : Text} {state : Viewing} (known : Known id state) :
    (state.published.map fun row => row.2.line.number).Nodup := by
  rw [known.numbers]
  exact List.nodup_range

/-- A publication is told by its number. -/
theorem Known.unique {id : Text} {state : Viewing} (known : Known id state)
    {one other : Text × ConsoleEntry Publication} (oneIn : one ∈ state.published)
    (otherIn : other ∈ state.published) (same : one.2.line = other.2.line) : one = other :=
  List.inj_on_of_nodup_map (numbers_nodup known) oneIn otherIn (congrArg Publication.number same)

theorem Known.number_lt {id : Text} {state : Viewing} (known : Known id state)
    {row : Text × ConsoleEntry Publication} (member : row ∈ state.published) :
    row.2.line.number < state.published.length := by
  have listed : row.2.line.number ∈ state.published.map fun row => row.2.line.number :=
    List.mem_map_of_mem member
  rw [known.numbers] at listed
  exact List.mem_range.mp listed

/-- The lines held of a console are different ones. -/
theorem Known.lines_nodup {id : Text} {state : Viewing} (known : Known id state)
    {history : ConsoleHistory Publication}
    (found : state.history.entries.lookup id = some history) :
    (history.lines.map ConsoleEntry.line).Nodup := by
  have listed := (known.held found).map (fun row => row.2.line.number)
  rw [List.map_map] at listed
  have numbers := (numbers_nodup known).sublist listed
  exact List.Nodup.of_map Publication.number (by rwa [List.map_map])

theorem nextEntry_positive (cache : HistoryCache Publication) (id : Text) (line : Publication) :
    0 < (cache.nextEntry id line).sequence := by
  simp only [HistoryCache.nextEntry, nextWord, largestWord]
  omega

/-- A history pushed to keeps an end of its lines and the new one. -/
theorem held_push {id target text : Text} {state : Viewing} (known : Known id state)
    {history : ConsoleHistory Publication}
    (found : (state.step id (.push target text)).history.entries.lookup id = some history) :
    (history.lines.map (Prod.mk id)).Sublist (state.step id (.push target text)).published := by
  simp only [step] at found ⊢
  by_cases same : id = target
  · subst same
    rcases HistoryCache.push_spec known.sound id ⟨state.published.length, text⟩ with
      ⟨_, kept, within, held, _⟩
    rw [held] at found
    cases found
    apply (within.sublist.map (Prod.mk id)).trans
    rw [HistoryCache.extended, List.map_append]
    apply List.Sublist.append _ (List.Sublist.refl _)
    cases before : state.history.entries.lookup id with
    | none => exact List.nil_sublist _
    | some old => exact known.held before
  · rcases HistoryCache.push_others state.history ⟨state.published.length, text⟩ same with kept | gone
    · rw [kept] at found
      exact (known.held found).trans (List.sublist_append_left _ _)
    · rw [gone] at found
      cases found

theorem known_push {id : Text} {state : Viewing} (known : Known id state) (target text : Text) :
    Known id (state.step id (.push target text)) where
  sound := (HistoryCache.push_spec known.sound target _).1
  numbers := by
    simp only [step, List.map_append, known.numbers, List.length_append, List.length_singleton,
      List.range_succ]
    rfl
  held := held_push known
  flying row member := by
    simp only [step, List.append_assoc] at member ⊢
    rcases List.mem_append.mp member with flying | rest
    · exact List.mem_append_left _ (known.flying row (List.mem_append_left _ flying))
    · rcases List.mem_append.mp rest with new | sent
      · exact List.mem_append_right _ new
      · exact List.mem_append_left _ (known.flying row (List.mem_append_right _ sent))
  apart := by
    simp only [step, List.append_assoc]
    refine (List.perm_middle.nodup_iff).mpr (List.nodup_cons.mpr ⟨?_, known.apart⟩)
    intro member
    have less := known.number_lt (known.flying _ member)
    exact Nat.lt_irrefl _ less
  recent entry member := by
    simp only [step] at member
    split at member
    · rcases List.mem_append.mp member with old | new
      · exact known.recent entry old
      · rw [List.mem_singleton.mp new]
        exact nextEntry_positive _ _ _
    · exact known.recent entry member
  queued := known.queued
  quiet absent := by
    have before := known.quiet absent
    simp only [step] at absent ⊢
    rw [absent]
    exact before

/-- Steps which only take rows out of flight, or away from the histories. -/
theorem known_of_less {id : Text} {state after : Viewing} (known : Known id state)
    (sound : after.history.Sound) (published : after.published = state.published)
    (held : forall {history}, after.history.entries.lookup id = some history ->
      Exists fun before => state.history.entries.lookup id = some before /\
        history.lines = before.lines)
    (inFlight : after.inFlight.Sublist state.inFlight) (sent : after.sent = state.sent)
    (since : after.since = state.since) (queued : after.sent = after.received ++ after.waiting)
    (quiet : after.installed = false -> after.since = [] /\ after.replay = none) :
    Known id after where
  sound := sound
  numbers := by
    rw [published]
    exact known.numbers
  held found := by
    rcases held found with ⟨before, foundBefore, same⟩
    rw [same, published]
    exact known.held foundBefore
  flying row member := by
    rw [published]
    apply known.flying row
    rw [sent] at member
    exact (inFlight.append (List.Sublist.refl _)).subset member
  apart := by
    rw [sent]
    exact known.apart.sublist (inFlight.append (List.Sublist.refl _))
  recent := by
    rw [since]
    exact known.recent
  queued := queued
  quiet := quiet

theorem enqueue_of_room {waiting : List (ConsoleEntry Publication)} (entry : ConsoleEntry Publication)
    (room : waiting.length < consoleBroadcastCapacity) : enqueue waiting entry = waiting ++ [entry] :=
  if_pos room

theorem known_broadcast {id : Text} {state : Viewing} (known : Known id state) {position : Nat}
    (room : state.waiting.length < consoleBroadcastCapacity) :
    Known id (state.step id (.broadcast position)) := by
  rw [step]
  split
  · exact known
  · next target entry found =>
      rcases List.getElem?_eq_some_iff.mp found with ⟨inside, row⟩
      have split := List.getElem_cons_eraseIdx_perm inside
      rw [row] at split
      split
      · next mine =>
          simp only [Bool.and_eq_true, decide_eq_true_eq] at mine
          have order : List.Perm (state.inFlight.eraseIdx position ++
              (state.sent ++ [entry]).map (Prod.mk id))
              (state.inFlight ++ state.sent.map (Prod.mk id)) := by
            rw [List.map_append, <- List.append_assoc, List.map_singleton]
            refine (List.perm_append_comm).trans ?_
            rw [List.singleton_append, <- List.cons_append, <- mine.2]
            exact split.append_right _
          refine { known with flying := ?_, apart := ?_, queued := ?_, quiet := ?_ }
          · exact fun row member => known.flying row (order.subset member)
          · exact order.nodup_iff.mpr known.apart
          · simp only
            rw [enqueue_of_room entry room, known.queued, List.append_assoc]
          · intro absent
            rw [mine.1] at absent
            cases absent
      · exact known_of_less known known.sound rfl (fun found => ⟨_, found, rfl⟩)
          (List.eraseIdx_sublist _ _) rfl rfl known.queued known.quiet

theorem snapshot_held {cache : HistoryCache Publication} {id target : Text}
    {history : ConsoleHistory Publication}
    (found : (cache.snapshot target).2.entries.lookup id = some history) :
    Exists fun before => cache.entries.lookup id = some before /\ history.lines = before.lines /\
      history.nextSequence = before.nextSequence := by
  rw [HistoryCache.snapshot_lookup, Option.map_eq_some_iff] at found
  rcases found with ⟨before, held, same⟩
  refine ⟨before, held, ?_⟩
  split at same
  · rw [<- same]
    exact ⟨rfl, rfl⟩
  · rw [<- same]
    exact ⟨rfl, rfl⟩

theorem snapshot_held_lines {cache : HistoryCache Publication} {id target : Text}
    {history : ConsoleHistory Publication}
    (found : (cache.snapshot target).2.entries.lookup id = some history) :
    Exists fun before => cache.entries.lookup id = some before /\ history.lines = before.lines := by
  rcases snapshot_held found with ⟨before, held, lines, _⟩
  exact ⟨before, held, lines⟩

theorem known_step {id : Text} {state : Viewing} (known : Known id state) {action : ViewAction}
    (attended : state.Attended id action) : Known id (state.step id action) := by
  cases action with
  | push target text => exact known_push known target text
  | broadcast position => exact known_broadcast known attended
  | abandon position =>
      exact known_of_less known known.sound rfl (fun found => ⟨_, found, rfl⟩)
        (List.eraseIdx_sublist _ _) rfl rfl known.queued known.quiet
  | snapshot target =>
      exact known_of_less known (HistoryCache.snapshot_sound known.sound target) rfl
        snapshot_held_lines (List.Sublist.refl _) rfl rfl known.queued known.quiet
  | remove target =>
      exact known_of_less known (HistoryCache.remove_sound known.sound target) rfl
        (fun found => ⟨_, HistoryCache.lookup_of_remove found, rfl⟩) (List.Sublist.refl _) rfl rfl
        known.queued known.quiet
  | install =>
      exact known_of_less known known.sound rfl (fun found => ⟨_, found, rfl⟩) (List.Sublist.refl _)
        rfl rfl known.queued nofun
  | replay =>
      rw [step]
      split
      · next ready =>
          simp only [Bool.and_eq_true] at ready
          refine known_of_less known (HistoryCache.snapshot_sound known.sound id) rfl
            snapshot_held_lines (List.Sublist.refl _) rfl rfl known.queued ?_
          intro absent
          rw [ready.1] at absent
          cases absent
      · exact known
  | receive =>
      rw [step]
      split
      · next some entry rest _ waiting =>
          refine known_of_less known known.sound rfl (fun found => ⟨_, found, rfl⟩)
            (List.Sublist.refl _) rfl rfl ?_ known.quiet
          rw [known.queued, waiting, List.append_assoc]
          rfl
      · exact known

/-- In an ordered list nothing is above the last. -/
theorem sequence_le_last {lines : List (ConsoleEntry Publication)} {entry last : ConsoleEntry Publication}
    (ordered : lines.Pairwise fun earlier later => earlier.sequence <= later.sequence)
    (final : lines.getLast? = some last) (member : entry ∈ lines) : entry.sequence <= last.sequence := by
  rcases List.getLast?_eq_some_iff.mp final with ⟨front, split⟩
  subst split
  rcases List.mem_append.mp member with early | here
  · exact (List.pairwise_append.mp ordered).2.2 entry early last List.mem_cons_self
  · rw [List.mem_singleton.mp here]

/-- What a snapshot replays, and up to which sequence. -/
theorem snapshot_covers {cache : HistoryCache Publication} (sound : cache.Sound) {id : Text}
    {history : ConsoleHistory Publication} (found : cache.entries.lookup id = some history) :
    (cache.snapshot id).1.1 = history.lines.map ConsoleEntry.line /\
      forall entry, entry ∈ history.lines -> entry.sequence <= (cache.snapshot id).1.2 := by
  simp only [HistoryCache.snapshot, found]
  refine ⟨trivial, ?_⟩
  intro entry member
  cases last : history.lines.getLast? with
  | none =>
      rw [List.getLast?_eq_none_iff.mp last] at member
      cases member
  | some final => exact sequence_le_last (sound.ordered found) last member

theorem snapshot_absent {cache : HistoryCache Publication} {id : Text}
    (absent : cache.entries.lookup id = none) : (cache.snapshot id).1 = ([], 0) := by
  simp only [HistoryCache.snapshot, absent]

theorem covered_replay {id : Text} {state : Viewing} (covered : Covered id state) :
    Covered id (state.step id .replay) := by
  have known := @known_step id state covered.toKnown .replay trivial
  rw [step] at known ⊢
  split at known
  · next ready =>
      rw [if_pos ready]
      simp only [Bool.and_eq_true, Option.isNone_iff_eq_none] at ready
      refine { known with before := nofun, replayed := ?_ }
      rintro lines through taken
      have replay : (state.history.snapshot id).1 = (lines, through) := Option.some.inj taken
      cases found : state.history.entries.lookup id with
      | none =>
          rw [snapshot_absent found] at replay
          cases replay
          refine ⟨List.nodup_nil, nofun, fun entry member => Or.inr (covered.recent entry member), ?_⟩
          exact fun _ => Nat.zero_le _
      | some history =>
          have covers := snapshot_covers covered.sound found
          have counter := HistoryCache.snapshot_le_counter covered.sound id
          rw [replay] at covers counter
          have copied : lines = history.lines.map ConsoleEntry.line := covers.1
          subst copied
          refine ⟨covered.toKnown.lines_nodup found, ?_, ?_, ?_⟩
          · intro line member
            rcases List.mem_map.mp member with ⟨entry, inside, same⟩
            refine ⟨entry, ?_, same, covers.2 entry inside⟩
            exact (covered.held found).subset (List.mem_map_of_mem inside)
          · intro entry member
            left
            exact List.mem_map_of_mem ((covered.before ready.2 found).subset member)
          · intro later foundLater
            rcases snapshot_held foundLater with ⟨before, held, _, sequence⟩
            rw [sequence]
            rw [HistoryCache.counter, held] at counter
            exact counter
  · next busy =>
      rw [if_neg busy]
      exact covered

/-- A line pushed to the viewer's console is retained, or will pass the filter. -/
theorem covered_push_own {id text : Text} {state : Viewing} (covered : Covered id state)
    (installed : state.installed = true) (retained : state.Retained id (.push id text)) :
    Covered id (state.step id (.push id text)) := by
  rcases retained installed rfl with ⟨words, lost, fits⟩
  rcases HistoryCache.push_spec covered.sound id ⟨state.published.length, text⟩ with
    ⟨_, kept, within, held, _, fitting⟩
  have since : (state.step id (.push id text)).since =
      state.since ++ [state.history.nextEntry id ⟨state.published.length, text⟩] := by
    simp only [step, installed, decide_true, Bool.and_self, if_true, HistoryCache.push_entry]
  have number : (state.history.nextEntry id ⟨state.published.length, text⟩).sequence =
      state.history.counter id + 1 :=
    HistoryCache.nextWord_of_lt words
  have written : forall {history},
      (state.step id (.push id text)).history.entries.lookup id = some history ->
      history = (state.history.extended id ⟨state.published.length, text⟩).keeping kept := by
    intro history found
    exact Option.some.inj (found.symm.trans held)
  refine { known_push covered.toKnown id text with before := ?_, replayed := ?_ }
  · intro waiting history found
    rw [written found, since]
    refine fitting _ ?_ (fits waiting)
    cases present : state.history.entries.lookup id with
    | none =>
        rw [(lost present).1]
        exact List.suffix_append _ _
    | some before =>
        rcases covered.before waiting present with ⟨front, split⟩
        refine ⟨front, ?_⟩
        rw [HistoryCache.extended, present, Option.getD_some, <- split, List.append_assoc]
  · intro lines through taken
    rcases covered.replayed taken with ⟨nodup, past, reachable, above⟩
    have below : through <= state.history.counter id := by
      rw [HistoryCache.counter]
      cases present : state.history.entries.lookup id with
      | none =>
          have nothing := (lost present).2
          rw [show state.replay = some (lines, through) from taken] at nothing
          exact Nat.le_of_eq nothing
      | some before => exact above present
    refine ⟨nodup, ?_, ?_, ?_⟩
    · intro line member
      rcases past line member with ⟨entry, published, sameLine, little⟩
      exact ⟨entry, List.mem_append_left _ published, sameLine, little⟩
    · intro entry member
      rw [since] at member
      rcases List.mem_append.mp member with old | new
      · exact reachable entry old
      · right
        rw [List.mem_singleton.mp new, number]
        omega
    · intro history found
      rw [written found]
      change through <= (state.history.nextEntry id ⟨state.published.length, text⟩).sequence
      rw [number]
      omega

/-- A line pushed to another console may cost the viewer's its history. -/
theorem covered_push_other {id target text : Text} {state : Viewing} (covered : Covered id state)
    (different : Not (id = target)) : Covered id (state.step id (.push target text)) := by
  have since : (state.step id (.push target text)).since = state.since := by
    simp only [step, Ne.symm different, decide_false, Bool.and_false, Bool.false_eq_true, if_false]
  have still : forall {history},
      (state.step id (.push target text)).history.entries.lookup id = some history ->
      state.history.entries.lookup id = some history := by
    intro history found
    change (state.history.push target ⟨state.published.length, text⟩).2.entries.lookup id = _ at found
    rcases HistoryCache.push_others state.history ⟨state.published.length, text⟩ different with
      same | gone
    · exact same.symm.trans found
    · rw [gone] at found
      cases found
  refine { known_push covered.toKnown target text with before := ?_, replayed := ?_ }
  · intro waiting history found
    rw [since]
    exact covered.before waiting (still found)
  · intro lines through taken
    rcases covered.replayed taken with ⟨nodup, past, reachable, above⟩
    rw [since]
    refine ⟨nodup, ?_, reachable, fun found => above (still found)⟩
    intro line member
    rcases past line member with ⟨entry, published, sameLine, little⟩
    exact ⟨entry, List.mem_append_left _ published, sameLine, little⟩

/-- Before the receiver is installed nothing is asked of a push. -/
theorem covered_push_early {id target text : Text} {state : Viewing} (covered : Covered id state)
    (absent : state.installed = false) : Covered id (state.step id (.push target text)) := by
  have known := known_push covered.toKnown target text
  have quiet := known.quiet absent
  refine { known with before := ?_, replayed := ?_ }
  · intro _ history _
    rw [quiet.1]
    exact List.nil_suffix
  · intro lines through taken
    rw [quiet.2] at taken
    cases taken

theorem covered_push {id target text : Text} {state : Viewing} (covered : Covered id state)
    (retained : state.Retained id (.push target text)) :
    Covered id (state.step id (.push target text)) := by
  cases installed : state.installed with
  | false => exact covered_push_early covered installed
  | true =>
      by_cases same : target = id
      · subst same
        exact covered_push_own covered installed retained
      · exact covered_push_other covered (Ne.symm same)

/-- Steps which push nothing to the console and take no snapshot for the viewer. -/
theorem covered_of_less {id : Text} {state after : Viewing} (covered : Covered id state)
    (known : Known id after) (published : after.published = state.published)
    (held : forall {history}, after.history.entries.lookup id = some history ->
      Exists fun before => state.history.entries.lookup id = some before /\
        history.lines = before.lines /\ history.nextSequence = before.nextSequence)
    (since : after.since = state.since) (replay : after.replay = state.replay) : Covered id after where
  toKnown := known
  before waiting _ found := by
    rcases held found with ⟨before, foundBefore, lines, _⟩
    rw [since, lines]
    exact covered.before (replay.symm.trans waiting) foundBefore
  replayed taken := by
    rcases covered.replayed (replay.symm.trans taken) with ⟨nodup, past, reachable, above⟩
    rw [published, since]
    refine ⟨nodup, past, reachable, ?_⟩
    intro history found
    rcases held found with ⟨before, foundBefore, _, sequence⟩
    rw [sequence]
    exact above foundBefore

theorem covered_step {id : Text} {state : Viewing} {action : ViewAction}
    (met : state.Attended id action /\ state.Retained id action) (covered : Covered id state) :
    Covered id (state.step id action) := by
  have known := known_step covered.toKnown met.1
  cases action with
  | push target text => exact covered_push covered met.2
  | broadcast position =>
      rw [step] at known ⊢
      split at known
      · exact covered
      · split at known
        · next mine =>
            rw [if_pos mine]
            exact covered_of_less covered known rfl (fun found => ⟨_, found, rfl, rfl⟩) rfl rfl
        · next other =>
            rw [if_neg other]
            exact covered_of_less covered known rfl (fun found => ⟨_, found, rfl, rfl⟩) rfl rfl
  | abandon position =>
      exact covered_of_less covered known rfl (fun found => ⟨_, found, rfl, rfl⟩) rfl rfl
  | snapshot target => exact covered_of_less covered known rfl snapshot_held rfl rfl
  | remove target =>
      exact covered_of_less covered known rfl
        (fun found => ⟨_, HistoryCache.lookup_of_remove found, rfl, rfl⟩) rfl rfl
  | install => exact covered_of_less covered known rfl (fun found => ⟨_, found, rfl, rfl⟩) rfl rfl
  | replay => exact covered_replay covered
  | receive =>
      rw [step] at known ⊢
      split at known
      · exact covered_of_less covered known rfl (fun found => ⟨_, found, rfl, rfl⟩) rfl rfl
      · exact covered

theorem covered_start (id : Text) (maximumBytes : Nat) : Covered id (start maximumBytes) where
  sound := HistoryCache.sound_withMaximum maximumBytes
  numbers := rfl
  held found := by cases found
  flying row member := by cases member
  apart := List.nodup_nil
  recent entry member := by cases member
  queued := rfl
  quiet _ := ⟨rfl, rfl⟩
  before _ _ found := by cases found
  replayed taken := by cases taken

/-- No two of the lines sent to a viewer are one publication. -/
theorem Covered.reached_nodup {id : Text} {state : Viewing} (covered : Covered id state) :
    state.reached.Nodup := by
  rw [reached]
  cases taken : state.replay with
  | none => exact List.nodup_nil
  | some replay =>
      rcases replay with ⟨lines, through⟩
      rcases covered.replayed taken with ⟨nodup, past, _, _⟩
      have published : forall entry, entry ∈ state.received ++ state.waiting ->
          (id, entry) ∈ state.published := by
        intro entry member
        rw [<- covered.queued] at member
        exact covered.flying _ (List.mem_append_right _ (List.mem_map_of_mem member))
      simp only
      rw [List.nodup_append]
      refine ⟨nodup, ?_, ?_⟩
      · apply List.Nodup.map_on
        · intro one oneIn other otherIn same
          have rows := covered.toKnown.unique (published one (List.mem_filter.mp oneIn).1)
            (published other (List.mem_filter.mp otherIn).1) same
          exact congrArg Prod.snd rows
        · have apart := (List.nodup_append.mp covered.apart).2.1
          rw [covered.queued] at apart
          exact (List.Nodup.of_map _ apart).filter _
      · intro line replayed other live same
        rcases List.mem_map.mp live with ⟨entry, inside, named⟩
        rcases List.mem_filter.mp inside with ⟨queued, passed⟩
        rcases past line replayed with ⟨earlier, earlierIn, sameLine, little⟩
        have rows := covered.toKnown.unique earlierIn (published entry queued)
          (sameLine.trans (same.trans named.symm))
        have one : earlier = entry := congrArg Prod.snd rows
        have above : through < entry.sequence := of_decide_eq_true passed
        rw [one] at little
        omega

theorem Covered.missesNothing {id : Text} {state : Viewing} (covered : Covered id state) :
    state.MissesNothing := by
  intro attached
  refine ⟨?_, fun line => List.nodup_iff_count_le_one.mp covered.reached_nodup line⟩
  intro entry recent sent
  apply List.count_eq_one_of_mem covered.reached_nodup
  rw [reached]
  cases taken : state.replay with
  | none => exact absurd taken attached
  | some replay =>
      rcases replay with ⟨lines, through⟩
      rcases (covered.replayed taken).2.2.1 entry recent with replayed | above
      · exact List.mem_append_left _ replayed
      · apply List.mem_append_right
        apply List.mem_map_of_mem
        rw [<- covered.queued]
        exact List.mem_filter.mpr ⟨sent, decide_eq_true above⟩

/-- A viewer whose console is attended misses nothing, in every run in which the
history retains what is pushed under it. -/
theorem viewer_misses_nothing (maximumBytes : Nat) (id : Text) (run : List ViewAction)
    (attended : Machine.Along (step id) (Attended id) (start maximumBytes) run)
    (retained : Machine.Along (step id) (Retained id) (start maximumBytes) run) :
    ((start maximumBytes).after id run).MissesNothing := by
  apply @Covered.missesNothing id
  exact Machine.along_invariant (fun state action => covered_step) (covered_start id maximumBytes)
    (Machine.along_and attended retained)

theorem viewer_misses_nothing_of_two_lines :
    ((start 1000).after ['a'] [.push ['a'] ['v'], .install, .push ['a'] ['x'], .push ['b'] ['y'],
      .replay, .broadcast 1, .push ['a'] ['z'], .broadcast 2, .receive]).MissesNothing :=
  viewer_misses_nothing 1000 ['a'] _ (by decide) (by decide)

/-- A console with a viewer, who has been replayed its one line, then sixty-four
long lines of another console and one more of the first. -/
def crowded : List ViewAction :=
  .push ['a'] ['x'] :: .install :: .replay ::
    (List.replicate 64 (.push ['b'] (List.replicate 1000 'y')) ++ [.push ['a'] ['z'], .broadcast 65])

/-- The last of these lines does not reach the viewer. -/
theorem viewer_misses_line : Not (forall (maximumBytes : Nat) (id : Text) (run : List ViewAction),
    Machine.Along (step id) (Attended id) (start maximumBytes) run ->
      ((start maximumBytes).after id run).MissesNothing) := by
  intro always
  have misses := always consoleHistoryBytes ['a'] crowded (by decide +kernel)
  have ended : ((start consoleHistoryBytes).after ['a'] crowded).reached = [⟨0, ['x']⟩] /\
      ((start consoleHistoryBytes).after ['a'] crowded).since = [⟨1, ⟨65, ['z']⟩⟩] /\
      ((start consoleHistoryBytes).after ['a'] crowded).sent = [⟨1, ⟨65, ['z']⟩⟩] /\
      Not (((start consoleHistoryBytes).after ['a'] crowded).replay = none) := by
    decide +kernel
  rcases ended with ⟨reached, since, sent, attached⟩
  have once := (misses attached).1 ⟨1, ⟨65, ['z']⟩⟩ (by rw [since]; exact List.mem_cons_self)
    (by rw [sent]; exact List.mem_cons_self)
  rw [reached] at once
  exact absurd once (by decide)

end Viewing

end Console
end Agapornis
