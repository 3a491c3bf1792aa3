import Mathlib.Logic.Function.Basic
import Agapornis.Console.HistoryBooks
import Agapornis.Console.Viewing

namespace Agapornis
namespace Console

open Foundations

/-!
# The order of a live console

A console has two publishers, its log reader and the supervisor.  A publication
takes two steps under two locks: a push, which numbers the entry, and a send.
The supervisor's publications follow one another, as it holds the lifecycle
lock through both steps; the reader's stop when it is no longer active.
Meanwhile the cache serves the other consoles, whose lines may cost this one
its history: its lines are then numbered from one again.  The entries come to a
receiver in the order of their sequences as long as no publisher is overtaken
between its two steps, and the lines of a new history do not fall behind those
of the one that was lost.
-/

/-- A line that is pushed.  All but its text is kept for the statements only. -/
structure Pushed where
  number : Nat
  /-- How often the history of the console was lost before. -/
  life : Nat
  /-- Which line it is of those that the history has seen. -/
  place : Nat
  text : Text
  deriving DecidableEq, Repr

instance : LineText Pushed where
  len pushed := LineText.len pushed.text

/-- What is pushed to one history comes before what is pushed to it later; lines
of different histories go by their places. -/
def Pushed.Before (earlier later : Pushed) : Prop :=
  if earlier.life = later.life then earlier.number < later.number else earlier.place < later.place

/-- The places of two lines in one history go by their numbers. -/
def Pushed.Agrees (first second : Pushed) : Prop :=
  first.life = second.life -> (first.place < second.place <-> first.number < second.number) /\
    (second.place < first.place <-> second.number < first.number)

instance : Std.Symm fun first second : ConsoleEntry Pushed => first.line.Agrees second.line where
  symm _ _ agrees same := (agrees same.symm).symm

inductive Publisher where
  | reader
  | supervisor
  deriving DecidableEq, Repr

/-- The publishers of a console and one of its receivers.  All entries that
were pushed are kept for the statements only. -/
structure Broadcasting where
  history : HistoryCache Pushed
  life : Nat := 0
  place : Nat
  /-- The flag which the reader's publications look at. -/
  active : Bool := true
  /-- What a publisher has pushed and not yet sent. -/
  held : Publisher -> Option (ConsoleEntry Pushed) := fun _ => none
  subscribed : Bool := false
  waiting : List (ConsoleEntry Pushed) := []
  received : List (ConsoleEntry Pushed) := []
  published : List (ConsoleEntry Pushed) := []

inductive PublishAction where
  | push (publisher : Publisher) (text : Text)
  /-- The cache serves another console, or a snapshot is taken. -/
  | elsewhere (action : HistoryAction Pushed)
  | send (publisher : Publisher)
  /-- A publication is cancelled between its steps. -/
  | cancel (publisher : Publisher)
  /-- The reader is stopped. -/
  | deactivate
  /-- Another reader is started. -/
  | restart
  | subscribe
  | receive
  deriving DecidableEq

/-- The lines of a console are pushed by its publishers, and it is not removed. -/
def elsewhere (id : Text) : HistoryAction Pushed -> Bool
  | .push target _ | .remove target => target != id
  | .snapshot _ => true

namespace Broadcasting

/-- Publishers of a console about a cache that has been used before. -/
def start (maximumBytes : Nat) (earlier : List (HistoryAction Pushed)) (id : Text) : Broadcasting where
  history := (HistoryCache.withMaximum maximumBytes).after earlier
  place := ((HistoryCache.withMaximum maximumBytes).after earlier).counter id

def mayPublish (state : Broadcasting) : Publisher -> Bool
  | .reader => state.active
  | .supervisor => true

def step (id : Text) (state : Broadcasting) : PublishAction -> Broadcasting
  | .push publisher text =>
      if (state.held publisher).isNone && state.mayPublish publisher then
        let pushed := state.history.push id ⟨state.published.length, state.life, state.place + 1, text⟩
        { state with
          history := pushed.2
          place := state.place + 1
          held := Function.update state.held publisher (some pushed.1)
          published := state.published ++ [pushed.1] }
      else state
  | .elsewhere action =>
      if elsewhere id action then
        let history := state.history.step action
        if (state.history.entries.lookup id).isSome && (history.entries.lookup id).isNone then
          { state with history, life := state.life + 1, place := 0 }
        else { state with history }
      else state
  | .send publisher =>
      match state.held publisher with
      | none => state
      | some entry =>
          { state with
            held := Function.update state.held publisher none
            waiting := if state.subscribed && state.mayPublish publisher then enqueue state.waiting entry
              else state.waiting }
  | .cancel publisher => { state with held := Function.update state.held publisher none }
  | .deactivate => { state with active := false }
  | .restart => { state with active := true, held := Function.update state.held .reader none }
  | .subscribe => { state with subscribed := true }
  | .receive =>
      match state.waiting with
      | [] => state
      | entry :: rest => { state with waiting := rest, received := state.received ++ [entry] }

abbrev after (id : Text) (state : Broadcasting) (run : List PublishAction) : Broadcasting :=
  Machine.reach (step id) state run

/-- What the receiver has obtained, and what it will still find in its channel,
come in the order of their sequences. -/
def InOrder (state : Broadcasting) : Prop :=
  (state.received ++ state.waiting).Pairwise fun earlier later => earlier.sequence < later.sequence

/-- What a channel still holds of its entries when one more has come. -/
def remaining (waiting : List (ConsoleEntry Pushed)) : List (ConsoleEntry Pushed) :=
  if waiting.length < consoleBroadcastCapacity then waiting else waiting.tail

/-- No publisher is overtaken: what a receiver has or will still find when an
entry is sent to it comes before that entry, and was not given the last sequence
there is. -/
def InTurn (state : Broadcasting) : PublishAction -> Prop
  | .send publisher => forall entry, state.held publisher = some entry ->
      state.subscribed = true -> state.mayPublish publisher = true ->
        forall other, other ∈ state.received ++ remaining state.waiting ->
          other.line.Before entry.line /\ other.sequence < largestWord
  | _ => True

theorem enqueue_eq (waiting : List (ConsoleEntry Pushed)) (entry : ConsoleEntry Pushed) :
    enqueue waiting entry = remaining waiting ++ [entry] := by
  unfold enqueue remaining
  split
  · rfl
  · next full =>
      cases waiting with
      | nil => exact absurd (show ([] : List (ConsoleEntry Pushed)).length < consoleBroadcastCapacity
          by decide) full
      | cons first rest => rfl

theorem remaining_sublist (waiting : List (ConsoleEntry Pushed)) :
    (remaining waiting).Sublist waiting := by
  unfold remaining
  split
  · exact List.Sublist.refl _
  · exact List.tail_sublist _

/-! ## Sequences are places -/

/-- The entries pushed have their places for sequences, up to the last sequence
there is, and the places rise with the pushes to one history. -/
structure Numbered (id : Text) (state : Broadcasting) : Prop where
  sound : state.history.Sound
  counter : state.history.counter id = min state.place largestWord
  placed : forall entry, entry ∈ state.published -> entry.sequence = min entry.line.place largestWord
  known : forall entry, entry ∈ state.published -> entry.line.number < state.published.length
  reached : forall entry, entry ∈ state.published -> entry.line.life <= state.life /\
    (entry.line.life = state.life -> entry.line.place <= state.place)
  rising : state.published.Pairwise fun earlier later => earlier.line.number < later.line.number /\
    (earlier.line.life = later.line.life -> earlier.line.place < later.line.place)
  flying : forall publisher entry, state.held publisher = some entry -> entry ∈ state.published
  queued : forall entry, entry ∈ state.received ++ state.waiting -> entry ∈ state.published

theorem counter_le {cache : HistoryCache Pushed} (sound : cache.Sound) (id : Text) :
    cache.counter id <= largestWord := by
  rw [HistoryCache.counter]
  cases found : cache.entries.lookup id with
  | none => exact Nat.zero_le _
  | some history => exact sound.bounded found

theorem numbered_start (maximumBytes : Nat) (earlier : List (HistoryAction Pushed)) (id : Text) :
    Numbered id (start maximumBytes earlier id) where
  sound := (HistoryCache.after_kept maximumBytes earlier).1
  counter := (Nat.min_eq_left (counter_le (HistoryCache.after_kept maximumBytes earlier).1 id)).symm
  placed entry member := by cases member
  known entry member := by cases member
  reached entry member := by cases member
  rising := List.Pairwise.nil
  flying publisher entry held := by cases held
  queued entry member := by cases member

/-- Steps that leave the cache alone keep what was pushed. -/
theorem numbered_of_same {id : Text} {state after : Broadcasting} (numbered : Numbered id state)
    (history : after.history = state.history) (life : after.life = state.life) (place : after.place = state.place)
    (published : after.published = state.published)
    (held : forall publisher entry, after.held publisher = some entry -> entry ∈ state.published)
    (queued : forall entry, entry ∈ after.received ++ after.waiting -> entry ∈ state.published) :
    Numbered id after := by
  refine ⟨?_, ?_, ?_, ?_, ?_, ?_, ?_, ?_⟩
  · rw [history]
    exact numbered.sound
  · rw [history, place]
    exact numbered.counter
  · rw [published]
    exact numbered.placed
  · rw [published]
    exact numbered.known
  · rw [published, life, place]
    exact numbered.reached
  · rw [published]
    exact numbered.rising
  · rw [published]
    exact held
  · rw [published]
    exact queued

theorem numbered_push {id : Text} {state : Broadcasting} (numbered : Numbered id state)
    (publisher : Publisher) (text : Text) : Numbered id (state.step id (.push publisher text)) := by
  rw [step]
  split
  · have counter := HistoryCache.push_counter numbered.sound id
      ⟨state.published.length, state.life, state.place + 1, text⟩
    have next : nextWord (state.history.counter id) = min (state.place + 1) largestWord := by
      rw [numbered.counter, nextWord]
      omega
    refine ⟨?_, ?_, ?_, ?_, ?_, ?_, ?_, ?_⟩
    · exact (HistoryCache.push_spec numbered.sound id _).1
    · exact counter.trans next
    · intro entry member
      rcases List.mem_append.mp member with before | new
      · exact numbered.placed entry before
      · rw [List.mem_singleton.mp new]
        exact next
    · intro entry member
      rw [List.length_append, List.length_singleton]
      rcases List.mem_append.mp member with before | new
      · exact (numbered.known entry before).trans (Nat.lt_succ_self _)
      · rw [List.mem_singleton.mp new]
        exact Nat.lt_succ_self _
    · intro entry member
      rcases List.mem_append.mp member with before | new
      · rcases numbered.reached entry before with ⟨life, place⟩
        exact ⟨life, fun same => (place same).trans (Nat.le_succ _)⟩
      · rw [List.mem_singleton.mp new]
        exact ⟨Nat.le_refl _, fun _ => Nat.le_refl _⟩
    · rw [List.pairwise_append]
      refine ⟨numbered.rising, List.pairwise_singleton _ _, ?_⟩
      intro earlier before later new
      rw [List.mem_singleton.mp new]
      exact ⟨numbered.known earlier before,
        fun same => Nat.lt_succ_of_le ((numbered.reached earlier before).2 same)⟩
    · intro other entry held
      simp only at held ⊢
      by_cases same : other = publisher
      · rw [same, Function.update_self] at held
        cases held
        exact List.mem_append_right _ List.mem_cons_self
      · rw [Function.update_of_ne same] at held
        exact List.mem_append_left _ (numbered.flying other entry held)
    · exact fun entry member => List.mem_append_left _ (numbered.queued entry member)
  · exact numbered

/-- Other uses of the cache leave the counter of a console, or cost it its history. -/
theorem counter_elsewhere {id : Text} {action : HistoryAction Pushed} (other : elsewhere id action = true)
    (cache : HistoryCache Pushed) :
    (cache.step action).counter id = cache.counter id \/ (cache.step action).entries.lookup id = none := by
  cases action with
  | push target line =>
      rcases HistoryCache.push_others cache line (Ne.symm (bne_iff_ne.mp other)) with kept | gone
      · rw [HistoryCache.counter, HistoryCache.step, kept]
        exact Or.inl rfl
      · exact Or.inr gone
  | snapshot target => exact Or.inl (HistoryCache.snapshot_counter cache id target)
  | remove target =>
      rw [HistoryCache.counter, HistoryCache.step, HistoryCache.remove_entries,
        Table.lookup_erase_of_ne (Ne.symm (bne_iff_ne.mp other))]
      exact Or.inl rfl

theorem counter_of_absent {cache : HistoryCache Pushed} {id : Text} (absent : cache.entries.lookup id = none) :
    cache.counter id = 0 := by
  rw [HistoryCache.counter, absent]
  rfl

theorem numbered_elsewhere {id : Text} {state : Broadcasting} (numbered : Numbered id state)
    (action : HistoryAction Pushed) : Numbered id (state.step id (.elsewhere action)) := by
  rw [step]
  split
  · next other =>
      have sound := HistoryCache.step_sound numbered.sound action
      dsimp only
      split
      · next lost =>
          have gone := Option.isNone_iff_eq_none.mp (Bool.and_eq_true_iff.mp lost).2
          refine ⟨sound, ?_, numbered.placed, numbered.known, ?_, numbered.rising, numbered.flying, numbered.queued⟩
          · exact (counter_of_absent gone).trans (Nat.zero_min _).symm
          · intro entry member
            have before := (numbered.reached entry member).1
            exact ⟨before.trans (Nat.le_succ _), fun same => absurd same (Nat.ne_of_lt (Nat.lt_succ_of_le before))⟩
      · next still =>
          refine ⟨sound, ?_, numbered.placed, numbered.known, numbered.reached, numbered.rising, numbered.flying,
            numbered.queued⟩
          rcases counter_elsewhere other state.history with kept | gone
          · exact kept.trans numbered.counter
          · have absent : state.history.entries.lookup id = none := by
              cases found : state.history.entries.lookup id with
              | none => rfl
              | some history =>
                  rw [found, gone] at still
                  exact absurd rfl still
            rw [<- numbered.counter, counter_of_absent absent]
            exact counter_of_absent gone
  · exact numbered

theorem held_update {id : Text} {state : Broadcasting} (numbered : Numbered id state)
    {publisher other : Publisher} {entry : ConsoleEntry Pushed}
    (held : Function.update state.held publisher none other = some entry) : entry ∈ state.published := by
  by_cases same : other = publisher
  · rw [same, Function.update_self] at held
    cases held
  · rw [Function.update_of_ne same] at held
    exact numbered.flying other entry held

theorem numbered_step {id : Text} {state : Broadcasting} (numbered : Numbered id state)
    (action : PublishAction) : Numbered id (state.step id action) := by
  cases action with
  | push publisher text => exact numbered_push numbered publisher text
  | elsewhere action => exact numbered_elsewhere numbered action
  | send publisher =>
      rw [step]
      split
      · exact numbered
      · next entry held =>
          refine numbered_of_same numbered rfl rfl rfl rfl (fun _ _ => held_update numbered) ?_
          intro other member
          simp only at member
          split at member
          · rw [enqueue_eq, <- List.append_assoc] at member
            rcases List.mem_append.mp member with before | new
            · exact numbered.queued other (((List.Sublist.refl _).append
                (remaining_sublist state.waiting)).subset before)
            · rw [List.mem_singleton.mp new]
              exact numbered.flying publisher entry held
          · exact numbered.queued other member
  | cancel publisher =>
      exact numbered_of_same numbered rfl rfl rfl rfl (fun _ _ => held_update numbered) numbered.queued
  | deactivate => exact numbered_of_same numbered rfl rfl rfl rfl numbered.flying numbered.queued
  | restart => exact numbered_of_same numbered rfl rfl rfl rfl (fun _ _ => held_update numbered) numbered.queued
  | subscribe => exact numbered_of_same numbered rfl rfl rfl rfl numbered.flying numbered.queued
  | receive =>
      rw [step]
      split
      · exact numbered
      · next entry rest waiting =>
          refine numbered_of_same numbered rfl rfl rfl rfl numbered.flying ?_
          intro other member
          apply numbered.queued other
          rw [waiting]
          simpa using member

theorem Numbered.place_lt_iff {id : Text} {state : Broadcasting} (numbered : Numbered id state)
    {one other : ConsoleEntry Pushed} (oneIn : one ∈ state.published) (otherIn : other ∈ state.published)
    (same : other.line.life = one.line.life) :
    other.line.place < one.line.place <-> other.line.number < one.line.number := by
  have apart := List.Pairwise.forall_of_forall (R := fun first second => first.line.Agrees second.line)
    (fun _ _ _ => ⟨by omega, by omega⟩) (numbered.rising.imp fun rises equal => by
      have further := rises.2 equal
      omega)
  exact (apart otherIn oneIn same).1

/-- What comes before has the lesser sequence unless that is the last there is. -/
theorem Numbered.sequence_lt_iff {id : Text} {state : Broadcasting} (numbered : Numbered id state)
    {one other : ConsoleEntry Pushed} (oneIn : one ∈ state.published)
    (otherIn : other ∈ state.published) :
    other.sequence < one.sequence <->
      other.line.Before one.line /\ other.sequence < largestWord := by
  have before : other.line.Before one.line <-> other.line.place < one.line.place := by
    rw [Pushed.Before]
    split
    · next same => exact (numbered.place_lt_iff oneIn otherIn same).symm
    · exact Iff.rfl
  rw [before, numbered.placed one oneIn, numbered.placed other otherIn]
  omega

/-! ## One step, and whole runs -/

/-- A send keeps the order exactly if it is in turn. -/
theorem inOrder_step {id : Text} {state : Broadcasting} (numbered : Numbered id state)
    (inOrder : state.InOrder) (action : PublishAction) :
    (state.step id action).InOrder <-> state.InTurn action := by
  cases action with
  | send publisher =>
      rw [step]
      split
      · next nothing =>
          refine iff_of_true inOrder ?_
          intro entry held
          rw [nothing] at held
          cases held
      · next entry held =>
          cases goes : state.subscribed && state.mayPublish publisher with
          | false =>
              refine iff_of_true (by simpa [InOrder, goes] using inOrder) ?_
              intro other _ subscribed may
              rw [subscribed, may] at goes
              cases goes
          | true =>
              rcases Bool.and_eq_true_iff.mp goes with ⟨subscribed, may⟩
              have kept : (state.received ++ remaining state.waiting).Pairwise
                  fun earlier later => earlier.sequence < later.sequence :=
                inOrder.sublist ((List.Sublist.refl _).append (remaining_sublist state.waiting))
              have published : forall other, other ∈ state.received ++ remaining state.waiting ->
                  other ∈ state.published := fun other member => numbered.queued other
                (((List.Sublist.refl _).append (remaining_sublist state.waiting)).subset member)
              have entryIn := numbered.flying publisher entry held
              simp only [InOrder, if_true, enqueue_eq, <- List.append_assoc]
              rw [List.pairwise_append]
              constructor
              · rintro ⟨_, _, before⟩ same heldSame _ _ other member
                cases held.symm.trans heldSame
                exact (numbered.sequence_lt_iff entryIn (published other member)).mp
                  (before other member entry List.mem_cons_self)
              · intro turn
                refine ⟨kept, List.pairwise_singleton _ _, ?_⟩
                intro other member last new
                rw [List.mem_singleton.mp new]
                exact (numbered.sequence_lt_iff entryIn (published other member)).mpr
                  (turn entry held subscribed may other member)
  | receive =>
      refine iff_of_true ?_ trivial
      rw [step]
      split
      · exact inOrder
      · next entry rest waiting =>
          rw [InOrder, waiting] at inOrder
          simpa [InOrder] using inOrder
  | push publisher text =>
      refine iff_of_true ?_ trivial
      rw [step]
      split <;> exact inOrder
  | elsewhere action =>
      refine iff_of_true ?_ trivial
      rw [step]
      split
      · dsimp only
        split <;> exact inOrder
      · exact inOrder
  | cancel publisher => exact iff_of_true inOrder trivial
  | deactivate => exact iff_of_true inOrder trivial
  | restart => exact iff_of_true inOrder trivial
  | subscribe => exact iff_of_true inOrder trivial

/-- What comes to a receiver is in order at every point of a run exactly if
every entry is sent in turn. -/
theorem inOrder_iff_inTurn (maximumBytes : Nat) (earlier : List (HistoryAction Pushed)) (id : Text)
    (run : List PublishAction) :
    (forall front, front <+: run -> ((start maximumBytes earlier id).after id front).InOrder) <->
      Machine.Along (step id) InTurn (start maximumBytes earlier id) run := by
  have numbered := fun front => Machine.invariant (fun state action kept => @numbered_step id state kept action)
    (numbered_start maximumBytes earlier id) front
  have exactly (state : Broadcasting) (action : PublishAction) (kept : Numbered id state /\ state.InOrder) :
      (Numbered id (step id state action) /\ (step id state action).InOrder) <-> InTurn state action := by
    rw [inOrder_step kept.1 kept.2 action]
    exact and_iff_right (numbered_step kept.1 action)
  rw [<- Machine.always_iff_along exactly ⟨numbered_start maximumBytes earlier id, List.Pairwise.nil⟩]
  exact forall₂_congr fun front _ => (and_iff_right (numbered front)).symm

/-- The supervisor overtakes the reader between its push and its send. -/
theorem reader_overtaken : Not (forall (maximumBytes : Nat) (earlier : List (HistoryAction Pushed))
    (id : Text) (run : List PublishAction),
    ((start maximumBytes earlier id).after id run).received.Pairwise
      fun earlier later => earlier.sequence < later.sequence) := by
  intro always
  exact absurd (always 65536 [] "server".toList [.subscribe, .push .reader "one".toList,
    .push .supervisor "two".toList, .send .supervisor, .send .reader, .receive, .receive]) (by decide)

end Broadcasting

end Console
end Agapornis
