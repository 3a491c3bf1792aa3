import Agapornis.Console.Generations
import Agapornis.Console.Ownership

namespace Agapornis
namespace Console

open Foundations
open Agapornis.Core (Failure refuseIf)

/-!
# Readers that were told to end

No operation of the hub revives a reader that was told to end, and none but the
readers themselves brings a line of a reader into a history.  Both are said of
the beginnings of the operations and of their effects.
-/

variable {Line : Type}

namespace ConsoleHub

theorem lookup_stopReader (hub : ConsoleHub Line) (id : Text) :
    (hub.stopReader id).readers.lookup id = none := by
  cases found : hub.readers.lookup id with
  | none => rw [stopReader, found, found]
  | some task =>
      rw [stopReader, found]
      exact AList.lookup_erase id hub.readers

theorem steady_ensureReaderLocked (hub : ConsoleHub Line) (id : Text) (channel : Nat) :
    Steady hub (hub.ensureReaderLocked id channel) := by
  cases found : hub.readers.lookup id with
  | none =>
      rw [ensureReaderLocked, found]
      exact steady_startReaderLocked hub channel found
  | some task =>
      rw [ensureReaderLocked, found]
      dsimp only
      split
      · exact steady_modifyTask hub task fun _ _ => ⟨rfl, rfl, fun ended => ended⟩
      · exact (steady_stopReader hub id).trans
          (steady_startReaderLocked _ channel (lookup_stopReader hub id))

theorem steady_trackServer (hub : ConsoleHub Line) (id : Text) : Steady hub (hub.trackServer id).2 := by
  rw [trackServer]
  split
  · exact Steady.refl hub
  · rw [recordAddition]
    split <;> exact Steady.of_same rfl rfl

theorem steady_refreshServer (hub : ConsoleHub Line) (id : Text) : Steady hub (hub.refreshServer id).2 := by
  have added : forall id, Steady hub (hub.recordAddition id) := by
    intro id
    rw [recordAddition]
    split <;> exact Steady.of_same rfl rfl
  rw [refreshServer]
  split
  · exact Steady.refl hub
  · dsimp only
    split
    · exact (added id).trans (Steady.of_same rfl rfl)
    · refine ((added id).trans ?_).trans (steady_modifyTask _ _ ?_)
      · exact Steady.of_same rfl rfl
      · exact fun _ _ => ⟨rfl, rfl, fun ended => ended⟩

theorem steady_validateSubscription (hub : ConsoleHub Line) (id : Text) :
    Steady hub (hub.validateSubscription id).2 := by
  rw [validateSubscription]
  split
  · split <;> exact Steady.refl hub
  · split
    · exact Steady.refl hub
    · exact Steady.of_same rfl rfl

/-- The beginning of an operation revives no reader. -/
theorem steady_begin [LineText Line] (hub : ConsoleHub Line) (action : HubAction Line) :
    Steady hub (hub.begin action).1 := by
  have reader : forall {task : Nat} {phase : ReaderPhase} {next : ReaderTask -> ConsoleHub Line},
      (forall reader, hub.tasks[task]? = some reader -> reader.phase = phase ->
        Steady hub (next reader)) ->
        Steady hub (hub.readerStep task phase next) := by
    intro task phase next steady
    rw [readerStep]
    split
    · exact Steady.refl hub
    · next reader held =>
        split
        · next same => exact steady reader held same
        · exact Steady.refl hub
  cases action with
  | synchronize serverIds =>
      rw [begin]
      split
      · exact Steady.refl hub
      · split
        · exact Steady.refl hub
        · exact (steady_stopAll _ hub).trans (Steady.of_same rfl rfl)
  | subscribe id =>
      have validated := steady_validateSubscription hub id
      rw [begin]
      rcases known : hub.validateSubscription id with ⟨failure | _, after⟩
      · rw [known] at validated
        exact validated
      · rw [known] at validated
        dsimp only
        split <;> exact validated
  | publish id line =>
      rw [begin.eq_def]
      dsimp only
      split
      · exact Steady.refl hub
      · split <;> exact Steady.refl hub
  | remove id =>
      rw [begin]
      refine Steady.trans ?_ (steady_stopReader _ id)
      split <;> exact Steady.of_same rfl rfl
  | retire task =>
      rw [begin]
      split
      · exact Steady.refl hub
      · next reader held =>
          have ended : Steady hub (hub.modifyTask task fun reader => { reader with phase := .finished }) :=
            steady_modifyTask hub task fun _ _ => ⟨rfl, rfl, fun _ => rfl⟩
          split
          · dsimp only
            split
            · next registered =>
                have given := steady_giveUp registered
                split
                · rw [modifyTask_startReaderLocked]
                  · exact given.trans
                      (steady_startReaderLocked _ reader.channel (AList.lookup_erase _ _))
                  · exact (List.getElem?_eq_some_iff.mp held).1
                · exact given
            · exact ended
          · exact Steady.refl hub
  | track id => exact steady_trackServer hub id
  | refresh id => exact steady_refreshServer hub id
  | snapshot id => exact Steady.of_same rfl rfl
  | disconnect channel => exact Steady.of_same rfl rfl
  | closed task =>
      apply reader
      intro watcher held watching
      split
      · refine steady_modifyTask hub task fun same sameAt => ⟨rfl, rfl, fun ended => ?_⟩
        cases held.symm.trans sameAt
        cases watching.symm.trans ended
      · exact Steady.refl hub
  | viewerWoken task =>
      apply reader
      intro watcher held counting
      split
      · refine steady_modifyTask hub task fun same sameAt => ⟨rfl, rfl, fun ended => ?_⟩
        cases held.symm.trans sameAt
        cases counting.symm.trans ended
      · exact Steady.refl hub
  | timer task =>
      apply reader
      intro watcher held counting
      refine steady_modifyTask hub task fun same sameAt => ⟨rfl, rfl, fun ended => ?_⟩
      cases held.symm.trans sameAt
      cases counting.symm.trans ended
  | finish task =>
      change Steady hub (hub.step (.finish task))
      rw [step]
      split
      · exact Steady.refl hub
      · split
        · exact Steady.refl hub
        · exact steady_modifyTask hub task fun _ _ => ⟨rfl, rfl, fun _ => rfl⟩
  | line task line =>
      change Steady hub (hub.step (.line task line))
      rw [step]
      split
      · exact Steady.refl hub
      · split
        · exact Steady.of_same rfl rfl
        · exact Steady.refl hub

/-- So do its effects. -/
theorem steady_effect [LineText Line] (hub : ConsoleHub Line) (rest : Effect Line) :
    Steady hub (hub.effect rest) := by
  cases rest with
  | attach id =>
      have opened : Steady hub (hub.openSender id).2 := by
        rw [openSender]
        split <;> exact Steady.of_same rfl rfl
      rw [effect]
      refine Steady.trans ?_ (steady_ensureReaderLocked _ id _)
      exact opened.trans (Steady.of_same rfl rfl)
  | discardSenders ids => exact Steady.of_same rfl rfl
  | discardUnheard id channel => exact Steady.of_same rfl rfl
  | discardHistories ids => exact Steady.of_same rfl rfl
  | push id line => exact Steady.of_same rfl rfl
  | send id entry => exact Steady.refl hub

end ConsoleHub

namespace HistoryCache

/-- The history of a console has no line of a reader. -/
def Lacks (cache : HistoryCache (Printed Line)) (task : Nat) (id : Text) : Prop :=
  forall history, cache.entries.lookup id = some history ->
    forall entry, entry ∈ history.lines -> Not (entry.line.reader = some task)

theorem Lacks.remove {cache : HistoryCache (Printed Line)} {task : Nat} {id : Text}
    (lacks : cache.Lacks task id) (other : Text) : (cache.remove other).Lacks task id :=
  fun history found => lacks history (lookup_of_remove found)

theorem Lacks.removeAll {task : Nat} {id : Text} (ids : List Text) :
    forall {cache : HistoryCache (Printed Line)}, cache.Lacks task id ->
      (ids.foldl HistoryCache.remove cache).Lacks task id := by
  induction ids with
  | nil => exact fun lacks => lacks
  | cons other rest induction => exact fun lacks => induction (lacks.remove other)

theorem Lacks.snapshot {cache : HistoryCache (Printed Line)} {task : Nat} {id : Text}
    (lacks : cache.Lacks task id) (other : Text) : (cache.snapshot other).2.Lacks task id := by
  intro history found
  rw [snapshot_lookup, Option.map_eq_some_iff] at found
  rcases found with ⟨before, held, same⟩
  have lines : history.lines = before.lines := by
    rw [<- same]
    split <;> rfl
  rw [lines]
  exact lacks before held

theorem Lacks.push [LineText Line] {cache : HistoryCache (Printed Line)} (sound : cache.Sound) {task : Nat}
    {id : Text} (lacks : cache.Lacks task id) {line : Printed Line} (foreign : Not (line.reader = some task))
    (other : Text) : (cache.push other line).2.Lacks task id := by
  intro history found entry member
  by_cases same : id = other
  · subst same
    rcases (push_spec sound id line).2 with ⟨kept, within, held, _⟩
    cases held.symm.trans found
    rcases extended_mem (within.subset member) with ⟨before, heldBefore, old⟩ | new
    · exact lacks before heldBefore entry old
    · rw [new]
      exact foreign
  · rcases push_others cache line same with kept | gone
    · rw [kept] at found
      exact lacks history found entry member
    · rw [gone] at found
      cases found

theorem removeAll_sound [LineText Line] (ids : List Text) : forall {cache : HistoryCache (Printed Line)},
    cache.Sound -> (ids.foldl HistoryCache.remove cache).Sound := by
  induction ids with
  | nil => exact fun sound => sound
  | cons id rest induction => exact fun sound => induction (remove_sound sound id)

/-- A change of the histories that brings no line of a reader. -/
structure Tame [LineText Line] (cache next : HistoryCache (Printed Line)) : Prop where
  sound : cache.Sound -> next.Sound
  lacks : cache.Sound -> forall {task id}, cache.Lacks task id -> next.Lacks task id

theorem Tame.refl [LineText Line] (cache : HistoryCache (Printed Line)) : Tame cache cache :=
  ⟨fun sound => sound, fun _ _ _ lacks => lacks⟩

theorem tame_push [LineText Line] (cache : HistoryCache (Printed Line)) (id : Text) {line : Printed Line}
    (agent : line.reader = none) : Tame cache (cache.push id line).2 where
  sound sound := (push_spec sound id line).1
  lacks sound task other lacks := by
    apply lacks.push sound
    rw [agent]
    nofun

end HistoryCache

namespace ConsoleHub

theorem history_recordAddition (hub : ConsoleHub Line) (id : Text) :
    (hub.recordAddition id).history = hub.history := by
  rw [recordAddition]
  split <;> rfl

theorem history_validateSubscription {hub after : ConsoleHub Line} {id : Text} {result : Except Failure Unit}
    (validated : hub.validateSubscription id = (result, after)) : after.history = hub.history := by
  rw [validateSubscription] at validated
  split at validated
  · split at validated
    all_goals
      cases validated
      rfl
  · split at validated
    all_goals
      cases validated
      rfl

/-- The beginning of an operation brings no line of a reader. -/
theorem tame_begin [LineText Line] (hub : ConsoleHub (Printed Line)) (action : HubAction Line) :
    HistoryCache.Tame hub.history (hub.begin (ofAgent action)).1.history := by
  have same : forall {next : ConsoleHub (Printed Line)}, next.history = hub.history ->
      HistoryCache.Tame hub.history next.history := by
    intro next history
    rw [history]
    exact HistoryCache.Tame.refl hub.history
  have reader : forall {task : Nat} {phase : ReaderPhase} {next : ReaderTask -> ConsoleHub (Printed Line)},
      (forall reader, (next reader).history = hub.history) ->
        HistoryCache.Tame hub.history (hub.readerStep task phase next).history := by
    intro task phase next history
    apply same
    rw [readerStep]
    split
    · rfl
    · split
      · exact history _
      · rfl
  cases action with
  | synchronize serverIds =>
      apply same
      rw [ofAgent, begin]
      split
      · rfl
      · split
        · rfl
        · exact history_stopAll _ hub
  | subscribe id =>
      apply same
      rw [ofAgent, begin]
      rcases known : hub.validateSubscription id with ⟨failure | _, validated⟩
      · exact history_validateSubscription known
      · dsimp only
        split <;> exact history_validateSubscription known
  | publish id line =>
      apply same
      rw [ofAgent, begin.eq_def]
      dsimp only
      split
      · rfl
      · split <;> rfl
  | remove id =>
      apply same
      rw [ofAgent, begin]
      refine (history_stopReader _ id).trans ?_
      split <;> rfl
  | retire task =>
      apply same
      rw [ofAgent, begin]
      split
      · rfl
      · split
        · dsimp only
          split
          · split
            · exact history_startReaderLocked _ _ _
            · rfl
          · rfl
        · rfl
  | track id =>
      apply same
      change (hub.trackServer id).2.history = hub.history
      rw [trackServer]
      split
      · rfl
      · exact history_recordAddition hub id
  | refresh id =>
      apply same
      change (hub.refreshServer id).2.history = hub.history
      rw [refreshServer]
      split
      · rfl
      · dsimp only
        split <;> exact history_recordAddition hub id
  | snapshot id => exact ⟨fun sound => HistoryCache.snapshot_sound sound id, fun _ _ _ lacks => lacks.snapshot id⟩
  | disconnect channel => exact same rfl
  | closed task =>
      apply reader
      intro _
      split <;> rfl
  | viewerWoken task =>
      apply reader
      intro _
      split <;> rfl
  | timer task => exact reader fun _ => rfl
  | finish task =>
      apply same
      change (hub.step (.finish task)).history = hub.history
      rw [step]
      split
      · rfl
      · split <;> rfl
  | line task line =>
      change HistoryCache.Tame hub.history (hub.step (.line task ⟨none, line⟩)).history
      rw [step]
      split
      · exact HistoryCache.Tame.refl hub.history
      · split
        · exact HistoryCache.tame_push hub.history _ rfl
        · exact HistoryCache.Tame.refl hub.history

end ConsoleHub

end Console
end Agapornis
