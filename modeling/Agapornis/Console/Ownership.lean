import Agapornis.Console.Readers
import Agapornis.Console.HistoryRules

namespace Agapornis
namespace Console

open Foundations

/-!
# Whose console state is kept

After the inventory has come, channels and readers belong to servers that the
agent owns.  The histories do so too, unless one was there when the inventory
came whose server was not owned before either: publishing creates histories
without asking who owns the server, and the inventory discards the histories of
the servers that it drops, which were owned.
-/

variable {Line : Type}

namespace ConsoleHub

/-- A console has a history. -/
def Remembered (hub : ConsoleHub Line) (id : Text) : Prop :=
  Not (hub.history.entries.lookup id = none)

/-- The servers that have a channel, a reader or a history are owned. -/
structure Contained (hub : ConsoleHub Line) : Prop where
  senders : forall id, Not (hub.senders.lookup id = none) -> id ∈ hub.desired
  readers : forall id, Not (hub.readers.lookup id = none) -> id ∈ hub.desired
  history : forall id, hub.Remembered id -> id ∈ hub.desired

theorem Agreed.contained {hub : ConsoleHub Line} (agreed : Agreed hub)
    (history : forall id, hub.Remembered id -> id ∈ hub.desired) : Contained hub where
  senders id found := by
    cases sender : hub.senders.lookup id with
    | none => exact absurd sender found
    | some channel => exact (agreed.owned sender).resolve_left fun impossible => impossible
  readers id found := by
    cases reader : hub.readers.lookup id with
    | none => exact absurd reader found
    | some task => exact agreed.owned_of_registered reader
  history := history

@[simp] theorem history_stopReader (hub : ConsoleHub Line) (id : Text) :
    (hub.stopReader id).history = hub.history := by
  rw [stopReader]
  split <;> rfl

@[simp] theorem history_startReaderLocked (hub : ConsoleHub Line) (id : Text) (channel : Nat) :
    (hub.startReaderLocked id channel).history = hub.history := by
  rw [startReaderLocked]
  split <;> rfl

@[simp] theorem history_ensureReaderLocked (hub : ConsoleHub Line) (id : Text) (channel : Nat) :
    (hub.ensureReaderLocked id channel).history = hub.history := by
  rw [ensureReaderLocked]
  split
  · split
    · rfl
    · rw [history_startReaderLocked, history_stopReader]
  · exact history_startReaderLocked hub id channel

theorem history_stopAll (ids : List Text) : forall hub : ConsoleHub Line,
    (ids.foldl stopReader hub).history = hub.history := by
  induction ids with
  | nil => exact fun hub => rfl
  | cons id rest induction =>
      intro hub
      rw [List.foldl_cons, induction, history_stopReader]

theorem history_subscribe (hub : ConsoleHub Line) (id : Text) :
    (hub.subscribe id).2.history = hub.history := by
  have validated : (hub.validateSubscription id).2.history = hub.history := by
    rw [validateSubscription]
    split
    · split <;> rfl
    · split <;> rfl
  have opened : forall hub : ConsoleHub Line, (hub.openSender id).2.history = hub.history := by
    intro hub
    rw [openSender]
    split <;> rfl
  rw [subscribe]
  cases known : hub.validateSubscription id with
  | mk result after =>
      rw [known] at validated
      cases result with
      | error failure => exact validated
      | ok _ =>
          dsimp only
          split
          · exact validated
          · rw [history_ensureReaderLocked]
            exact (opened after).trans validated

/-- Forgetting servers takes their histories, and no other. -/
theorem lookup_forgetAll (ids : List Text) : forall (hub : ConsoleHub Line) (id : Text),
    (ids.foldl forget hub).history.entries.lookup id =
      if id ∈ ids then none else hub.history.entries.lookup id := by
  induction ids with
  | nil =>
      intro hub id
      rw [if_neg (List.not_mem_nil)]
      rfl
  | cons first rest induction =>
      intro hub id
      rw [List.foldl_cons, induction]
      by_cases later : id ∈ rest
      · rw [if_pos later, if_pos (List.mem_cons_of_mem _ later)]
      · rw [if_neg later, forget, HistoryCache.remove_entries]
        by_cases same : id = first
        · rw [same, AList.lookup_erase, if_pos List.mem_cons_self]
        · rw [Table.lookup_erase_of_ne same, if_neg]
          exact List.not_mem_cons_of_ne_of_not_mem same later

/-- Which histories the first inventory leaves. -/
theorem remembered_synchronize {hub : ConsoleHub Line} {serverIds inventory : List Text}
    (fresh : hub.inventoryInitialized = false) (valid : validateInventory serverIds = .ok inventory)
    (id : Text) : (hub.synchronizeServers serverIds).2.Remembered id <->
      hub.Remembered id /\ id ∉ hub.dropped inventory := by
  simp only [synchronizeServers, fresh, valid, Bool.false_eq_true, if_false, Remembered]
  rw [lookup_forgetAll]
  simp only [history_stopAll]
  split
  · next member => simp only [member, not_true_eq_false, and_false]
  · next absent => simp only [absent, not_false_eq_true, and_true]

/-- The servers owned after the first inventory. -/
theorem desired_synchronize {hub : ConsoleHub Line} {serverIds inventory : List Text}
    (fresh : hub.inventoryInitialized = false) (valid : validateInventory serverIds = .ok inventory) :
    (hub.synchronizeServers serverIds).2.desired = hub.adopted inventory :=
  congrArg Inventory.desired (inventory_synchronize fresh valid)

/-- Among the histories there are only some of another cache's, and perhaps one more. -/
theorem remembered_push [LineText Line] {cache : HistoryCache Line} {id other : Text} {line : Line}
    (found : Not ((cache.push id line).2.entries.lookup other = none)) :
    other = id \/ Not (cache.entries.lookup other = none) := by
  by_cases same : other = id
  · exact Or.inl same
  · right
    rcases HistoryCache.push_others cache line same with kept | gone
    · rwa [kept] at found
    · exact absurd gone found

theorem remembered_remove {cache : HistoryCache Line} {id other : Text}
    (found : Not ((cache.remove id).entries.lookup other = none)) :
    Not (other = id) /\ Not (cache.entries.lookup other = none) := by
  rw [HistoryCache.remove_entries] at found
  by_cases same : other = id
  · rw [same, AList.lookup_erase] at found
    exact absurd rfl found
  · rw [Table.lookup_erase_of_ne same] at found
    exact ⟨same, found⟩

theorem desired_of_inventory {hub after : ConsoleHub Line} (same : after.inventory = hub.inventory) :
    after.desired = hub.desired :=
  congrArg Inventory.desired same

/-- The consoles with a history are those of owned servers. -/
def HistoriesOwned (hub : ConsoleHub Line) : Prop :=
  forall id, hub.Remembered id -> id ∈ hub.desired

/-- It stays so where a history is kept from before or made for an owned server. -/
theorem HistoriesOwned.keep {hub after : ConsoleHub Line} (owned : HistoriesOwned hub)
    (history : forall id, after.Remembered id -> id ∈ hub.desired \/ hub.Remembered id)
    (desired : forall id, id ∈ hub.desired -> id ∈ after.desired) : HistoriesOwned after := by
  intro id found
  rcases history id found with own | before
  · exact desired id own
  · exact desired id (owned id before)

theorem HistoriesOwned.grow {hub after : ConsoleHub Line} (owned : HistoriesOwned hub)
    (history : after.history = hub.history)
    (desired : forall id, id ∈ hub.desired -> id ∈ after.desired) : HistoriesOwned after := by
  refine owned.keep ?_ desired
  intro id found
  rw [Remembered, history] at found
  exact Or.inr found

theorem HistoriesOwned.of_same {hub after : ConsoleHub Line} (owned : HistoriesOwned hub)
    (history : after.history = hub.history) (desired : after.desired = hub.desired) : HistoriesOwned after :=
  owned.grow history fun _ own => desired ▸ own

theorem HistoriesOwned.push [LineText Line] {hub : ConsoleHub Line} (owned : HistoriesOwned hub) {id : Text}
    (own : id ∈ hub.desired) (line : Line) : HistoriesOwned { hub with history := (hub.history.push id line).2 } := by
  refine owned.keep ?_ fun _ own => own
  intro other found
  rcases remembered_push found with here | before
  · rw [here]
    exact Or.inl own
  · exact Or.inr before

theorem HistoriesOwned.readerStep {hub : ConsoleHub Line} (owned : HistoriesOwned hub) {task : Nat}
    {phase : ReaderPhase} {next : ReaderTask -> ConsoleHub Line}
    (kept : forall reader, hub.tasks[task]? = some reader -> HistoriesOwned (next reader)) :
    HistoriesOwned (hub.readerStep task phase next) := by
  rw [ConsoleHub.readerStep]
  split
  · exact owned
  · next reader held =>
      split
      · exact kept reader held
      · exact owned

/-- A server that is removed takes its history along. -/
theorem HistoriesOwned.remove {hub : ConsoleHub Line} (owned : HistoriesOwned hub)
    (done : hub.inventoryInitialized = true) (id : Text) : HistoriesOwned (hub.remove id) := by
  intro other found
  have kept := remembered_remove found
  have before : hub.Remembered other := by
    rw [Remembered]
    intro lost
    apply kept.2
    rw [history_stopReader, done]
    exact lost
  exact (iff_and_of_told (told_remove hub id) other).mpr ⟨kept.1, owned other before⟩

theorem HistoriesOwned.retire {hub : ConsoleHub Line} (owned : HistoriesOwned hub) (task : Nat)
    (reader : ReaderTask) : HistoriesOwned (hub.retireIdleReader task reader) := by
  apply owned.keep
  · intro id found
    right
    rw [retireIdleReader] at found
    split at found
    · dsimp only at found
      split at found
      · rwa [Remembered, history_startReaderLocked] at found
      · exact (remembered_remove found).2
    · exact found
  · intro id own
    rw [desired_of_inventory (inventory_retireIdleReader hub task reader)]
    exact own

/-- Once the inventory has come, every action keeps the histories to the servers owned. -/
theorem remembered_step [LineText Line] {hub : ConsoleHub Line} (agreed : Agreed hub)
    (done : hub.inventoryInitialized = true) (owned : HistoriesOwned hub) (action : HubAction Line) :
    HistoriesOwned (hub.step action) := by
  cases action with
  | track id =>
      rw [step, trackServer]
      split
      · exact owned
      · simp only [recordAddition, done, if_true]
        exact owned.grow rfl fun _ own => List.mem_insert_of_mem own
  | refresh id =>
      rw [step, refreshServer]
      split
      · exact owned
      · simp only [recordAddition, done, if_true]
        split
        · exact owned.grow rfl fun _ own => List.mem_insert_of_mem own
        · exact owned.grow rfl fun _ own => List.mem_insert_of_mem own
  | synchronize serverIds =>
      rw [step, synchronizeServers, if_pos done]
      exact owned
  | subscribe id =>
      apply owned.of_same (history_subscribe hub id)
      have inventory := inventory_subscribe hub id
      apply desired_of_inventory
      rw [inventory, validateSubscription, if_pos done]
      split <;> rfl
  | snapshot id =>
      refine owned.keep ?_ fun _ own => own
      intro other found
      right
      intro lost
      apply found
      change (hub.history.snapshot id).2.entries.lookup other = none
      rw [HistoryCache.snapshot_lookup, lost]
      rfl
  | publish id line =>
      rw [step, publish.eq_def]
      split
      · exact owned
      · next admitted =>
          split
          · exact owned
          · simp only [done, Bool.true_and, Bool.not_true, Bool.false_and, Bool.or_false,
              decide_eq_true_eq, Decidable.not_not] at admitted
            exact owned.push admitted _
  | remove id => exact owned.remove done id
  | disconnect channel => exact owned.of_same rfl rfl
  | closed task =>
      apply owned.readerStep
      intro _ _
      split
      · exact owned.of_same rfl rfl
      · exact owned
  | viewerWoken task =>
      apply owned.readerStep
      intro _ _
      split
      · exact owned.of_same rfl rfl
      · exact owned
  | timer task => exact owned.readerStep fun _ _ => owned.of_same rfl rfl
  | retire task => exact owned.readerStep fun reader _ => owned.retire task reader
  | finish task =>
      rw [step]
      split
      · exact owned
      · split
        · exact owned
        · exact owned.of_same rfl rfl
  | line task line =>
      rw [step]
      split
      · exact owned
      · next reader held =>
          split
          · next working =>
              simp only [Bool.and_eq_true, decide_eq_true_eq] at working
              exact owned.push (agreed.owned_of_registered (agreed.living held working.1.1 working.1.2)) line
          · exact owned

/-- In every state after the inventory has come, the console state is that of owned servers. -/
def KeepsToOwned [LineText Line] (hub : ConsoleHub Line) (run : List (HubAction Line)) : Prop :=
  forall front back, run = front ++ back -> bootstrapped front = true -> Contained (hub.after front)

/-- Every history that the first inventory finds belongs to a server that was
owned already or is adopted by it. -/
def NothingForeign [LineText Line] (hub : ConsoleHub Line) (run : List (HubAction Line)) : Prop :=
  forall front serverIds back inventory, run = front ++ .synchronize serverIds :: back ->
    bootstrapped front = false -> validateInventory serverIds = .ok inventory ->
      forall id, (hub.after front).Remembered id ->
        id ∈ (hub.after front).desired \/ id ∈ (hub.after front).adopted inventory

/-- The console state keeps to the owned servers exactly when the first
inventory finds no history of a server that neither was owned nor is adopted. -/
theorem keepsToOwned_iff_nothingForeign [LineText Line] (docker : Bool)
    (maxActiveReaders maximumBytes : Nat) (run : List (HubAction Line)) :
    KeepsToOwned (start docker maxActiveReaders maximumBytes) run <->
      NothingForeign (start docker maxActiveReaders maximumBytes) run := by
  constructor
  · intro keeps front serverIds back inventory split early valid id found
    have owned := owned_after docker maxActiveReaders maximumBytes front
    have fresh := owned.initialized.trans early
    have whole : run = (front ++ [.synchronize serverIds]) ++ back := by
      rw [split, List.append_assoc]
      rfl
    have accepted : bootstrapped (front ++ [.synchronize serverIds]) = true := by
      rw [bootstrapped_append, early]
      simp only [bootstrapped, List.any_cons, valid]
      rfl
    have contained := keeps _ back whole accepted
    rw [after, Machine.reach_append] at contained
    by_cases inside : id ∈ ((start docker maxActiveReaders maximumBytes).after front).dropped inventory
    · exact Or.inl (List.mem_filter.mp inside).1
    · right
      have kept := contained.history id ((remembered_synchronize fresh valid id).mpr ⟨found, inside⟩)
      exact (desired_synchronize fresh valid) ▸ kept
  · intro clean front back split
    have histories : forall later, run = front ++ later -> bootstrapped front = true ->
        forall id, ((start docker maxActiveReaders maximumBytes).after front).Remembered id ->
          id ∈ ((start docker maxActiveReaders maximumBytes).after front).desired := by
      clear split back
      induction front using List.reverseRecOn with
      | nil =>
          intro later _ impossible
          cases impossible
      | append_singleton earlier action induction =>
          intro later split booted
          have whole : run = earlier ++ action :: later := by
            rw [split, List.append_assoc]
            rfl
          have owned := owned_after docker maxActiveReaders maximumBytes earlier
          have agreed : Agreed ((start docker maxActiveReaders maximumBytes).after earlier) :=
            agreed_after docker maxActiveReaders maximumBytes earlier
          rw [after, Machine.reach_append]
          cases before : bootstrapped earlier with
          | true =>
              exact remembered_step agreed (owned.initialized.trans before)
                (induction (action :: later) whole before) action
          | false =>
              have fresh := owned.initialized.trans before
              rw [bootstrapped_append, before, Bool.false_or] at booted
              rcases synchronize_of_bootstrapped booted with ⟨serverIds, inventory, same, valid⟩
              subst same
              intro id found
              change id ∈ (synchronizeServers (after _ earlier) serverIds).2.desired
              rw [desired_synchronize fresh valid]
              have kept := (remembered_synchronize fresh valid id).mp found
              rcases clean earlier serverIds later inventory whole before valid id kept.1 with old | new
              · by_cases adopted : id ∈ ((start docker maxActiveReaders maximumBytes).after
                    earlier).adopted inventory
                · exact adopted
                · exact absurd (List.mem_filter.mpr ⟨old, decide_eq_true adopted⟩) kept.2
              · exact new
    intro booted
    exact (agreed_after docker maxActiveReaders maximumBytes front).contained
      (histories back split booted)

/-- A line that is published for an unknown server before the inventory stays after it. -/
theorem foreign_history_kept : Not (forall (docker : Bool) (maxActiveReaders maximumBytes : Nat)
    (run : List (HubAction Text)),
      KeepsToOwned (start docker maxActiveReaders maximumBytes) run) := by
  intro always
  have contained := always true 256 (1024 * 1024)
    [.publish ['g'] (some ['x']), .synchronize []] _ [] (List.append_nil _).symm (by decide)
  have owned := contained.history ['g'] (by rw [Remembered, <- Option.isNone_iff_eq_none]; decide)
  exact absurd owned (by decide)

end ConsoleHub

end Console
end Agapornis
