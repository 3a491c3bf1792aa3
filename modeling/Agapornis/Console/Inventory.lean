import Agapornis.Console.Hub

namespace Agapornis
namespace Console

open Foundations
open Agapornis.Core (Failure refuseIf)
open Agapornis.Core.Paths (validateId)

/-!
# Who owns a console

Servers may be added and removed before the first inventory arrives.  What was
said last about a server then decides, and the inventory speaks for those about
which nothing was said.  Subscriptions say nothing about ownership.
-/

/-- What an operation says about the ownership of a server. -/
inductive Mutation where
  | addition
  | removal
  deriving DecidableEq, Repr

variable {Line : Type}

namespace ConsoleHub

/-- What an action says about a server; an id that is refused is not added. -/
def mutation (id : Text) : HubAction Line -> Option Mutation
  | .track target => if target = id && (validateId target).isOk then some .addition else none
  | .refresh target => if target = id && (validateId target).isOk then some .addition else none
  | .remove target => if target = id then some .removal else none
  | _ => none

/-- What a run has said last about a server. -/
def lastMutation (id : Text) (run : List (HubAction Line)) : Option Mutation :=
  (run.filterMap (mutation id)).getLast?

/-- A run has brought an inventory that was accepted. -/
def bootstrapped (run : List (HubAction Line)) : Bool :=
  run.any fun action =>
    match action with
    | .synchronize serverIds => (validateInventory serverIds).isOk
    | _ => false

/-- The part of the hub that says who owns what. -/
structure Inventory where
  desired : List Text
  pendingAdditions : List Text
  pendingRemovals : List Text
  initialized : Bool
  deriving DecidableEq

def inventory (hub : ConsoleHub Line) : Inventory where
  desired := hub.desired
  pendingAdditions := hub.pendingAdditions
  pendingRemovals := hub.pendingRemovals
  initialized := hub.inventoryInitialized

@[simp] theorem inventory_stopReader (hub : ConsoleHub Line) (id : Text) :
    (hub.stopReader id).inventory = hub.inventory := by
  rw [stopReader]
  split <;> rfl

@[simp] theorem inventory_startReaderLocked (hub : ConsoleHub Line) (id : Text) (channel : Nat) :
    (hub.startReaderLocked id channel).inventory = hub.inventory := by
  rw [startReaderLocked]
  split <;> rfl

@[simp] theorem inventory_ensureReaderLocked (hub : ConsoleHub Line) (id : Text) (channel : Nat) :
    (hub.ensureReaderLocked id channel).inventory = hub.inventory := by
  rw [ensureReaderLocked]
  split
  · split
    · rfl
    · rw [inventory_startReaderLocked, inventory_stopReader]
  · exact inventory_startReaderLocked hub id channel

@[simp] theorem inventory_forget (hub : ConsoleHub Line) (id : Text) :
    (hub.forget id).inventory = hub.inventory :=
  rfl

@[simp] theorem inventory_openSender (hub : ConsoleHub Line) (id : Text) :
    (hub.openSender id).2.inventory = hub.inventory := by
  rw [openSender]
  split <;> rfl

@[simp] theorem inventory_retireIdleReader (hub : ConsoleHub Line) (task : Nat) (reader : ReaderTask) :
    (hub.retireIdleReader task reader).inventory = hub.inventory := by
  rw [retireIdleReader]
  split
  · dsimp only
    split
    · rw [inventory_startReaderLocked]
      rfl
    · rfl
  · rfl

theorem inventory_foldl {change : ConsoleHub Line -> Text -> ConsoleHub Line}
    (same : forall hub id, (change hub id).inventory = hub.inventory) (ids : List Text) :
    forall hub : ConsoleHub Line, (ids.foldl change hub).inventory = hub.inventory := by
  induction ids with
  | nil => exact fun hub => rfl
  | cons id rest induction =>
      intro hub
      rw [List.foldl_cons, induction, same]

/-- What a subscription leaves of the ownership when it is accepted so far. -/
theorem inventory_subscribe (hub : ConsoleHub Line) (id : Text) :
    (hub.subscribe id).2.inventory = (hub.validateSubscription id).2.inventory := by
  rw [subscribe]
  cases accepted : hub.validateSubscription id with
  | mk result after =>
      cases result with
      | error failure => rfl
      | ok _ =>
          dsimp only
          split
          · rfl
          · rw [inventory_ensureReaderLocked]
            exact inventory_openSender after id

theorem inventory_synchronize {hub : ConsoleHub Line} {serverIds inventory : List Text}
    (fresh : hub.inventoryInitialized = false) (valid : validateInventory serverIds = .ok inventory) :
    (hub.synchronizeServers serverIds).2.inventory =
      { desired := hub.adopted inventory, pendingAdditions := [], pendingRemovals := [],
        initialized := true } := by
  simp only [synchronizeServers, fresh, Bool.false_eq_true, if_false, valid]
  rw [inventory_foldl inventory_forget]
  rfl

theorem inventory_readerStep {hub : ConsoleHub Line} {task : Nat} {phase : ReaderPhase}
    {next : ReaderTask -> ConsoleHub Line} (same : forall reader, (next reader).inventory = hub.inventory) :
    (hub.readerStep task phase next).inventory = hub.inventory := by
  rw [readerStep]
  split
  · rfl
  · split
    · exact same _
    · rfl

/-- An inventory that is accepted holds the ids that it was given. -/
theorem mem_validateInventory {serverIds : List Text} : forall {inventory : List Text},
    validateInventory serverIds = .ok inventory -> forall id, id ∈ inventory <-> id ∈ serverIds := by
  induction serverIds with
  | nil =>
      intro inventory valid id
      cases valid
      exact Iff.rfl
  | cons first rest induction =>
      intro inventory valid id
      rcases Core.bind_eq_ok.mp valid with ⟨_, _, continued⟩
      rcases Core.bind_eq_ok.mp continued with ⟨desired, validRest, same⟩
      cases same
      rw [List.mem_insert_iff, List.mem_cons, induction validRest]

theorem lastMutation_append (id : Text) (run : List (HubAction Line)) (action : HubAction Line) :
    lastMutation id (run ++ [action]) = (mutation id action).or (lastMutation id run) := by
  rw [lastMutation, List.filterMap_append, lastMutation]
  cases said : mutation id action with
  | none =>
      simp only [List.filterMap_cons, said, List.filterMap_nil, List.append_nil, Option.none_or]
  | some change =>
      simp only [List.filterMap_cons, said, List.filterMap_nil, List.getLast?_append,
        List.getLast?_singleton, Option.some_or]

theorem bootstrapped_append (run : List (HubAction Line)) (action : HubAction Line) :
    bootstrapped (run ++ [action]) = (bootstrapped run || bootstrapped [action]) := by
  rw [bootstrapped, List.any_append]
  rfl

/-- The action that brings an accepted inventory. -/
theorem synchronize_of_bootstrapped {action : HubAction Line} (accepted : bootstrapped [action] = true) :
    Exists fun serverIds => Exists fun inventory => action = .synchronize serverIds /\
      validateInventory serverIds = .ok inventory := by
  cases action with
  | synchronize serverIds =>
      cases valid : validateInventory serverIds with
      | ok inventory => exact ⟨serverIds, inventory, rfl, valid⟩
      | error failure =>
          simp only [bootstrapped, List.any_cons, valid] at accepted
          cases accepted
  | _ => cases accepted

/-- The ids about which a mutation is pending. -/
def Inventory.pending (inventory : Inventory) : Mutation -> List Text
  | .addition => inventory.pendingAdditions
  | .removal => inventory.pendingRemovals

/-- What the hub knows of the ownership agrees with what was said last. -/
structure Owned (hub : ConsoleHub Line) (run : List (HubAction Line)) : Prop where
  initialized : hub.inventoryInitialized = bootstrapped run
  pending : hub.inventoryInitialized = false -> forall change id,
    id ∈ hub.inventory.pending change <-> lastMutation id run = some change
  drained : hub.inventoryInitialized = true -> forall change, hub.inventory.pending change = []
  desired : forall {id change}, lastMutation id run = some change ->
    (id ∈ hub.desired <-> change = .addition)

theorem owned_start (docker : Bool) (maxActiveReaders maximumBytes : Nat) :
    Owned (start docker maxActiveReaders maximumBytes : ConsoleHub Line) [] where
  initialized := rfl
  pending _ change id := by
    cases change with
    | addition => exact ⟨nofun, nofun⟩
    | removal => exact ⟨nofun, nofun⟩
  drained := nofun
  desired said := by cases said

/-- Actions that leave the ownership alone and say nothing about it. -/
theorem owned_of_same {hub after : ConsoleHub Line} {run : List (HubAction Line)} {action : HubAction Line}
    (owned : Owned hub run) (same : after.inventory = hub.inventory)
    (silent : forall id, mutation id action = none)
    (quiet : bootstrapped [action] = false \/ hub.inventoryInitialized = true) :
    Owned after (run ++ [action]) := by
  have desired : after.desired = hub.desired := congrArg Inventory.desired same
  have initialized : after.inventoryInitialized = hub.inventoryInitialized :=
    congrArg Inventory.initialized same
  have last : forall id, lastMutation id (run ++ [action]) = lastMutation id run := by
    intro id
    rw [lastMutation_append, silent, Option.none_or]
  refine ⟨?_, ?_, ?_, ?_⟩
  · rw [initialized, bootstrapped_append, <- owned.initialized]
    rcases quiet with rejected | done
    · rw [rejected, Bool.or_false]
    · rw [done, Bool.true_or]
  · intro fresh change id
    rw [same, last]
    exact owned.pending (initialized.symm.trans fresh) change id
  · intro done
    rw [same]
    exact owned.drained (initialized.symm.trans done)
  · intro id change said
    rw [desired]
    exact owned.desired ((last id).symm.trans said)

/-- What an addition or a removal of a server makes of the ownership. -/
structure Told (before : Inventory) (id : Text) (change : Mutation) (after : Inventory) : Prop where
  initialized : after.initialized = before.initialized
  pending : before.initialized = false -> forall kind other,
    other ∈ after.pending kind <-> if id = other then change = kind else other ∈ before.pending kind
  still : before.initialized = true -> forall kind, after.pending kind = before.pending kind
  desired : forall other, other ∈ after.desired <->
    if id = other then change = .addition else other ∈ before.desired

theorem mem_insert_told (id other : Text) (ids : List Text) :
    other ∈ ids.insert id <-> if id = other then True else other ∈ ids := by
  rw [List.mem_insert_iff]
  by_cases same : id = other
  · simp only [same, true_or, if_true]
  · simp only [same, Ne.symm same, false_or, if_false]

theorem mem_filter_told (id other : Text) (ids : List Text) :
    other ∈ ids.filter (· ≠ id) <-> if id = other then False else other ∈ ids := by
  rw [List.mem_filter, decide_eq_true_eq]
  by_cases same : id = other
  · simp only [same, ne_eq, not_true_eq_false, and_false, if_true]
  · simp only [same, ne_eq, Ne.symm same, not_false_eq_true, and_true, if_false]

theorem told_trackServer {hub : ConsoleHub Line} {id : Text} (valid : validateId id = .ok ()) :
    Told hub.inventory id .addition (hub.trackServer id).2.inventory := by
  have desired (other : Text) : other ∈ hub.desired.insert id <->
      if id = other then Mutation.addition = .addition else other ∈ hub.desired := by
    rw [mem_insert_told, eq_self]
  cases fresh : hub.inventoryInitialized with
  | true =>
      simp only [trackServer, valid, recordAddition, fresh, if_true]
      refine ⟨fresh.symm, fun waiting => ?_, fun _ kind => ?_, desired⟩
      · rw [show hub.inventory.initialized = true from fresh] at waiting
        cases waiting
      · cases kind <;> rfl
  | false =>
      simp only [trackServer, valid, recordAddition, fresh, Bool.false_eq_true, if_false]
      refine ⟨fresh.symm, fun _ kind other => ?_, fun done => absurd (fresh.symm.trans done) nofun, desired⟩
      cases kind with
      | addition =>
          rw [eq_self]
          exact mem_insert_told id other hub.pendingAdditions
      | removal =>
          simp only [reduceCtorEq]
          exact mem_filter_told id other hub.pendingRemovals

theorem told_refreshServer {hub : ConsoleHub Line} {id : Text} (valid : validateId id = .ok ()) :
    Told hub.inventory id .addition (hub.refreshServer id).2.inventory := by
  have same : (hub.refreshServer id).2.inventory = (hub.trackServer id).2.inventory := by
    simp only [refreshServer, trackServer, valid]
    split <;> rfl
  rw [same]
  exact told_trackServer valid

theorem told_remove (hub : ConsoleHub Line) (id : Text) :
    Told hub.inventory id .removal (hub.remove id).inventory := by
  have desired (other : Text) : other ∈ hub.desired.filter (· ≠ id) <->
      if id = other then Mutation.removal = .addition else other ∈ hub.desired := by
    simp only [reduceCtorEq]
    exact mem_filter_told id other hub.desired
  cases fresh : hub.inventoryInitialized with
  | true =>
      simp only [remove, inventory_forget, inventory_stopReader, fresh, if_true]
      refine ⟨fresh.symm, fun waiting => ?_, fun _ kind => ?_, desired⟩
      · rw [show hub.inventory.initialized = true from fresh] at waiting
        cases waiting
      · cases kind <;> rfl
  | false =>
      simp only [remove, inventory_forget, inventory_stopReader, fresh, Bool.false_eq_true, if_false]
      refine ⟨fresh.symm, fun _ kind other => ?_, fun done => absurd (fresh.symm.trans done) nofun, desired⟩
      cases kind with
      | addition =>
          simp only [reduceCtorEq]
          exact mem_filter_told id other hub.pendingAdditions
      | removal =>
          rw [eq_self]
          exact mem_insert_told id other hub.pendingRemovals

theorem owned_told {hub after : ConsoleHub Line} {run : List (HubAction Line)} {action : HubAction Line} {id : Text}
    {change : Mutation} (owned : Owned hub run) (told : Told hub.inventory id change after.inventory)
    (said : forall other, mutation other action = if id = other then some change else none)
    (quiet : bootstrapped [action] = false) : Owned after (run ++ [action]) := by
  have last : forall other, lastMutation other (run ++ [action]) =
      if id = other then some change else lastMutation other run := by
    intro other
    rw [lastMutation_append, said]
    split
    · exact Option.some_or
    · exact Option.none_or
  have initialized : after.inventoryInitialized = hub.inventoryInitialized := told.initialized
  refine ⟨?_, ?_, ?_, ?_⟩
  · rw [initialized, bootstrapped_append, quiet, Bool.or_false, owned.initialized]
  · intro waiting kind other
    have fresh : hub.inventoryInitialized = false := initialized.symm.trans waiting
    rw [told.pending fresh, last]
    split
    · rw [Option.some.injEq]
    · exact owned.pending fresh kind other
  · intro done kind
    have settled : hub.inventoryInitialized = true := initialized.symm.trans done
    rw [told.still settled, owned.drained settled]
  · intro other kind lastSaid
    rw [last] at lastSaid
    refine (told.desired other).trans ?_
    split at lastSaid
    · next same =>
        rw [if_pos same]
        cases lastSaid
        exact Iff.rfl
    · next different =>
        rw [if_neg different]
        exact owned.desired lastSaid

theorem mem_adopted (hub : ConsoleHub Line) (inventory : List Text) (id : Text) :
    id ∈ hub.adopted inventory <->
      (id ∈ inventory \/ id ∈ hub.pendingAdditions) /\ id ∉ hub.pendingRemovals := by
  rw [adopted, List.mem_filter, List.mem_union_iff, decide_eq_true_eq]

/-- The servers adopted are those last added, and of the others the ones listed. -/
theorem mem_adopted_of_owned {hub : ConsoleHub Line} {run : List (HubAction Line)} (owned : Owned hub run)
    (fresh : hub.inventoryInitialized = false) {serverIds inventory : List Text}
    (valid : validateInventory serverIds = .ok inventory) (id : Text) :
    id ∈ hub.adopted inventory <-> lastMutation id run = some .addition \/
      lastMutation id run = none /\ id ∈ serverIds := by
  have additions : id ∈ hub.pendingAdditions <-> lastMutation id run = some .addition :=
    owned.pending fresh .addition id
  have removals : id ∈ hub.pendingRemovals <-> lastMutation id run = some .removal :=
    owned.pending fresh .removal id
  rw [mem_adopted, mem_validateInventory valid, additions, removals]
  cases lastMutation id run with
  | none => simp
  | some change => cases change <;> simp

theorem owned_synchronize {hub : ConsoleHub Line} {run : List (HubAction Line)} (owned : Owned hub run)
    (serverIds : List Text) :
    Owned (hub.synchronizeServers serverIds).2 (run ++ [.synchronize serverIds]) := by
  cases fresh : hub.inventoryInitialized with
  | true =>
      apply owned_of_same owned _ (fun _ => rfl) (Or.inr fresh)
      rw [synchronizeServers, fresh]
      rfl
  | false =>
      cases valid : validateInventory serverIds with
      | error failure =>
          apply owned_of_same owned _ (fun _ => rfl)
          · left
            simp only [bootstrapped, List.any_cons, valid, List.any_nil]
            rfl
          · simp only [synchronizeServers, fresh, valid, Bool.false_eq_true, if_false]
      | ok inventory =>
          have settled := inventory_synchronize fresh valid
          have last : forall id, lastMutation id (run ++ [.synchronize serverIds]) =
              lastMutation id run := by
            intro id
            rw [lastMutation_append]
            exact Option.none_or
          refine ⟨?_, ?_, ?_, ?_⟩
          · rw [bootstrapped_append]
            have accepted : bootstrapped [(.synchronize serverIds : HubAction Line)] = true := by
              simp only [bootstrapped, List.any_cons, valid]
              rfl
            rw [accepted, Bool.or_true]
            exact congrArg Inventory.initialized settled
          · intro waiting
            rw [show (hub.synchronizeServers serverIds).2.inventoryInitialized = true from
              congrArg Inventory.initialized settled] at waiting
            cases waiting
          · intro _ change
            rw [settled]
            cases change <;> rfl
          · intro id change said
            rw [last] at said
            have desired : (hub.synchronizeServers serverIds).2.desired = hub.adopted inventory :=
              congrArg Inventory.desired settled
            rw [desired, mem_adopted_of_owned owned fresh valid, said]
            simp

/-- A subscription is refused for a server last removed, and changes nothing then. -/
theorem subscribe_of_removed {hub : ConsoleHub Line} {run : List (HubAction Line)} (owned : Owned hub run)
    {id : Text} (removed : lastMutation id run = some .removal) :
    Exists fun failure => hub.subscribe id = (.error failure, hub) := by
  have gone : id ∉ hub.desired := by
    rw [owned.desired removed]
    exact nofun
  cases fresh : hub.inventoryInitialized with
  | true =>
      refine ⟨notAssigned, ?_⟩
      simp only [subscribe, validateSubscription, fresh, if_true, gone, if_false]
  | false =>
      have pending : id ∈ hub.pendingRemovals := (owned.pending fresh .removal id).mpr removed
      refine ⟨removedBeforeBootstrap, ?_⟩
      simp only [subscribe, validateSubscription, fresh, Bool.false_eq_true, if_false, pending, if_true]

theorem owned_subscribe {hub : ConsoleHub Line} {run : List (HubAction Line)} (owned : Owned hub run) (id : Text) :
    Owned (hub.subscribe id).2 (run ++ [.subscribe id]) := by
  have same := inventory_subscribe hub id
  by_cases opened : hub.inventoryInitialized = false /\ id ∉ hub.pendingRemovals
  · have last : forall other, lastMutation other (run ++ [.subscribe id]) = lastMutation other run := by
      intro other
      rw [lastMutation_append]
      exact Option.none_or
    rw [validateSubscription, if_neg (by rw [opened.1]; exact Bool.false_ne_true), if_neg opened.2] at same
    have initialized : (hub.subscribe id).2.inventoryInitialized = hub.inventoryInitialized :=
      congrArg Inventory.initialized same
    have desired : (hub.subscribe id).2.desired = hub.desired.insert id :=
      congrArg Inventory.desired same
    refine ⟨?_, ?_, ?_, ?_⟩
    · rw [initialized, bootstrapped_append, owned.initialized]
      exact (Bool.or_false _).symm
    · intro waiting change other
      rw [last, <- owned.pending opened.1, same]
      cases change <;> exact Iff.rfl
    · intro done
      rw [initialized, opened.1] at done
      cases done
    · intro other change said
      rw [last] at said
      rw [desired, mem_insert_told]
      split
      · next here =>
          subst here
          cases change with
          | addition => simp
          | removal => exact absurd ((owned.pending opened.1 .removal id).mpr said) opened.2
      · exact owned.desired said
  · apply owned_of_same owned _ (fun _ => rfl) (Or.inl rfl)
    rw [same, validateSubscription]
    split
    · split <;> rfl
    · next fresh =>
        rw [Bool.not_eq_true] at fresh
        rw [if_pos (Decidable.not_not.mp fun absent => opened ⟨fresh, absent⟩)]

theorem owned_step [LineText Line] {hub : ConsoleHub Line} {run : List (HubAction Line)} (owned : Owned hub run)
    (action : HubAction Line) : Owned (hub.step action) (run ++ [action]) := by
  cases action with
  | track id =>
      cases valid : validateId id with
      | ok _ =>
          apply owned_told owned (told_trackServer valid) _ rfl
          intro other
          simp only [mutation, valid, Except.isOk, Except.toBool, Bool.and_true, decide_eq_true_eq]
      | error failure =>
          apply owned_of_same owned _ _ (Or.inl rfl)
          · simp only [step, trackServer, valid]
          · intro other
            simp only [mutation, valid, Except.isOk, Except.toBool, Bool.and_false, Bool.false_eq_true,
              if_false]
  | refresh id =>
      cases valid : validateId id with
      | ok _ =>
          apply owned_told owned (told_refreshServer valid) _ rfl
          intro other
          simp only [mutation, valid, Except.isOk, Except.toBool, Bool.and_true, decide_eq_true_eq]
      | error failure =>
          apply owned_of_same owned _ _ (Or.inl rfl)
          · simp only [step, refreshServer, valid]
          · intro other
            simp only [mutation, valid, Except.isOk, Except.toBool, Bool.and_false, Bool.false_eq_true,
              if_false]
  | synchronize serverIds => exact owned_synchronize owned serverIds
  | subscribe id => exact owned_subscribe owned id
  | snapshot id => exact owned_of_same owned rfl (fun _ => rfl) (Or.inl rfl)
  | publish id line =>
      apply owned_of_same owned _ (fun _ => rfl) (Or.inl rfl)
      rw [step, publish.eq_def]
      split
      · rfl
      · split <;> rfl
  | remove id => exact owned_told owned (told_remove hub id) (fun _ => rfl) rfl
  | disconnect channel => exact owned_of_same owned rfl (fun _ => rfl) (Or.inl rfl)
  | closed task =>
      apply owned_of_same owned (inventory_readerStep _) (fun _ => rfl) (Or.inl rfl)
      intro reader
      split <;> rfl
  | viewerWoken task =>
      apply owned_of_same owned (inventory_readerStep _) (fun _ => rfl) (Or.inl rfl)
      intro reader
      split <;> rfl
  | timer task =>
      exact owned_of_same owned (inventory_readerStep fun _ => rfl) (fun _ => rfl) (Or.inl rfl)
  | retire task =>
      apply owned_of_same owned (inventory_readerStep _) (fun _ => rfl) (Or.inl rfl)
      intro reader
      exact inventory_retireIdleReader hub task reader
  | finish task =>
      apply owned_of_same owned _ (fun _ => rfl) (Or.inl rfl)
      rw [step]
      split
      · rfl
      · split <;> rfl
  | line task line =>
      apply owned_of_same owned _ (fun _ => rfl) (Or.inl rfl)
      rw [step]
      split
      · rfl
      · split <;> rfl

theorem owned_after [LineText Line] (docker : Bool) (maxActiveReaders maximumBytes : Nat)
    (run : List (HubAction Line)) :
    Owned ((start docker maxActiveReaders maximumBytes).after run) run := by
  induction run using List.reverseRecOn with
  | nil => exact owned_start docker maxActiveReaders maximumBytes
  | append_singleton earlier action induction =>
      rw [after, Machine.reach_append]
      exact owned_step induction action

/-- The ownership of consoles around the first inventory that is accepted. -/
structure LastWriterWins (hub : ConsoleHub Line) (run : List (HubAction Line)) : Prop where
  bootstrap : bootstrapped run = false -> forall {serverIds inventory},
    validateInventory serverIds = .ok inventory ->
      (hub.synchronizeServers serverIds).1.isOk = true /\
        forall id, id ∈ (hub.synchronizeServers serverIds).2.desired <->
          lastMutation id run = some .addition \/ lastMutation id run = none /\ id ∈ serverIds
  failed : forall {serverIds failure}, (hub.synchronizeServers serverIds).1 = .error failure ->
    (hub.synchronizeServers serverIds).2 = hub
  later : bootstrapped run = true -> forall serverIds,
    (hub.synchronizeServers serverIds).1.isOk = true /\ (hub.synchronizeServers serverIds).2 = hub
  added : bootstrapped run = true -> forall {id}, validateId id = .ok () -> forall other,
    (other ∈ (hub.trackServer id).2.desired <-> other = id \/ other ∈ hub.desired) /\
      (other ∈ (hub.refreshServer id).2.desired <-> other = id \/ other ∈ hub.desired)
  removed : bootstrapped run = true -> forall id other,
    other ∈ (hub.remove id).desired <-> Not (other = id) /\ other ∈ hub.desired
  disjoint : forall {id}, id ∈ hub.pendingAdditions -> id ∉ hub.pendingRemovals
  stays : forall {id}, lastMutation id run = some .removal -> id ∉ hub.desired /\
    Exists fun failure => hub.subscribe id = (.error failure, hub)

theorem owned_disjoint {hub : ConsoleHub Line} {run : List (HubAction Line)} (owned : Owned hub run) {id : Text}
    (added : id ∈ hub.pendingAdditions) : id ∉ hub.pendingRemovals := by
  intro removed
  cases fresh : hub.inventoryInitialized with
  | false =>
      have one := (owned.pending fresh .addition id).mp added
      have other := (owned.pending fresh .removal id).mp removed
      rw [one] at other
      cases other
  | true =>
      rw [show hub.pendingAdditions = [] from owned.drained fresh .addition] at added
      cases added

theorem synchronize_failed {hub : ConsoleHub Line} {serverIds : List Text} {failure : Failure}
    (failed : (hub.synchronizeServers serverIds).1 = .error failure) :
    (hub.synchronizeServers serverIds).2 = hub := by
  rw [synchronizeServers] at failed ⊢
  split
  · rfl
  · next fresh =>
      rw [if_neg fresh] at failed
      cases valid : validateInventory serverIds with
      | error failure => rfl
      | ok inventory =>
          rw [valid] at failed
          cases failed

theorem iff_or_of_told {before after : Inventory} {id : Text} (told : Told before id .addition after)
    (other : Text) : other ∈ after.desired <-> other = id \/ other ∈ before.desired := by
  rw [told.desired, eq_self]
  by_cases same : id = other
  · simp only [same, if_true, true_or]
  · simp only [same, Ne.symm same, if_false, false_or]

theorem iff_and_of_told {before after : Inventory} {id : Text} (told : Told before id .removal after)
    (other : Text) : other ∈ after.desired <-> Not (other = id) /\ other ∈ before.desired := by
  rw [told.desired]
  by_cases same : id = other
  · simp only [same, reduceCtorEq, if_true, not_true_eq_false, false_and]
  · simp only [same, Ne.symm same, if_false, not_false_eq_true, true_and]

/-- After every run what was said last about a server decides who owns it. -/
theorem inventory_lastWriterWins [LineText Line] (docker : Bool) (maxActiveReaders maximumBytes : Nat)
    (run : List (HubAction Line)) :
    LastWriterWins ((start docker maxActiveReaders maximumBytes).after run) run := by
  have owned := owned_after docker maxActiveReaders maximumBytes run
  refine ⟨?_, synchronize_failed, ?_, ?_, ?_, owned_disjoint owned, ?_⟩
  · intro early serverIds inventory valid
    have fresh := owned.initialized.trans early
    refine ⟨?_, ?_⟩
    · simp only [synchronizeServers, fresh, valid, Bool.false_eq_true, if_false]
      rfl
    · intro id
      have desired := congrArg Inventory.desired (inventory_synchronize fresh valid)
      exact (iff_of_eq (congrArg (id ∈ ·) desired)).trans (mem_adopted_of_owned owned fresh valid id)
  · intro done serverIds
    rw [synchronizeServers, if_pos (owned.initialized.trans done)]
    exact ⟨rfl, rfl⟩
  · intro _ id valid other
    exact ⟨iff_or_of_told (told_trackServer valid) other, iff_or_of_told (told_refreshServer valid) other⟩
  · intro _ id other
    exact iff_and_of_told (told_remove _ id) other
  · intro id said
    refine ⟨?_, subscribe_of_removed owned said⟩
    rw [owned.desired said]
    exact nofun

end ConsoleHub

end Console
end Agapornis
