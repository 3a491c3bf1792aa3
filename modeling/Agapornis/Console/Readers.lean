import Agapornis.Console.Inventory

namespace Agapornis
namespace Console

open Foundations
open Agapornis.Core (Failure refuseIf)

/-!
# Who reads the consoles

A reader decides on its own that it is idle and acts on that later, under the
lifecycle lock; a viewer may come in between.  The register of readers, the
channels and the tasks agree all the same: whoever is registered is alive and
reads for the channel of its console.  While servers are being discarded the
agreement holds but for these.
-/

variable {Line : Type}

namespace ConsoleHub

/-! ## Changes that revive no reader -/

theorem getElem?_modify_some {tasks : List ReaderTask} {task place : Nat}
    {change : ReaderTask -> ReaderTask} {reader : ReaderTask}
    (found : (tasks.modify task change)[place]? = some reader) :
    Exists fun before => tasks[place]? = some before /\
      reader = if task = place then change before else before := by
  rw [List.getElem?_modify] at found
  cases held : tasks[place]? with
  | none =>
      rw [held] at found
      cases found
  | some before =>
      rw [held] at found
      exact ⟨before, rfl, (Option.some.inj found).symm⟩

theorem getElem?_modify_of_some {tasks : List ReaderTask} {task place : Nat}
    {change : ReaderTask -> ReaderTask} {reader : ReaderTask} (held : tasks[place]? = some reader) :
    (tasks.modify task change)[place]? = some (if task = place then change reader else reader) := by
  rw [List.getElem?_modify, held]
  rfl

/-- A reader that may still act is registered for its console. -/
def Living (hub : ConsoleHub Line) : Prop :=
  forall {task : Nat} {reader : ReaderTask}, hub.tasks[task]? = some reader -> reader.active = true ->
    Not (reader.phase = .finished) -> hub.readers.lookup reader.server = some task

/-- A change of the hub that revives no reader. -/
structure Steady (hub next : ConsoleHub Line) : Prop where
  kept : forall {task : Nat} {reader : ReaderTask}, hub.tasks[task]? = some reader ->
    Exists fun later => next.tasks[task]? = some later /\ later.server = reader.server /\
      (later.active = true -> reader.active = true) /\
      (reader.phase = .finished -> later.phase = .finished)
  living : Living hub -> Living next

theorem Steady.of_same {hub next : ConsoleHub Line} (tasks : next.tasks = hub.tasks)
    (readers : next.readers = hub.readers) : Steady hub next where
  kept {_ reader} found := ⟨reader, tasks ▸ found, rfl, fun active => active, fun ended => ended⟩
  living living task reader found active running := by
    rw [tasks] at found
    rw [readers]
    exact living found active running

theorem Steady.refl (hub : ConsoleHub Line) : Steady hub hub :=
  Steady.of_same rfl rfl

theorem Steady.trans {first second third : ConsoleHub Line} (earlier : Steady first second)
    (later : Steady second third) : Steady first third where
  kept found := by
    rcases earlier.kept found with ⟨between, held, server, active, ended⟩
    rcases later.kept held with ⟨last, heldLast, serverLast, activeLast, endedLast⟩
    exact ⟨last, heldLast, serverLast.trans server, fun still => active (activeLast still),
      fun isOver => endedLast (ended isOver)⟩
  living living := later.living (earlier.living living)

theorem steady_modifyTask (hub : ConsoleHub Line) (task : Nat) {change : ReaderTask -> ReaderTask}
    (kept : forall reader, hub.tasks[task]? = some reader -> (change reader).server = reader.server /\
      (change reader).active = reader.active /\
      (reader.phase = .finished -> (change reader).phase = .finished)) :
    Steady hub (hub.modifyTask task change) where
  kept {place reader} found := by
    refine ⟨_, getElem?_modify_of_some found, ?_⟩
    split
    · next same =>
      subst same
      rcases kept reader found with ⟨server, active, ended⟩
      exact ⟨server, fun still => active.symm.trans still, ended⟩
    · exact ⟨rfl, fun active => active, fun ended => ended⟩
  living living place reader found active running := by
    rcases getElem?_modify_some found with ⟨before, held, same⟩
    split at same
    · next here =>
      subst here
      rcases kept before held with ⟨server, sameActive, ended⟩
      subst same
      rw [server]
      exact living held (sameActive.symm.trans active) fun isOver => running (ended isOver)
    · subst same
      exact living held active running

theorem steady_stopReader (hub : ConsoleHub Line) (id : Text) : Steady hub (hub.stopReader id) := by
  cases found : hub.readers.lookup id with
  | none =>
      rw [stopReader, found]
      exact Steady.refl hub
  | some task =>
      rw [stopReader, found]
      constructor
      · intro place reader held
        refine ⟨_, getElem?_modify_of_some held, ?_⟩
        split
        · exact ⟨rfl, fun impossible => (by cases impossible), fun ended => ended⟩
        · exact ⟨rfl, fun active => active, fun ended => ended⟩
      · intro living place reader held active running
        rcases getElem?_modify_some held with ⟨before, heldBefore, same⟩
        by_cases here : task = place
        · rw [if_pos here] at same
          rw [same] at active
          cases active
        · rw [if_neg here] at same
          subst same
          have registered := living heldBefore active running
          rw [Table.lookup_erase_of_ne]
          · exact registered
          · intro sameServer
            rw [sameServer, found] at registered
            exact here (Option.some.inj registered)

theorem steady_stopAll (ids : List Text) : forall hub : ConsoleHub Line,
    Steady hub (ids.foldl stopReader hub) := by
  induction ids with
  | nil => exact Steady.refl
  | cons id rest induction =>
      intro hub
      exact (steady_stopReader hub id).trans (induction (hub.stopReader id))

theorem steady_startReaderLocked (hub : ConsoleHub Line) {id : Text} (channel : Nat)
    (unread : hub.readers.lookup id = none) : Steady hub (hub.startReaderLocked id channel) := by
  rw [startReaderLocked]
  split
  · constructor
    · intro task reader found
      have inside : task < hub.tasks.length := (List.getElem?_eq_some_iff.mp found).1
      exact ⟨reader, (List.getElem?_append_left inside).trans found, rfl, fun active => active,
        fun ended => ended⟩
    · intro living task reader held active running
      by_cases inside : task < hub.tasks.length
      · have before := (List.getElem?_append_left inside).symm.trans held
        have registered := living before active running
        refine (Table.lookup_insert_of_ne _ ?_).trans registered
        intro same
        rw [same] at registered
        cases unread.symm.trans registered
      · have bound := (List.getElem?_eq_some_iff.mp held).1
        have last : task = hub.tasks.length := by
          simp only [List.length_append, List.length_singleton] at bound
          omega
        subst last
        have new := held.symm.trans List.getElem?_concat_length
        cases new
        exact AList.lookup_insert _
  · exact Steady.refl hub

/-- A reader that retires gives up its registration and is over. -/
theorem steady_giveUp {hub : ConsoleHub Line} {task : Nat} {reader : ReaderTask}
    (found : hub.readers.lookup reader.server = some task) :
    Steady hub (({ hub with readers := hub.readers.erase reader.server }).modifyTask task
      fun reader => { reader with phase := .finished }) where
  kept {place old} held := by
    refine ⟨_, getElem?_modify_of_some held, ?_⟩
    split
    · exact ⟨rfl, fun active => active, fun _ => rfl⟩
    · exact ⟨rfl, fun active => active, fun ended => ended⟩
  living living place old held active running := by
    rcases getElem?_modify_some held with ⟨before, heldBefore, same⟩
    by_cases here : task = place
    · rw [if_pos here] at same
      rw [same] at running
      exact absurd rfl running
    · rw [if_neg here] at same
      subst same
      have registered := living heldBefore active running
      change (hub.readers.erase reader.server).lookup old.server = some place
      rw [Table.lookup_erase_of_ne]
      · exact registered
      · intro sameServer
        rw [sameServer, found] at registered
        exact here (Option.some.inj registered)

/-! ## What the register, the channels and the tasks agree on -/

/-- The register, the channels and the tasks agree, but for the servers that are
being discarded, whose readers are stopped already. -/
structure Served (gone : Text -> Prop) (hub : ConsoleHub Line) : Prop where
  registered : forall {id task}, hub.readers.lookup id = some task ->
    Exists fun reader => hub.tasks[task]? = some reader /\ reader.server = id /\
      reader.active = true /\ Not (reader.phase = .finished) /\
      hub.senders.lookup id = some reader.channel
  sending : hub.docker = true -> forall {id channel}, hub.senders.lookup id = some channel ->
    gone id \/ Exists fun task => hub.readers.lookup id = some task
  owned : forall {id channel}, hub.senders.lookup id = some channel -> gone id \/ id ∈ hub.desired
  silent : forall {id}, gone id -> hub.readers.lookup id = none
  living : forall {task reader}, hub.tasks[task]? = some reader -> reader.active = true ->
    Not (reader.phase = .finished) -> hub.readers.lookup reader.server = some task
  bounded : Table.size hub.readers <= hub.maxActiveReaders

/-- The agreement while nothing is being discarded. -/
abbrev Agreed (hub : ConsoleHub Line) : Prop :=
  Served (fun _ => False) hub

theorem Served.alive {gone : Text -> Prop} {hub : ConsoleHub Line} (served : Served gone hub) : Living hub :=
  @served.living

theorem Served.congr {gone other : Text -> Prop} {hub : ConsoleHub Line} (served : Served gone hub)
    (same : forall id, gone id <-> other id) : Served other hub := by
  have equal : gone = other := by
    funext id
    exact propext (same id)
  rw [<- equal]
  exact served

/-- Changes of the ownership, the histories and the receivers that keep what is owned. -/
theorem Served.of_same {gone other : Text -> Prop} {hub after : ConsoleHub Line} (served : Served gone hub)
    (docker : after.docker = hub.docker) (maximum : after.maxActiveReaders = hub.maxActiveReaders)
    (readers : after.readers = hub.readers) (senders : after.senders = hub.senders)
    (tasks : after.tasks = hub.tasks) (wider : forall id, gone id -> other id)
    (silent : forall id, other id -> hub.readers.lookup id = none)
    (owned : forall id, id ∈ hub.desired -> other id \/ id ∈ after.desired) : Served other after where
  registered found := by
    rw [readers] at found
    rw [tasks, senders]
    exact served.registered found
  sending running id channel found := by
    rw [senders] at found
    rw [readers]
    exact (served.sending (docker.symm.trans running) found).imp_left (wider id)
  owned {id channel} found := by
    rw [senders] at found
    rcases served.owned found with leaving | inside
    · exact Or.inl (wider id leaving)
    · exact owned id inside
  silent {id} leaving := by
    rw [readers]
    exact silent id leaving
  living found active alive := by
    rw [tasks] at found
    rw [readers]
    exact served.living found active alive
  bounded := by
    rw [readers, maximum]
    exact served.bounded

/-- A task that changes goes on serving its console, and does not end while registered. -/
theorem Served.modifyTask {gone : Text -> Prop} {hub : ConsoleHub Line} (served : Served gone hub)
    {task : Nat} {change : ReaderTask -> ReaderTask}
    (kept : forall {reader}, hub.tasks[task]? = some reader ->
      (change reader).server = reader.server /\ (change reader).channel = reader.channel /\
        (change reader).active = reader.active /\
        (Not ((change reader).phase = .finished) -> Not (reader.phase = .finished)))
    (alive : forall {reader}, hub.tasks[task]? = some reader ->
      hub.readers.lookup reader.server = some task -> Not ((change reader).phase = .finished)) :
    Served gone (hub.modifyTask task change) where
  registered {id place} found := by
    rcases served.registered found with ⟨reader, held, server, active, running, sender⟩
    refine ⟨_, getElem?_modify_of_some held, ?_⟩
    split
    · next same =>
        subst same
        rcases kept held with ⟨sameServer, sameChannel, sameActive, _⟩
        rw [sameServer, sameChannel, sameActive]
        subst server
        exact ⟨rfl, active, alive held found, sender⟩
    · exact ⟨server, active, running, sender⟩
  sending := served.sending
  owned := served.owned
  silent := served.silent
  living := by
    have steady := steady_modifyTask hub task fun reader held =>
      ⟨(kept held).1, (kept held).2.2.1, fun ended => by_contra fun running => (kept held).2.2.2 running ended⟩
    intro place reader
    exact steady.living served.alive
  bounded := served.bounded

/-- Stopping a reader leaves its console to be discarded. -/
theorem Served.stopReader {gone : Text -> Prop} {hub : ConsoleHub Line} (served : Served gone hub)
    (id : Text) : Served (fun other => other = id \/ gone other) (hub.stopReader id) := by
  cases found : hub.readers.lookup id with
  | none =>
      have same : hub.stopReader id = hub := by
        rw [ConsoleHub.stopReader, found]
      rw [same]
      apply served.of_same rfl rfl rfl rfl rfl (fun _ => Or.inr)
      · rintro other (here | before)
        · rw [here]
          exact found
        · exact served.silent before
      · exact fun _ inside => Or.inr inside
  | some task =>
      rcases served.registered found with ⟨stopped, stoppedAt, server, _, _, _⟩
      rw [ConsoleHub.stopReader, found]
      refine ⟨?_, ?_, ?_, ?_, ?_, ?_⟩
      · intro other place held
        by_cases same : other = id
        · rw [same, AList.lookup_erase] at held
          cases held
        · rw [Table.lookup_erase_of_ne same] at held
          rcases served.registered held with ⟨reader, at_, readerServer, active, running, sender⟩
          refine ⟨_, getElem?_modify_of_some at_, ?_⟩
          have different : Not (task = place) := by
            intro here
            subst here
            rw [stoppedAt] at at_
            cases at_
            exact same (readerServer.symm.trans server)
          rw [if_neg different]
          exact ⟨readerServer, active, running, sender⟩
      · intro running other channel sender
        by_cases same : other = id
        · exact Or.inl (Or.inl same)
        · rw [Table.lookup_erase_of_ne same]
          exact (served.sending running sender).imp_left Or.inr
      · intro other channel sender
        exact (served.owned sender).imp_left Or.inr
      · rintro other (same | before)
        · rw [same, AList.lookup_erase]
        · by_cases same : other = id
          · rw [same, AList.lookup_erase]
          · rw [Table.lookup_erase_of_ne same]
            exact served.silent before
      · have living : Living (hub.stopReader id) := (steady_stopReader hub id).living served.alive
        rw [ConsoleHub.stopReader, found] at living
        intro place reader
        exact living
      · exact (Table.size_erase_le _ _).trans served.bounded

/-- Forgetting a console that nobody reads any more ends its being discarded. -/
theorem Served.forget {gone : Text -> Prop} {hub : ConsoleHub Line} (served : Served gone hub) {id : Text}
    (unread : hub.readers.lookup id = none) : Served (fun other => gone other /\ Not (other = id)) (hub.forget id) where
  registered {other task} found := by
    rcases served.registered found with ⟨reader, held, server, active, running, sender⟩
    refine ⟨reader, held, server, active, running, ?_⟩
    have different : Not (other = id) := by
      intro same
      subst same
      cases unread.symm.trans found
    exact (Table.lookup_erase_of_ne different).trans sender
  sending running other channel found := by
    by_cases same : other = id
    · rw [ConsoleHub.forget, same, AList.lookup_erase] at found
      cases found
    · rw [ConsoleHub.forget, Table.lookup_erase_of_ne same] at found
      exact (served.sending running found).imp_left fun before => ⟨before, same⟩
  owned {other channel} found := by
    by_cases same : other = id
    · rw [ConsoleHub.forget, same, AList.lookup_erase] at found
      cases found
    · rw [ConsoleHub.forget, Table.lookup_erase_of_ne same] at found
      exact (served.owned found).imp_left fun before => ⟨before, same⟩
  silent before := served.silent before.1
  living := served.living
  bounded := served.bounded

theorem Served.stopAll (ids : List Text) : forall {gone : Text -> Prop} {hub : ConsoleHub Line},
    Served gone hub ->
      Served (fun other => other ∈ ids \/ gone other) (ids.foldl ConsoleHub.stopReader hub) := by
  induction ids with
  | nil =>
      intro gone hub served
      apply served.congr
      intro id
      simp only [List.not_mem_nil, false_or]
  | cons id rest induction =>
      intro gone hub served
      apply (induction (served.stopReader id)).congr
      intro other
      rw [List.mem_cons]
      constructor
      · rintro (later | now | before)
        · exact Or.inl (Or.inr later)
        · exact Or.inl (Or.inl now)
        · exact Or.inr before
      · rintro ((now | later) | before)
        · exact Or.inr (Or.inl now)
        · exact Or.inl later
        · exact Or.inr (Or.inr before)

theorem Served.forgetAll (ids : List Text) : forall {gone : Text -> Prop} {hub : ConsoleHub Line},
    Served gone hub -> (forall id, id ∈ ids -> hub.readers.lookup id = none) ->
      Served (fun other => gone other /\ other ∉ ids) (ids.foldl ConsoleHub.forget hub) := by
  induction ids with
  | nil =>
      intro gone hub served _
      apply served.congr
      intro id
      simp only [List.not_mem_nil, not_false_eq_true, and_true]
  | cons id rest induction =>
      intro gone hub served unread
      apply (induction (served.forget (unread id List.mem_cons_self))
        fun other member => unread other (List.mem_cons_of_mem _ member)).congr
      intro other
      rw [List.mem_cons, not_or, and_assoc]

/-- Whoever has a reader is owned. -/
theorem Served.owned_of_registered {hub : ConsoleHub Line} (agreed : Agreed hub) {id : Text} {task : Nat}
    (found : hub.readers.lookup id = some task) : id ∈ hub.desired := by
  rcases agreed.registered found with ⟨reader, _, _, _, _, sender⟩
  exact (agreed.owned sender).resolve_left (fun impossible => impossible)

theorem agreed_start (docker : Bool) (maxActiveReaders maximumBytes : Nat) :
    Agreed (start docker maxActiveReaders maximumBytes : ConsoleHub Line) where
  registered found := by cases found
  sending _ _ _ found := by cases found
  owned found := by cases found
  silent impossible := impossible.elim
  living {task reader} found := by
    rw [start, List.getElem?_nil] at found
    cases found
  bounded := Nat.zero_le _

theorem stopReader_desired (hub : ConsoleHub Line) (id : Text) (desired : List Text) :
    ({ hub with desired := desired }).stopReader id = { hub.stopReader id with desired := desired } := by
  simp only [stopReader]
  split <;> rfl

/-- An addition keeps who is owned. -/
theorem Agreed.trackServer {hub : ConsoleHub Line} (agreed : Agreed hub) (id : Text) :
    Agreed (hub.trackServer id).2 := by
  rw [ConsoleHub.trackServer]
  split
  · exact agreed
  · refine agreed.of_same ?_ ?_ ?_ ?_ ?_ (fun _ held => held) (fun _ => False.elim) ?_
    all_goals rw [recordAddition]
    all_goals split
    all_goals first | rfl | exact fun other inside => Or.inr (List.mem_insert_of_mem inside)

theorem Agreed.refreshServer {hub : ConsoleHub Line} (agreed : Agreed hub) (id : Text) :
    Agreed (hub.refreshServer id).2 := by
  have tracked := agreed.trackServer id
  rw [ConsoleHub.trackServer] at tracked
  rw [ConsoleHub.refreshServer]
  split at tracked
  · exact agreed
  · dsimp only
    split
    · exact tracked
    · refine tracked.modifyTask (fun _ => ⟨rfl, rfl, rfl, fun running => running⟩) ?_
      intro reader held registered
      rcases tracked.registered registered with ⟨same, sameAt, _, _, running, _⟩
      cases held.symm.trans sameAt
      exact running

theorem Agreed.remove {hub : ConsoleHub Line} (agreed : Agreed hub) (id : Text) : Agreed (hub.remove id) := by
  have pending : forall hub : ConsoleHub Line, Agreed hub ->
      Agreed ((({ hub with desired := hub.desired.filter (· ≠ id) }).stopReader id).forget id) := by
    intro hub agreed
    rw [stopReader_desired]
    have stopped := agreed.stopReader id
    have without : Served (fun other => other = id \/ False)
        { hub.stopReader id with desired := hub.desired.filter (· ≠ id) } := by
      refine stopped.of_same rfl rfl rfl rfl rfl (fun _ held => held) (fun _ => stopped.silent) ?_
      intro other inside
      by_cases same : other = id
      · exact Or.inl (Or.inl same)
      · right
        have desired : (hub.stopReader id).desired = hub.desired :=
          congrArg Inventory.desired (inventory_stopReader hub id)
        rw [desired] at inside
        exact List.mem_filter.mpr ⟨inside, decide_eq_true same⟩
    apply (without.forget (stopped.silent (Or.inl rfl))).congr
    intro other
    constructor
    · rintro ⟨same | impossible, different⟩
      · exact different same
      · exact impossible
    · exact False.elim
  rw [ConsoleHub.remove]
  split
  · exact pending hub agreed
  · exact pending _ (agreed.of_same rfl rfl rfl rfl rfl (fun _ held => held) (fun _ => False.elim)
      fun _ => Or.inr)

theorem Agreed.synchronizeServers {hub : ConsoleHub Line} (agreed : Agreed hub) (serverIds : List Text) :
    Agreed (hub.synchronizeServers serverIds).2 := by
  rw [ConsoleHub.synchronizeServers]
  split
  · exact agreed
  · split
    · exact agreed
    · next inventory _ =>
        have stopped := agreed.stopAll (hub.dropped inventory)
        have desired : ((hub.dropped inventory).foldl ConsoleHub.stopReader hub).desired = hub.desired :=
          congrArg Inventory.desired (inventory_foldl inventory_stopReader _ hub)
        have settled : Served (fun other => other ∈ hub.dropped inventory \/ False)
            { (hub.dropped inventory).foldl ConsoleHub.stopReader hub with
              desired := hub.adopted inventory
              pendingAdditions := []
              pendingRemovals := []
              inventoryInitialized := true } := by
          refine stopped.of_same rfl rfl rfl rfl rfl (fun _ held => held) (fun _ => stopped.silent) ?_
          intro id inside
          rw [desired] at inside
          by_cases adopted : id ∈ hub.adopted inventory
          · exact Or.inr adopted
          · exact Or.inl (Or.inl (List.mem_filter.mpr ⟨inside, decide_eq_true adopted⟩))
        apply (settled.forgetAll (hub.dropped inventory)
          fun id member => settled.silent (Or.inl member)).congr
        intro id
        constructor
        · rintro ⟨dropped | impossible, kept⟩
          · exact kept dropped
          · exact impossible
        · exact False.elim

/-- A hub whose readers are right as far as they go: a console may lack one. -/
abbrev Partly (hub : ConsoleHub Line) : Prop :=
  Agreed { hub with docker := false }

theorem Agreed.partly {hub : ConsoleHub Line} (agreed : Agreed hub) : Partly hub where
  registered := agreed.registered
  sending := nofun
  owned := agreed.owned
  silent := agreed.silent
  living := agreed.living
  bounded := agreed.bounded

theorem Partly.agreed {hub : ConsoleHub Line} (partly : Partly hub)
    (sending : hub.docker = true -> forall {id channel}, hub.senders.lookup id = some channel ->
      Exists fun task => hub.readers.lookup id = some task) : Agreed hub where
  registered := partly.registered
  sending running _ _ found := Or.inr (sending running found)
  owned := partly.owned
  silent := partly.silent
  living := partly.living
  bounded := partly.bounded

/-- A reader is started for the one console that has a channel and lacks a reader. -/
theorem Partly.startReaderLocked {hub : ConsoleHub Line} (partly : Partly hub) {id : Text} {channel : Nat}
    (unread : hub.readers.lookup id = none) (sender : hub.senders.lookup id = some channel)
    (others : hub.docker = true -> forall {other place}, Not (other = id) ->
      hub.senders.lookup other = some place -> Exists fun task => hub.readers.lookup other = some task)
    (room : hub.docker = true -> Table.size hub.readers < hub.maxActiveReaders) :
    Agreed (hub.startReaderLocked id channel) := by
  rw [ConsoleHub.startReaderLocked]
  cases docker : hub.docker with
  | false =>
      apply partly.agreed
      intro running
      rw [docker] at running
      cases running
  | true =>
      refine ⟨?_, ?_, partly.owned, fun impossible => impossible.elim, ?_, ?_⟩
      · intro other task found
        by_cases same : other = id
        · subst same
          have new := found.symm.trans (AList.lookup_insert _)
          cases new
          exact ⟨_, List.getElem?_concat_length, rfl, rfl, fun impossible => (by cases impossible), sender⟩
        · have old := (Table.lookup_insert_of_ne _ same).symm.trans found
          rcases partly.registered old with ⟨reader, held, rest⟩
          refine ⟨reader, ?_, rest⟩
          have inside : task < hub.tasks.length := (List.getElem?_eq_some_iff.mp held).1
          exact (List.getElem?_append_left inside).trans held
      · intro _ other place found
        right
        by_cases same : other = id
        · subst same
          exact ⟨_, AList.lookup_insert _⟩
        · rcases others docker same found with ⟨task, registered⟩
          exact ⟨task, (Table.lookup_insert_of_ne _ same).trans registered⟩
      · have living : Living (hub.startReaderLocked id channel) :=
          (steady_startReaderLocked hub channel unread).living partly.alive
        rw [ConsoleHub.startReaderLocked, docker] at living
        intro place reader
        exact living
      · simp only [if_true]
        rw [Table.size_insert, Table.erase_of_absent unread]
        exact room docker

/-- Every registered reader is unfinished. -/
theorem Agreed.unfinished {hub : ConsoleHub Line} (agreed : Agreed hub) {id : Text} {task : Nat}
    (found : hub.readers.lookup id = some task) : hub.unfinished task = true := by
  rcases agreed.registered found with ⟨reader, held, _, _, running, _⟩
  rw [ConsoleHub.unfinished, held]
  exact decide_eq_true running

theorem Agreed.activeReaders_eq {hub : ConsoleHub Line} (agreed : Agreed hub) :
    hub.activeReaders = Table.size hub.readers := by
  rw [activeReaders, <- Table.total_one]
  apply Table.total_congr
  intro id task found
  rw [if_pos (agreed.unfinished found)]

/-- Who is not yet known may be owned from now on. -/
theorem Agreed.validateSubscription {hub after : ConsoleHub Line} (agreed : Agreed hub) {id : Text}
    {result : Except Failure Unit} (validated : hub.validateSubscription id = (result, after)) :
    Agreed after /\ (result = .ok () -> id ∈ after.desired) := by
  rw [ConsoleHub.validateSubscription] at validated
  split at validated
  · split at validated
    · next inside =>
        cases validated
        exact ⟨agreed, fun _ => inside⟩
    · cases validated
      exact ⟨agreed, fun impossible => (by cases impossible)⟩
  · split at validated
    · cases validated
      exact ⟨agreed, fun impossible => (by cases impossible)⟩
    · cases validated
      refine ⟨?_, fun _ => List.mem_insert_self⟩
      exact agreed.of_same rfl rfl rfl rfl rfl (fun _ held => held) (fun _ => False.elim)
        fun _ inside => Or.inr (List.mem_insert_of_mem inside)

/-- What is known after the channel of an owned console has been opened: the
console alone may lack its reader. -/
theorem Agreed.openSender {hub : ConsoleHub Line} (agreed : Agreed hub) {id : Text}
    (owned : id ∈ hub.desired) :
    Partly (hub.openSender id).2 /\
      (hub.openSender id).2.readers = hub.readers /\ (hub.openSender id).2.tasks = hub.tasks /\
      (hub.openSender id).2.docker = hub.docker /\
      (hub.openSender id).2.maxActiveReaders = hub.maxActiveReaders /\
      (hub.openSender id).2.senders.lookup id = some (hub.openSender id).1 /\
      forall {other}, Not (other = id) ->
        (hub.openSender id).2.senders.lookup other = hub.senders.lookup other := by
  cases found : hub.senders.lookup id with
  | some channel =>
      rw [ConsoleHub.openSender, found]
      exact ⟨agreed.partly, rfl, rfl, rfl, rfl, found, fun _ => rfl⟩
  | none =>
      rw [ConsoleHub.openSender, found]
      refine ⟨⟨?_, fun impossible => (by cases impossible), ?_, agreed.silent, agreed.living, agreed.bounded⟩,
        rfl, rfl, rfl, rfl,
        AList.lookup_insert _, fun different => Table.lookup_insert_of_ne _ different⟩
      · intro other task registered
        rcases agreed.registered registered with ⟨reader, held, server, active, running, sender⟩
        refine ⟨reader, held, server, active, running, ?_⟩
        rw [Table.lookup_insert_of_ne]
        · exact sender
        · intro same
          rw [same, found] at sender
          cases sender
      · intro other channel sender
        right
        by_cases same : other = id
        · rw [same]
          exact owned
        · rw [Table.lookup_insert_of_ne _ same] at sender
          exact (agreed.owned sender).resolve_left (fun impossible => impossible)

/-- A console that has a channel gets a reader unless it has one. -/
theorem Partly.ensureReaderLocked {hub : ConsoleHub Line} (partly : Partly hub) {id : Text} {channel : Nat}
    (sender : hub.senders.lookup id = some channel)
    (others : hub.docker = true -> forall {other place}, Not (other = id) ->
      hub.senders.lookup other = some place -> Exists fun task => hub.readers.lookup other = some task)
    (room : hub.docker = true -> hub.readers.lookup id = none ->
      Table.size hub.readers < hub.maxActiveReaders) :
    Agreed (hub.ensureReaderLocked id channel) := by
  rw [ConsoleHub.ensureReaderLocked]
  cases read : hub.readers.lookup id with
  | none => exact partly.startReaderLocked read sender others fun running => room running read
  | some task =>
      have agreed : Agreed hub := by
        apply partly.agreed
        intro running other place found
        by_cases same : other = id
        · rw [same]
          exact ⟨task, read⟩
        · exact others running same found
      simp only [agreed.unfinished read, if_true]
      refine agreed.modifyTask (fun _ => ⟨rfl, rfl, rfl, fun running => running⟩) ?_
      intro reader held registered
      rcases agreed.registered registered with ⟨same, heldAt, _, _, running, _⟩
      cases held.symm.trans heldAt
      exact running

theorem Agreed.subscribe {hub : ConsoleHub Line} (agreed : Agreed hub) (id : Text) :
    Agreed (hub.subscribe id).2 := by
  rw [ConsoleHub.subscribe]
  cases validated : hub.validateSubscription id with
  | mk result known =>
      rcases agreed.validateSubscription validated with ⟨agreedKnown, inside⟩
      cases result with
      | error failure => exact agreedKnown
      | ok _ =>
          dsimp only
          split
          · exact agreedKnown
          · next capacity =>
              rcases agreedKnown.openSender (inside rfl) with
                ⟨opened, readers, tasks, docker, maximum, sender, others⟩
              have listened : Partly ((known.openSender id).2.listen (known.openSender id).1) :=
                opened.of_same rfl rfl rfl rfl rfl (fun _ held => held) (fun _ => False.elim)
                  fun _ inside => Or.inr inside
              refine listened.ensureReaderLocked sender ?_ ?_
              · intro running other place different found
                change (known.openSender id).2.senders.lookup other = _ at found
                rw [others different] at found
                change Exists fun task => (known.openSender id).2.readers.lookup other = some task
                rw [readers]
                exact (agreedKnown.sending (docker.symm.trans running) found).resolve_left
                  fun impossible => impossible
              · intro running unread
                change (known.openSender id).2.readers.lookup id = none at unread
                rw [readers] at unread
                have free : known.isRead id = false := by
                  rw [isRead, unread]
                rw [validateReaderCapacity, free, show known.docker = true from
                  docker.symm.trans running] at capacity
                simp only [Bool.not_true, Bool.or_self, Bool.false_eq_true, if_false] at capacity
                split at capacity
                · cases capacity
                · next room =>
                    rw [agreedKnown.activeReaders_eq] at room
                    change Table.size (known.openSender id).2.readers < _
                    rw [readers]
                    exact Nat.lt_of_lt_of_eq (Nat.lt_of_not_le room) maximum.symm

/-- What an idle reader that is registered leaves behind when it ends. -/
def released (hub : ConsoleHub Line) (id : Text) (task : Nat) : ConsoleHub Line :=
  { hub with
    readers := hub.readers.erase id
    tasks := hub.tasks.modify task fun reader => { reader with phase := .finished } }

theorem Agreed.released {hub : ConsoleHub Line} (agreed : Agreed hub) {id : Text} {task : Nat}
    (found : hub.readers.lookup id = some task) : Partly (hub.released id task) := by
  rcases agreed.registered found with ⟨ended, endedAt, server, _⟩
  refine ⟨?_, nofun, agreed.owned, fun impossible => impossible.elim, ?_,
    (Table.size_erase_le _ _).trans agreed.bounded⟩
  · intro other place held
    have different : Not (other = id) := by
      intro same
      rw [same] at held
      have nothing := held.symm.trans (AList.lookup_erase id hub.readers)
      cases nothing
    have before : hub.readers.lookup other = some place :=
      (Table.lookup_erase_of_ne different).symm.trans held
    rcases agreed.registered before with ⟨reader, heldAt, readerServer, rest⟩
    refine ⟨reader, ?_, readerServer, rest⟩
    have elsewhere : Not (task = place) := by
      intro here
      subst here
      cases endedAt.symm.trans heldAt
      exact different (readerServer.symm.trans server)
    refine (getElem?_modify_of_some heldAt).trans ?_
    rw [if_neg elsewhere]
  · subst server
    intro place reader
    exact (steady_giveUp found).living agreed.alive

theorem modify_append {tasks : List ReaderTask} {task : Nat} {change : ReaderTask -> ReaderTask}
    {last : ReaderTask} (inside : task < tasks.length) :
    (tasks ++ [last]).modify task change = tasks.modify task change ++ [last] := by
  apply List.ext_getElem?
  intro place
  rw [List.getElem?_modify, List.getElem?_append, List.getElem?_append, List.length_modify]
  by_cases early : place < tasks.length
  · rw [if_pos early, if_pos early, List.getElem?_modify]
  · rw [if_neg early, if_neg early]
    have different : Not (task = place) := by omega
    simp only [different, if_false, Option.map_eq_map, Option.map_id']

/-- A task marked as ended before or after another one is started. -/
theorem modifyTask_startReaderLocked {hub : ConsoleHub Line} {task : Nat} {change : ReaderTask -> ReaderTask}
    (inside : task < hub.tasks.length) (id : Text) (channel : Nat) :
    (hub.startReaderLocked id channel).modifyTask task change =
      (hub.modifyTask task change).startReaderLocked id channel := by
  cases docker : hub.docker with
  | true => simp only [ConsoleHub.startReaderLocked, modifyTask, docker, modify_append inside,
      List.length_modify, if_true]
  | false => simp only [ConsoleHub.startReaderLocked, modifyTask, docker, Bool.false_eq_true, if_false]

theorem Agreed.retireIdleReader {hub : ConsoleHub Line} (agreed : Agreed hub) {task : Nat}
    {reader : ReaderTask} (heldAt : hub.tasks[task]? = some reader) :
    Agreed ((hub.retireIdleReader task reader).modifyTask task
      fun reader => { reader with phase := .finished }) := by
  rw [ConsoleHub.retireIdleReader]
  by_cases current : hub.readers.lookup reader.server = some task
  · rw [if_pos current]
    have released := agreed.released current
    rcases agreed.registered current with ⟨same, sameAt, _, _, _, sender⟩
    cases heldAt.symm.trans sameAt
    have others : hub.docker = true -> forall {other place}, Not (other = reader.server) ->
        hub.senders.lookup other = some place ->
        Exists fun task => (hub.readers.erase reader.server).lookup other = some task := by
      intro running other place different found
      rcases (agreed.sending running found).resolve_left (fun impossible => impossible) with
        ⟨registered, held⟩
      exact ⟨registered, (Table.lookup_erase_of_ne different).trans held⟩
    dsimp only
    split
    · rw [modifyTask_startReaderLocked]
      · refine released.startReaderLocked (AList.lookup_erase _ _) sender others ?_
        intro _
        have size := Table.size_of_lookup current
        have bounded := agreed.bounded
        change Table.size (hub.readers.erase reader.server) < hub.maxActiveReaders
        omega
      · exact (List.getElem?_eq_some_iff.mp heldAt).1
    · next quiet =>
        have inside := agreed.owned_of_registered current
        have empty : hub.receiverCount reader.channel = 0 := by
          simp only [Bool.and_eq_true, decide_eq_true_eq, not_and] at quiet
          exact Nat.eq_zero_of_not_pos fun listened => quiet listened inside
        have dropped : (decide (hub.senders.lookup reader.server = some reader.channel) &&
            decide (hub.receiverCount reader.channel = 0)) = true := by
          simp only [sender, empty, decide_true, Bool.and_self]
        have forgotten : Partly ((hub.released reader.server task).forget reader.server) :=
          (released.forget (AList.lookup_erase reader.server _)).congr fun _ => ⟨And.left, False.elim⟩
        have ended : Agreed ((hub.released reader.server task).forget reader.server) := by
          apply forgotten.agreed
          intro running other place found
          have different : Not (other = reader.server) := by
            intro same
            rw [same] at found
            have nothing := found.symm.trans (AList.lookup_erase reader.server hub.senders)
            cases nothing
          exact others running different ((Table.lookup_erase_of_ne different).symm.trans found)
        have senders : (if (decide (hub.senders.lookup reader.server = some reader.channel) &&
            decide (hub.receiverCount reader.channel = 0)) = true then
            hub.senders.erase reader.server else hub.senders) = hub.senders.erase reader.server :=
          if_pos dropped
        change Agreed { hub.released reader.server task with
          senders := if (decide (hub.senders.lookup reader.server = some reader.channel) &&
            decide (hub.receiverCount reader.channel = 0)) = true then
            hub.senders.erase reader.server else hub.senders
          history := hub.history.remove reader.server }
        rw [senders]
        exact ended
  · rw [if_neg current]
    refine agreed.modifyTask (fun _ => ⟨rfl, rfl, rfl, fun running => absurd rfl running⟩) ?_
    intro other otherAt registered
    cases heldAt.symm.trans otherAt
    exact absurd registered current

/-- A step of a reader that leaves it unfinished. -/
theorem Agreed.readerStep {hub : ConsoleHub Line} (agreed : Agreed hub) {task : Nat} {phase : ReaderPhase}
    {next : ReaderTask -> ConsoleHub Line}
    (kept : forall reader, hub.tasks[task]? = some reader -> reader.phase = phase -> Agreed (next reader)) :
    Agreed (hub.readerStep task phase next) := by
  rw [ConsoleHub.readerStep]
  split
  · exact agreed
  · next reader held =>
      split
      · next here => exact kept reader held here
      · exact agreed

theorem Agreed.rephase {hub : ConsoleHub Line} (agreed : Agreed hub) {task : Nat}
    {change : ReaderTask -> ReaderTask}
    (kept : forall reader, hub.tasks[task]? = some reader ->
      Not (reader.phase = .finished) /\ Not ((change reader).phase = .finished) /\
        (change reader).server = reader.server /\ (change reader).channel = reader.channel /\
        (change reader).active = reader.active) :
    Agreed (hub.modifyTask task change) := by
  refine agreed.modifyTask ?_ ?_
  · intro reader held
    rcases kept reader held with ⟨running, _, server, channel, active⟩
    exact ⟨server, channel, active, fun _ => running⟩
  · intro reader held _
    exact (kept reader held).2.1

theorem Agreed.step [LineText Line] {hub : ConsoleHub Line} (agreed : Agreed hub) (action : HubAction Line) :
    Agreed (hub.step action) := by
  have told : forall {after : ConsoleHub Line}, after.docker = hub.docker ->
      after.maxActiveReaders = hub.maxActiveReaders -> after.readers = hub.readers ->
      after.senders = hub.senders -> after.tasks = hub.tasks ->
      (forall id, id ∈ hub.desired -> id ∈ after.desired) -> Agreed after := by
    intro after docker maximum readers senders tasks owned
    exact agreed.of_same docker maximum readers senders tasks (fun _ held => held)
      (fun _ => False.elim) fun id inside => Or.inr (owned id inside)
  cases action with
  | track id => exact agreed.trackServer id
  | refresh id => exact agreed.refreshServer id
  | synchronize serverIds => exact agreed.synchronizeServers serverIds
  | subscribe id => exact agreed.subscribe id
  | snapshot id => exact told rfl rfl rfl rfl rfl fun _ inside => inside
  | publish id line =>
      rw [ConsoleHub.step, publish.eq_def]
      split
      · exact agreed
      · split
        · exact agreed
        · exact told rfl rfl rfl rfl rfl fun _ inside => inside
  | remove id => exact agreed.remove id
  | disconnect channel => exact told rfl rfl rfl rfl rfl fun _ inside => inside
  | closed task =>
      apply agreed.readerStep
      intro reader held here
      split
      · apply agreed.rephase
        intro other otherAt
        cases held.symm.trans otherAt
        exact ⟨(by rw [here]; exact fun impossible => (by cases impossible)), fun impossible => (by cases impossible),
          rfl, rfl, rfl⟩
      · exact agreed
  | viewerWoken task =>
      apply agreed.readerStep
      intro reader held here
      split
      · apply agreed.rephase
        intro other otherAt
        cases held.symm.trans otherAt
        exact ⟨(by rw [here]; exact fun impossible => (by cases impossible)), fun impossible => (by cases impossible),
          rfl, rfl, rfl⟩
      · exact agreed
  | timer task =>
      apply agreed.readerStep
      intro reader held here
      apply agreed.rephase
      intro other otherAt
      cases held.symm.trans otherAt
      refine ⟨(by rw [here]; exact fun impossible => (by cases impossible)), ?_, rfl, rfl, rfl⟩
      dsimp only
      split
      · exact fun impossible => (by cases impossible)
      · exact fun impossible => (by cases impossible)
  | retire task =>
      apply agreed.readerStep
      intro reader held _
      exact agreed.retireIdleReader held
  | finish task =>
      rw [ConsoleHub.step]
      split
      · exact agreed
      · next reader held =>
          split
          · exact agreed
          · next ended =>
              refine agreed.modifyTask (fun _ => ⟨rfl, rfl, rfl, fun running => absurd rfl running⟩) ?_
              intro other otherAt registered
              cases held.symm.trans otherAt
              rcases agreed.registered registered with ⟨same, sameAt, _, active, _⟩
              cases held.symm.trans sameAt
              exact absurd active ended
  | line task line =>
      rw [ConsoleHub.step]
      split
      · exact agreed
      · split
        · exact told rfl rfl rfl rfl rfl fun _ inside => inside
        · exact agreed

theorem agreed_after [LineText Line] (docker : Bool) (maxActiveReaders maximumBytes : Nat)
    (run : List (HubAction Line)) :
    Agreed ((start docker maxActiveReaders maximumBytes).after run) :=
  Machine.invariant (fun _ action agreed => agreed.step action)
    (agreed_start docker maxActiveReaders maximumBytes) run

/-! ## What no action touches -/

@[simp] theorem docker_stopReader (hub : ConsoleHub Line) (id : Text) :
    (hub.stopReader id).docker = hub.docker := by
  rw [ConsoleHub.stopReader]
  split <;> rfl

@[simp] theorem docker_startReaderLocked (hub : ConsoleHub Line) (id : Text) (channel : Nat) :
    (hub.startReaderLocked id channel).docker = hub.docker := by
  rw [ConsoleHub.startReaderLocked]
  split <;> rfl

@[simp] theorem docker_foldl {change : ConsoleHub Line -> Text -> ConsoleHub Line}
    (same : forall hub id, (change hub id).docker = hub.docker) (ids : List Text) :
    forall hub : ConsoleHub Line, (ids.foldl change hub).docker = hub.docker := by
  induction ids with
  | nil => exact fun hub => rfl
  | cons id rest induction =>
      intro hub
      rw [List.foldl_cons, induction, same]

theorem docker_subscribe (hub : ConsoleHub Line) (id : Text) : (hub.subscribe id).2.docker = hub.docker := by
  have validated : (hub.validateSubscription id).2.docker = hub.docker := by
    rw [ConsoleHub.validateSubscription]
    split
    · split <;> rfl
    · split <;> rfl
  have opened : forall hub : ConsoleHub Line, (hub.openSender id).2.docker = hub.docker := by
    intro hub
    rw [ConsoleHub.openSender]
    split <;> rfl
  have ensured : forall (hub : ConsoleHub Line) (channel : Nat),
      (hub.ensureReaderLocked id channel).docker = hub.docker := by
    intro hub channel
    rw [ConsoleHub.ensureReaderLocked]
    split
    · split
      · rfl
      · simp only [docker_startReaderLocked, docker_stopReader]
    · exact docker_startReaderLocked hub id channel
  rw [ConsoleHub.subscribe]
  cases known : hub.validateSubscription id with
  | mk result after =>
      rw [known] at validated
      cases result with
      | error failure => exact validated
      | ok _ =>
          dsimp only
          split
          · exact validated
          · rw [ensured]
            exact (opened after).trans validated

theorem docker_step [LineText Line] (hub : ConsoleHub Line) (action : HubAction Line) :
    (hub.step action).docker = hub.docker := by
  have reader : forall {task : Nat} {phase : ReaderPhase} {next : ReaderTask -> ConsoleHub Line},
      (forall reader, (next reader).docker = hub.docker) ->
      (hub.readerStep task phase next).docker = hub.docker := by
    intro task phase next same
    rw [ConsoleHub.readerStep]
    split
    · rfl
    · split
      · exact same _
      · rfl
  have added : forall id, (hub.recordAddition id).docker = hub.docker := by
    intro id
    rw [recordAddition]
    split <;> rfl
  cases action with
  | track id =>
      rw [ConsoleHub.step, ConsoleHub.trackServer]
      split
      · rfl
      · exact added id
  | refresh id =>
      rw [ConsoleHub.step, ConsoleHub.refreshServer]
      split
      · rfl
      · dsimp only
        split <;> exact added id
  | synchronize serverIds =>
      rw [ConsoleHub.step, ConsoleHub.synchronizeServers]
      split
      · rfl
      · split
        · rfl
        · dsimp only
          have forgotten : forall (hub : ConsoleHub Line) id, (hub.forget id).docker = hub.docker :=
            fun _ _ => rfl
          rw [docker_foldl forgotten]
          exact docker_foldl docker_stopReader _ hub
  | subscribe id => exact docker_subscribe hub id
  | snapshot id => rfl
  | publish id line =>
      rw [ConsoleHub.step, publish.eq_def]
      split
      · rfl
      · split <;> rfl
  | remove id =>
      rw [ConsoleHub.step, ConsoleHub.remove]
      change ((_ : ConsoleHub Line).stopReader id).docker = _
      rw [docker_stopReader]
      dsimp only
      split <;> rfl
  | disconnect channel => rfl
  | closed task =>
      apply reader
      intro _
      split <;> rfl
  | viewerWoken task =>
      apply reader
      intro _
      split <;> rfl
  | timer task => exact reader fun _ => rfl
  | retire task =>
      apply reader
      intro reader
      change (hub.retireIdleReader task reader).docker = hub.docker
      rw [ConsoleHub.retireIdleReader]
      split
      · dsimp only
        split
        · rw [docker_startReaderLocked]
        · rfl
      · rfl
  | finish task =>
      rw [ConsoleHub.step]
      split
      · rfl
      · split <;> rfl
  | line task line =>
      rw [ConsoleHub.step]
      split
      · rfl
      · split <;> rfl

theorem docker_after [LineText Line] (docker : Bool) (maxActiveReaders maximumBytes : Nat)
    (run : List (HubAction Line)) :
    ((start docker maxActiveReaders maximumBytes).after run).docker = docker := by
  induction run using List.reverseRecOn with
  | nil => rfl
  | append_singleton earlier action induction =>
      rw [after, Machine.reach_append]
      exact (docker_step _ action).trans induction

/-- Attached viewers are served by readers of which there are few. -/
structure ViewersServed (hub : ConsoleHub Line) : Prop where
  served : forall {id channel}, id ∈ hub.desired -> hub.senders.lookup id = some channel ->
    0 < hub.receiverCount channel ->
      Exists fun task => Exists fun reader => hub.readers.lookup id = some task /\
        hub.tasks[task]? = some reader /\ reader.server = id /\ reader.channel = channel /\
        hub.unfinished task = true
  single : forall {key other task place reader same}, hub.readers.lookup key = some task ->
    hub.readers.lookup other = some place -> hub.tasks[task]? = some reader ->
    hub.tasks[place]? = some same -> reader.server = same.server -> key = other /\ task = place
  bounded : hub.activeReaders <= hub.maxActiveReaders

/-- With docker there, every attached viewer is served in every state that is reached. -/
theorem viewers_served [LineText Line] (maxActiveReaders maximumBytes : Nat) (run : List (HubAction Line)) :
    ViewersServed ((start true maxActiveReaders maximumBytes).after run) := by
  have agreed := agreed_after true maxActiveReaders maximumBytes run
  refine ⟨?_, ?_, ?_⟩
  · intro id channel _ sender _
    rcases (agreed.sending (docker_after true maxActiveReaders maximumBytes run) sender).resolve_left
      (fun impossible => impossible) with ⟨task, found⟩
    rcases agreed.registered found with ⟨reader, held, server, _, _, same⟩
    exact ⟨task, reader, found, held, server, Option.some.inj (same.symm.trans sender),
      agreed.unfinished found⟩
  · intro key other task place reader same found foundOther held heldOther server
    rcases agreed.registered found with ⟨one, oneAt, oneServer, _⟩
    rcases agreed.registered foundOther with ⟨two, twoAt, twoServer, _⟩
    cases held.symm.trans oneAt
    cases heldOther.symm.trans twoAt
    have keys : key = other := oneServer.symm.trans (server.trans twoServer)
    rw [keys] at found
    exact ⟨keys, Option.some.inj (found.symm.trans foundOther)⟩
  · rw [agreed.activeReaders_eq]
    exact agreed.bounded

end ConsoleHub

end Console
end Agapornis
