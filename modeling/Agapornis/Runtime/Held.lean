import Agapornis.Runtime.Replacing

namespace Agapornis
namespace Runtime
namespace Replacing

open Foundations Agapornis.Core

/-!
# No server is lost between its requests

However the requests for a server take turns with one another, with those for
other servers and with everything else, the server keeps a container: under
its own name, or under the name that a request for it has given the old one
and has not taken back.  Only a deletion of the server takes it away.
-/

def OwnedBy (container : Container) (id : Text) : Prop :=
  container.label serverIdLabel = some id

namespace Phase

/-- The old container has a stale name and the new one has not been created. -/
def Underway : Phase -> Prop
  | .creating _ | .rollingBack _ | .strayed _ => True
  | .inspecting | .writing _ _ _ _ | .stopping _ | .settingAside _ | .removing _ | .starting | .ended _ => False

/-- What a request is about to create has the label of its server. -/
def Owned (id : Text) : Phase -> Prop
  | .writing _ _ _ labels => labels.lookup serverIdLabel = some id
  | .stopping body => optionalEntry body.config.labels serverIdLabel = some id
  | .settingAside plan | .creating plan => optionalEntry plan.body.config.labels serverIdLabel = some id
  | .inspecting | .rollingBack _ | .removing _ | .starting | .ended _ | .strayed _ => True

end Phase

/-! ## What a call can do -/

section Calls

variable {id : Text}

theorem repairBody_owned {mounted : Bool} {container : Container} {body : ContainerBody}
    (made : repairBody id mounted container = .ok body) :
    optionalEntry body.config.labels serverIdLabel = some id := by
  unfold repairBody at made
  split at made
  · cases made
  · next config _ =>
      split at made
      · cases made
      · next ofConfig =>
          split at made
          · next ofServer =>
              split at made
              · cases made
              · split at made
                · cases made
                  change optionalEntry config.labels serverIdLabel = some id
                  rw [ofConfig]
                  exact ofServer
                · cases made
          · cases made

theorem prepareRepair_owned {course : ReconfigurationCourse} {mounted : Bool} {containers : Containers}
    {body : ContainerBody} (prepared : prepareRepair course id mounted containers = .ok body) :
    optionalEntry body.config.labels serverIdLabel = some id := by
  unfold prepareRepair at prepared
  dsimp only at prepared
  split at prepared
  · cases prepared
  · cases prepared
  · exact repairBody_owned prepared

theorem replaceNext_owned {plan : Plan} (owned : optionalEntry plan.body.config.labels serverIdLabel = some id) :
    (replaceNext plan).Owned id /\ Not (replaceNext plan).Underway := by
  unfold replaceNext
  split
  · exact ⟨owned, not_false⟩
  · exact ⟨owned, not_false⟩

theorem inspect_owned (task : Task) (containers : Containers) :
    (task.inspect containers).Owned task.server /\ Not (task.inspect containers).Underway := by
  unfold Task.inspect
  split
  · split
    · exact ⟨trivial, not_false⟩
    · next prepared => exact ⟨prepareRepair_owned prepared, not_false⟩
  · split
    · exact ⟨trivial, not_false⟩
    · next prepared => exact ⟨(prepareConfiguration_ok prepared).2.2.2, not_false⟩
  · split
    · exact ⟨trivial, not_false⟩
    · next prepared => exact replaceNext_owned (preparePorts_ok prepared).2

/-- A configuration request sets two other labels. -/
theorem afterWrite_owned {request : ConfigurationRequest} {container : Container} {config : ContainerConfig}
    {labels : Table Text Text} (ofServer : labels.lookup serverIdLabel = some id) :
    (afterWrite request container config labels).Owned id /\
      Not (afterWrite request container config labels).Underway := by
  unfold afterWrite
  split
  · split
    · exact ⟨trivial, not_false⟩
    · refine replaceNext_owned ?_
      change ((labels.insert stopCommandLabel request.stopCommand).insert startupDoneLabel
        request.startupDone).lookup serverIdLabel = some id
      rw [Table.lookup_insert_of_ne _ (by decide), Table.lookup_insert_of_ne _ (by decide)]
      exact ofServer
  · exact ⟨trivial, not_false⟩

theorem startNext_owned (wasRunning : Bool) :
    (startNext wasRunning).Owned id /\ Not (startNext wasRunning).Underway := by
  unfold startNext
  split
  · exact ⟨trivial, not_false⟩
  · exact ⟨trivial, not_false⟩

theorem renameFault_none {fault : Option String} {containers : Containers} {old new : Text}
    (works : renameFault fault containers old new = none) :
    (Exists fun container => containers old = some container) /\ containers new = none := by
  unfold renameFault at works
  split at works
  · cases works
  · split at works
    · cases works
    · next present =>
        split at works
        · next free => exact ⟨Option.ne_none_iff_exists'.mp present, free⟩
        · cases works

theorem createFault_none {fault : Option String} {containers : Containers} {name : Text}
    (works : createFault fault containers name = none) : containers name = none := by
  unfold createFault at works
  split at works
  · cases works
  · split at works
    · next free => exact free
    · cases works

/-- What a call of a request does to the containers, and where the request is then. -/
inductive Step (task : Task) (containers : Containers) : Containers -> Phase -> Prop
  | stay (phase : Phase) (underway : phase.Underway <-> task.phase.Underway) :
      Step task containers containers phase
  | power (running : Bool) (phase : Phase) (underway : phase.Underway <-> task.phase.Underway) :
      Step task containers (containers.setRunning task.server running) phase
  | renamed (plan : Plan) (old : Container) (present : containers task.server = some old)
      (free : containers task.stale = none) :
      Step task containers (containers.rename task.server task.stale) (.creating plan)
  | created (container : Container) (phase : Phase) (before : task.phase.Underway)
      (owned : OwnedBy container task.server)
      (free : containers task.server = none) (underway : Not phase.Underway) :
      Step task containers (containers.put task.server (some container)) phase
  | restored (phase : Phase) (before : task.phase.Underway) (free : containers task.server = none)
      (underway : Not phase.Underway) :
      Step task containers (containers.rename task.stale task.server) phase
  | removed (phase : Phase) (before : Not task.phase.Underway) (underway : Not phase.Underway) :
      Step task containers (containers.put task.stale none) phase

theorem advance_step (task : Task) (host : Host) (owned : task.phase.Owned task.server) :
    Step task host.containers (task.advance host).1.containers (task.advance host).2 /\
      (task.advance host).2.Owned task.server := by
  rcases task with ⟨server, change, course, phase⟩
  cases phase with
  | inspecting =>
      have inspected := inspect_owned ⟨server, change, course, .inspecting⟩ host.containers
      exact ⟨.stay _ (iff_of_false inspected.2 not_false), inspected.1⟩
  | writing request container config labels =>
      unfold Task.advance
      dsimp only
      split
      · exact ⟨.stay _ Iff.rfl, trivial⟩
      · have written := @afterWrite_owned server request container config labels owned
        exact ⟨.stay _ (iff_of_false written.2 not_false), written.1⟩
  | stopping body =>
      unfold Task.advance
      dsimp only
      split
      · exact ⟨.power false _ Iff.rfl, owned⟩
      · next running _ => exact ⟨.power running _ Iff.rfl, trivial⟩
  | settingAside plan =>
      unfold Task.advance
      dsimp only
      split
      · exact ⟨.stay _ Iff.rfl, trivial⟩
      · next works =>
          rcases renameFault_none works with ⟨⟨old, present⟩, free⟩
          exact ⟨.renamed plan old present free, owned⟩
  | creating plan =>
      unfold Task.advance
      dsimp only
      split
      · exact ⟨.stay _ Iff.rfl, trivial⟩
      · next works => exact ⟨.created _ _ trivial owned (createFault_none works) not_false, trivial⟩
  | rollingBack error =>
      unfold Task.advance
      dsimp only
      split
      · next works => exact ⟨.restored _ trivial (renameFault_none works).2 not_false, trivial⟩
      · exact ⟨.stay _ Iff.rfl, trivial⟩
  | removing wasRunning =>
      have next := @startNext_owned server wasRunning
      unfold Task.advance
      dsimp only
      split
      · exact ⟨.removed _ not_false next.2, next.1⟩
      · exact ⟨.stay _ (iff_of_false next.2 not_false), next.1⟩
  | starting =>
      unfold Task.advance
      dsimp only
      split
      · exact ⟨.power true _ Iff.rfl, trivial⟩
      · next running _ => exact ⟨.power running _ Iff.rfl, trivial⟩
  | ended result => exact ⟨.stay _ Iff.rfl, trivial⟩
  | strayed failure => exact ⟨.stay _ Iff.rfl, trivial⟩

end Calls

/-! ## What holds whoever has the turn -/

structure Sound (servers : List Text) (state : State) : Prop where
  labelled : forall server, server ∈ servers -> forall container,
    state.host.containers server = some container -> OwnedBy container server
  owned : forall (index : Nat) task, state.tasks[index]? = some task -> task.phase.Owned task.server
  known : forall (index : Nat) task, state.tasks[index]? = some task -> task.server ∈ servers
  unlike : forall (index : Nat) task, state.tasks[index]? = some task -> task.stale ∉ servers
  distinct : forall (first second : Nat) task other, state.tasks[first]? = some task ->
    state.tasks[second]? = some other -> task.stale = other.stale -> first = second
  held : forall (index : Nat) task, state.tasks[index]? = some task -> task.phase.Underway ->
    Exists fun old => state.host.containers task.stale = some old /\ OwnedBy old task.server

/-- The server has a container under its name, or a request holds the one it had. -/
def Kept (id : Text) (state : State) : Prop :=
  (Exists fun now => state.host.containers id = some now) \/
    Exists fun (index : Nat) => Exists fun task =>
      state.tasks[index]? = some task /\ task.server = id /\ task.phase.Underway

namespace Containers

variable {containers : Containers} {name other : Text} {found : Container}

theorem rename_other {old new : Text} (notNew : Not (name = new)) (notOld : Not (name = old)) :
    containers.rename old new name = containers name := by
  unfold Containers.rename
  rw [if_neg notNew, if_neg notOld]

theorem rename_some {old new : Text} (here : containers.rename old new name = some found) :
    (name = new /\ containers old = some found) \/
    (Not (name = new) /\ Not (name = old) /\ containers name = some found) := by
  unfold Containers.rename at here
  split at here
  · next same => exact Or.inl ⟨same, here⟩
  · next notNew =>
      split at here
      · cases here
      · next notOld => exact Or.inr ⟨notNew, notOld, here⟩

theorem put_some {container : Option Container} (here : containers.put other container name = some found) :
    (name = other /\ container = some found) \/ (Not (name = other) /\ containers name = some found) := by
  unfold Containers.put at here
  split at here
  · next same => exact Or.inl ⟨same, here⟩
  · next differs => exact Or.inr ⟨differs, here⟩

/-- A container that is started or stopped stays what it is. -/
theorem setRunning_some {running : Bool} (here : containers.setRunning other running name = some found) :
    Exists fun before => containers name = some before /\ before.label = found.label := by
  unfold Containers.setRunning at here
  rcases put_some here with ⟨rfl, changed⟩ | ⟨_, unchanged⟩
  · rcases Option.map_eq_some_iff.mp changed with ⟨before, present, rfl⟩
    exact ⟨before, present, rfl⟩
  · exact ⟨found, unchanged, rfl⟩

theorem setRunning_present (running : Bool) (here : containers name = some found) :
    Exists fun now => containers.setRunning other running name = some now /\ now.label = found.label := by
  by_cases same : name = other
  · subst same
    exact ⟨_, Containers.setRunning_self here running, rfl⟩
  · exact ⟨found, (Containers.put_other _ _ same).trans here, rfl⟩

end Containers

section Keeping

variable {servers : List Text} {state : State} {index : Nat} {task : Task}

theorem set_some {tasks : List Task} {other : Nat} {new found : Task}
    (here : (tasks.set index new)[other]? = some found) :
    (other = index /\ found = new) \/ (Not (other = index) /\ tasks[other]? = some found) := by
  rw [List.getElem?_set] at here
  split at here
  · next same =>
      split at here
      · cases here
        exact Or.inl ⟨same.symm, rfl⟩
      · cases here
  · next differs => exact Or.inr ⟨fun same => differs same.symm, here⟩

theorem concat_some {tasks : List Task} {new found : Task} (here : (tasks ++ [new])[index]? = some found) :
    tasks[index]? = some found \/ (index = tasks.length /\ found = new) := by
  by_cases earlier : index < tasks.length
  · rw [List.getElem?_append_left earlier] at here
    exact Or.inl here
  · have last : index = tasks.length := by
      have within := (List.getElem?_eq_some_iff.mp here).1
      rw [List.length_append, List.length_singleton] at within
      omega
    subst last
    rw [List.getElem?_concat_length] at here
    exact Or.inr ⟨rfl, (Option.some.inj here).symm⟩

/-- What a call leaves of the labels of the servers. -/
theorem Step.labelled {containers : Containers} {phase : Phase}
    (step : Step task state.host.containers containers phase)
    (sound : Sound servers state) (here : state.tasks[index]? = some task) :
    forall server, server ∈ servers -> forall container, containers server = some container ->
      OwnedBy container server := by
  intro server member container present
  have unlike : forall {name : Text}, name ∈ servers -> Not (name = task.stale) := fun member same =>
    sound.unlike index task here (same ▸ member)
  cases step with
  | stay => exact sound.labelled server member container present
  | power running phase underway =>
      rcases Containers.setRunning_some present with ⟨before, earlier, same⟩
      have owned := sound.labelled server member before earlier
      unfold OwnedBy at owned ⊢
      rw [← same]
      exact owned
  | renamed plan old was free =>
      rcases Containers.rename_some present with ⟨same, _⟩ | ⟨_, _, earlier⟩
      · exact absurd same (unlike member)
      · exact sound.labelled server member container earlier
  | created made phase before owned free underway =>
      rcases Containers.put_some present with ⟨rfl, same⟩ | ⟨_, earlier⟩
      · cases same
        exact owned
      · exact sound.labelled server member container earlier
  | restored phase before free underway =>
      rcases Containers.rename_some present with ⟨rfl, stale⟩ | ⟨_, _, earlier⟩
      · rcases sound.held index task here before with ⟨old, was, owned⟩
        cases was.symm.trans stale
        exact owned
      · exact sound.labelled server member container earlier
  | removed phase before underway =>
      rcases Containers.put_some present with ⟨same, _⟩ | ⟨_, earlier⟩
      · exact absurd same (unlike member)
      · exact sound.labelled server member container earlier

/-- A container under the stale name of another request is left where it is. -/
theorem Step.other_held {containers : Containers} {phase : Phase}
    (step : Step task state.host.containers containers phase)
    (sound : Sound servers state) (here : state.tasks[index]? = some task) {other : Nat} {holder : Task}
    (differs : Not (other = index)) (there : state.tasks[other]? = some holder) (underway : holder.phase.Underway) :
    Exists fun old => containers holder.stale = some old /\ OwnedBy old holder.server := by
  rcases sound.held other holder there underway with ⟨old, held, owned⟩
  have notServer : Not (holder.stale = task.server) := fun same =>
    sound.unlike other holder there (same ▸ sound.known index task here)
  have notStale : Not (holder.stale = task.stale) := fun same =>
    differs (sound.distinct other index holder task there here same)
  cases step with
  | stay => exact ⟨old, held, owned⟩
  | power running => exact ⟨old, (Containers.put_other _ _ notServer).trans held, owned⟩
  | renamed => exact ⟨old, (Containers.rename_other notStale notServer).trans held, owned⟩
  | created => exact ⟨old, (Containers.put_other _ _ notServer).trans held, owned⟩
  | restored => exact ⟨old, (Containers.rename_other notServer notStale).trans held, owned⟩
  | removed => exact ⟨old, (Containers.put_other _ _ notStale).trans held, owned⟩

/-- A request that goes on holds its container. -/
theorem Step.own_held {containers : Containers} {phase : Phase}
    (step : Step task state.host.containers containers phase)
    (sound : Sound servers state) (here : state.tasks[index]? = some task) (underway : phase.Underway) :
    Exists fun old => containers task.stale = some old /\ OwnedBy old task.server := by
  have notServer : Not (task.stale = task.server) := staleName_ne task.course task.server
  cases step with
  | stay phase same => exact sound.held index task here (same.mp underway)
  | power running phase same =>
      rcases sound.held index task here (same.mp underway) with ⟨old, held, owned⟩
      exact ⟨old, (Containers.put_other _ _ notServer).trans held, owned⟩
  | renamed plan old present free =>
      exact ⟨old, (Containers.rename_new _ _ _).trans present,
        sound.labelled task.server (sound.known index task here) old present⟩
  | created _ _ _ _ _ impossible => exact absurd underway impossible
  | restored _ _ _ impossible => exact absurd underway impossible
  | removed _ _ impossible => exact absurd underway impossible

theorem sound_advance (sound : Sound servers state) (index : Nat) :
    Sound servers (takeTurn state (.advance index)) := by
  unfold takeTurn
  dsimp only
  split
  · exact sound
  · next task here =>
      rcases advance_step task state.host (sound.owned index task here) with ⟨step, owned⟩
      refine ⟨step.labelled sound here, ?_, ?_, ?_, ?_, ?_⟩
      · intro other found present
        rcases set_some present with ⟨rfl, rfl⟩ | ⟨_, earlier⟩
        · exact owned
        · exact sound.owned other found earlier
      · intro other found present
        rcases set_some present with ⟨rfl, rfl⟩ | ⟨_, earlier⟩
        · exact sound.known other task here
        · exact sound.known other found earlier
      · intro other found present
        rcases set_some present with ⟨rfl, rfl⟩ | ⟨_, earlier⟩
        · exact sound.unlike other task here
        · exact sound.unlike other found earlier
      · intro first second one other presentOne presentOther same
        rcases set_some presentOne with ⟨rfl, rfl⟩ | ⟨_, earlierOne⟩
        · rcases set_some presentOther with ⟨rfl, rfl⟩ | ⟨_, earlierOther⟩
          · rfl
          · exact sound.distinct _ _ task other here earlierOther same
        · rcases set_some presentOther with ⟨rfl, rfl⟩ | ⟨_, earlierOther⟩
          · exact sound.distinct _ _ one task earlierOne here same
          · exact sound.distinct _ _ one other earlierOne earlierOther same
      · intro other found present underway
        rcases set_some present with ⟨rfl, rfl⟩ | ⟨differs, earlier⟩
        · exact step.own_held sound here underway
        · exact step.other_held sound here differs earlier underway

/-- A server under its own name is kept under it, or by the request that has renamed it. -/
theorem Step.keeps_present {id : Text} {containers : Containers} {phase : Phase}
    (step : Step task state.host.containers containers phase) (notStale : Not (id = task.stale)) {now : Container}
    (present : state.host.containers id = some now) :
    (Exists fun now => containers id = some now) \/ (task.server = id /\ phase.Underway) := by
  cases step with
  | stay => exact Or.inl ⟨now, present⟩
  | power running =>
      rcases Containers.setRunning_present running present with ⟨later, there, _⟩
      exact Or.inl ⟨later, there⟩
  | renamed =>
      by_cases same : id = task.server
      · exact Or.inr ⟨same.symm, trivial⟩
      · exact Or.inl ⟨now, (Containers.rename_other notStale same).trans present⟩
  | created container phase before owned free =>
      by_cases same : id = task.server
      · subst same
        cases free.symm.trans present
      · exact Or.inl ⟨now, (Containers.put_other _ _ same).trans present⟩
  | restored phase before free =>
      by_cases same : id = task.server
      · subst same
        cases free.symm.trans present
      · exact Or.inl ⟨now, (Containers.rename_other same notStale).trans present⟩
  | removed => exact Or.inl ⟨now, (Containers.put_other _ _ notStale).trans present⟩

/-- A request that holds the container of its server gives it back, or has made a new one. -/
theorem Step.keeps_underway {containers : Containers} {phase : Phase}
    (step : Step task state.host.containers containers phase) (sound : Sound servers state)
    (here : state.tasks[index]? = some task) (underway : task.phase.Underway) :
    (Exists fun now => containers task.server = some now) \/ phase.Underway := by
  cases step with
  | stay phase same => exact Or.inr (same.mpr underway)
  | power running phase same => exact Or.inr (same.mpr underway)
  | renamed => exact Or.inr trivial
  | created container => exact Or.inl ⟨container, Containers.put_self _ _ _⟩
  | restored phase before =>
      rcases sound.held index task here before with ⟨old, held, _⟩
      exact Or.inl ⟨old, (Containers.rename_new _ _ _).trans held⟩
  | removed phase impossible => exact absurd underway impossible

/-- A call of a request keeps each server. -/
theorem kept_advance {id : Text} (sound : Sound servers state) (member : id ∈ servers) (kept : Kept id state)
    (index : Nat) : Kept id (takeTurn state (.advance index)) := by
  unfold takeTurn
  dsimp only
  split
  · exact kept
  · next task here =>
      have step := (advance_step task state.host (sound.owned index task here)).1
      have inList : index < state.tasks.length := (List.getElem?_eq_some_iff.mp here).1
      have own := List.getElem?_set_self (a := { task with phase := (task.advance state.host).2 }) inList
      rcases kept with ⟨now, present⟩ | ⟨other, holder, there, rfl, underway⟩
      · have notStale : Not (id = task.stale) := fun same => sound.unlike index task here (same ▸ member)
        rcases step.keeps_present notStale present with later | ⟨same, underway⟩
        · exact Or.inl later
        · exact Or.inr ⟨index, _, own, same, underway⟩
      · by_cases same : other = index
        · subst same
          cases here.symm.trans there
          rcases step.keeps_underway sound here underway with later | goesOn
          · exact Or.inl later
          · exact Or.inr ⟨other, _, own, rfl, goesOn⟩
        · refine Or.inr ⟨other, holder, ?_, rfl, underway⟩
          exact (List.getElem?_set_ne (fun same' => same same'.symm)).trans there

/-- A request arrives. -/
theorem sound_request (sound : Sound servers state) {server : Text} {change : Change}
    {course : ReconfigurationCourse} (member : server ∈ servers) (unlike : staleName course server ∉ servers)
    (fresh : forall (index : Nat) task, state.tasks[index]? = some task -> Not (task.stale = staleName course server)) :
    Sound servers (takeTurn state (.request server change course)) := by
  refine ⟨sound.labelled, ?_, ?_, ?_, ?_, ?_⟩
  · intro index task present
    rcases concat_some present with earlier | ⟨_, rfl⟩
    · exact sound.owned index task earlier
    · trivial
  · intro index task present
    rcases concat_some present with earlier | ⟨_, rfl⟩
    · exact sound.known index task earlier
    · exact member
  · intro index task present
    rcases concat_some present with earlier | ⟨_, rfl⟩
    · exact sound.unlike index task earlier
    · exact unlike
  · intro first second one other presentOne presentOther same
    rcases concat_some presentOne with earlierOne | ⟨lastOne, rfl⟩
    · rcases concat_some presentOther with earlierOther | ⟨_, rfl⟩
      · exact sound.distinct first second one other earlierOne earlierOther same
      · exact absurd same (fresh first one earlierOne)
    · rcases concat_some presentOther with earlierOther | ⟨lastOther, _⟩
      · exact absurd same.symm (fresh second other earlierOther)
      · rw [lastOne, lastOther]
  · intro index task present underway
    rcases concat_some present with earlier | ⟨_, rfl⟩
    · exact sound.held index task earlier underway
    · exact absurd underway not_false

/-- What else happens to the servers leaves the requests alone. -/
theorem sound_world (sound : Sound servers state) {host : Host}
    (labelled : forall server, server ∈ servers -> forall container,
      host.containers server = some container -> OwnedBy container server)
    (stales : forall name, name ∉ servers -> host.containers name = state.host.containers name) :
    Sound servers { state with host := host } where
  labelled := labelled
  owned := sound.owned
  known := sound.known
  unlike := sound.unlike
  distinct := sound.distinct
  held := by
    intro index task here underway
    rcases sound.held index task here underway with ⟨old, held, owned⟩
    exact ⟨old, (stales task.stale (sound.unlike index task here)).trans held, owned⟩

theorem sound_power (sound : Sound servers state) {server : Text} (member : server ∈ servers) (running : Bool) :
    Sound servers (takeTurn state (.power server running)) := by
  refine sound_world sound ?_ ?_
  · intro other among container present
    rcases Containers.setRunning_some present with ⟨before, earlier, same⟩
    have owned := sound.labelled other among before earlier
    unfold OwnedBy at owned ⊢
    rw [← same]
    exact owned
  · intro name outside
    exact Containers.put_other _ _ (fun same => outside (same ▸ member))

theorem sound_describe (sound : Sound servers state) (server : Text) (descriptor : Option Text) :
    Sound servers (takeTurn state (.describe server descriptor)) :=
  sound_world sound sound.labelled fun _ _ => rfl

theorem sound_create (sound : Sound servers state) {server : Text} (member : server ∈ servers)
    (container : Container) : Sound servers (takeTurn state (.create server container)) := by
  unfold takeTurn Host.create
  dsimp only
  split
  · next allowed =>
      refine sound_world sound ?_ ?_
      · intro other among found present
        rcases Containers.put_some present with ⟨rfl, same⟩ | ⟨_, earlier⟩
        · cases same
          exact allowed.2
        · exact sound.labelled other among found earlier
      · intro name outside
        exact Containers.put_other _ _ (fun same => outside (same ▸ member))
  · exact sound

theorem sound_delete (sound : Sound servers state) {server : Text} (member : server ∈ servers) :
    Sound servers (takeTurn state (.delete server)) := by
  refine sound_world sound ?_ ?_
  · intro other among container present
    rcases Containers.put_some present with ⟨_, impossible⟩ | ⟨_, earlier⟩
    · cases impossible
    · exact sound.labelled other among container earlier
  · intro name outside
    exact Containers.put_other _ _ (fun same => outside (same ▸ member))

/-- A turn that does not delete the server keeps it. -/
theorem kept_takeTurn {id : Text} (sound : Sound servers state) (member : id ∈ servers) (kept : Kept id state)
    (turn : Turn) (undeleted : Not (turn = .delete id)) : Kept id (takeTurn state turn) := by
  cases turn with
  | request server change course =>
      rcases kept with present | ⟨index, task, here, same, underway⟩
      · exact Or.inl present
      · refine Or.inr ⟨index, task, ?_, same, underway⟩
        exact (List.getElem?_append_left (List.getElem?_eq_some_iff.mp here).1).trans here
  | advance index => exact kept_advance sound member kept index
  | power server running =>
      rcases kept with ⟨now, present⟩ | held
      · rcases Containers.setRunning_present running present with ⟨later, there, _⟩
        exact Or.inl ⟨later, there⟩
      · exact Or.inr held
  | describe server descriptor => exact kept
  | create server container =>
      rcases kept with ⟨now, present⟩ | held
      · left
        unfold takeTurn Host.create
        dsimp only
        split
        · next allowed =>
            by_cases same : id = server
            · subst same
              cases allowed.1.symm.trans present
            · exact ⟨now, (Containers.put_other _ _ same).trans present⟩
        · exact ⟨now, present⟩
      · refine Or.inr ?_
        rcases held with ⟨index, task, here, same, underway⟩
        refine ⟨index, task, ?_, same, underway⟩
        unfold takeTurn
        exact here
  | delete server =>
      rcases kept with ⟨now, present⟩ | held
      · have differs : Not (id = server) := fun same => undeleted (congrArg Turn.delete same.symm)
        exact Or.inl ⟨now, (Containers.put_other _ _ differs).trans present⟩
      · exact Or.inr held

end Keeping

/-! ## Runs -/

section Runs

variable {servers : List Text} {start : Host} {run : List Turn}

theorem Apart.front {front : List Turn} {turn : Turn} (apart : Apart servers (front ++ [turn])) :
    Apart servers front where
  named := fun other member => apart.named other (List.mem_append_left _ member)
  stales := by
    have all := apart.stales
    rw [List.filterMap_append] at all
    exact all.of_append_left
  unlike := by
    intro stale member
    refine apart.unlike stale ?_
    rw [List.filterMap_append]
    exact List.mem_append_left _ member

theorem Apart.last {front : List Turn} {turn : Turn} (apart : Apart servers (front ++ [turn])) {server : Text}
    (names : turn.named = some server) : server ∈ servers :=
  apart.named turn (List.mem_append_right _ (List.mem_singleton.mpr rfl)) server names

theorem after_append (front : List Turn) (turn : Turn) :
    after start (front ++ [turn]) = takeTurn (after start front) turn :=
  Machine.reach_append _ _ front [turn]

/-- The requests of a run in the order in which they arrived. -/
theorem stales_after (run : List Turn) :
    (after start run).tasks.map Task.stale = run.filterMap Turn.stale := by
  induction run using List.reverseRecOn with
  | nil => rfl
  | append_singleton front turn induction =>
      rw [after_append, List.filterMap_append, ← induction]
      cases turn with
      | request server change course => exact List.map_append
      | advance index =>
          rw [List.filterMap_cons_none rfl, List.filterMap_nil, List.append_nil]
          unfold takeTurn
          dsimp only
          split
          · rfl
          · next task here =>
              rw [List.map_set]
              refine List.ext_getElem? ?_
              intro other
              rw [List.getElem?_set]
              split
              · next same =>
                  subst same
                  rw [List.getElem?_map, here, List.length_map, if_pos (List.getElem?_eq_some_iff.mp here).1]
                  rfl
              · rfl
      | power server running => exact (List.append_nil _).symm
      | describe server descriptor => exact (List.append_nil _).symm
      | create server container => exact (List.append_nil _).symm
      | delete server => exact (List.append_nil _).symm

/-- Nothing is asked of requests before the first has arrived. -/
theorem sound_start (labelled : forall server, server ∈ servers -> forall container,
    start.containers server = some container -> OwnedBy container server) : Sound servers ⟨start, []⟩ := by
  have nobody {index : Nat} {task : Task} : Not (([] : List Task)[index]? = some task) := by
    rw [List.getElem?_nil]
    exact (Option.some_ne_none task).symm
  exact ⟨labelled, fun _ _ here => absurd here nobody, fun _ _ here => absurd here nobody,
    fun _ _ here => absurd here nobody, fun _ _ _ _ here => absurd here nobody, fun _ _ here => absurd here nobody⟩

theorem sound_after (apart : Apart servers run)
    (labelled : forall server, server ∈ servers -> forall container,
      start.containers server = some container -> OwnedBy container server) :
    Sound servers (after start run) := by
  induction run using List.reverseRecOn with
  | nil => exact sound_start labelled
  | append_singleton front turn induction =>
      have sound := induction apart.front
      rw [after_append]
      cases turn with
      | request server change course =>
          have stales := @stales_after start front
          have unique := apart.stales
          rw [List.filterMap_append] at unique
          refine sound_request sound (apart.last rfl) ?_ ?_
          · refine apart.unlike _ ?_
            rw [List.filterMap_append]
            exact List.mem_append_right _ (List.mem_singleton.mpr rfl)
          · intro index task here same
            have among : task.stale ∈ front.filterMap Turn.stale := by
              rw [← stales]
              exact List.mem_map_of_mem (List.mem_of_getElem? here)
            exact (List.nodup_append.mp unique).2.2 task.stale among (staleName course server)
              (List.mem_singleton.mpr rfl) same
      | advance index => exact sound_advance sound index
      | power server running => exact sound_power sound (apart.last rfl) running
      | describe server descriptor => exact sound_describe sound server descriptor
      | create server container => exact sound_create sound (apart.last rfl) container
      | delete server => exact sound_delete sound (apart.last rfl)

end Runs

/-- Whatever happens but a deletion, a server that had a container has one with
its label: under its own name, or under the stale name of a request for it
which has not created another one. -/
theorem server_kept {servers : List Text} {start : Host} {run : List Turn} {id : Text} (apart : Apart servers run)
    (member : id ∈ servers)
    (labelled : forall server, server ∈ servers -> forall container,
      start.containers server = some container -> OwnedBy container server)
    (present : Not (start.containers id = none)) (undeleted : Turn.delete id ∉ run) :
    (Exists fun now => (after start run).host.containers id = some now /\ OwnedBy now id) \/
      Exists fun task => task ∈ (after start run).tasks /\ task.server = id /\ task.phase.Underway /\
        Exists fun old => (after start run).host.containers task.stale = some old /\ OwnedBy old id := by
  have sound := sound_after apart labelled
  have kept : Kept id (after start run) := by
    induction run using List.reverseRecOn with
    | nil => exact Or.inl (Option.ne_none_iff_exists'.mp present)
    | append_singleton front turn induction =>
        have before := sound_after apart.front labelled
        rw [after_append]
        refine kept_takeTurn before member ?_ turn ?_
        · exact induction apart.front (fun earlier => undeleted (List.mem_append_left _ earlier)) before
        · intro same
          exact undeleted (List.mem_append_right _ (List.mem_singleton.mpr same.symm))
  rcases kept with ⟨now, there⟩ | ⟨index, task, here, rfl, underway⟩
  · exact Or.inl ⟨now, there, sound.labelled id member now there⟩
  · rcases sound.held index task here underway with ⟨old, held, owned⟩
    exact Or.inr ⟨task, List.mem_of_getElem? here, rfl, underway, old, held, owned⟩

/-- A request for other ports in which no call fails. -/
def portsTurn (uuid : String) : Turn :=
  .request "server-1".toList (.ports [("25565/tcp".toList, 25565)])
    { refusedRename with rename := none, uuid := uuid.toList }

/-- Two requests have inspected the container, and the first has renamed it. -/
def racingRun : List Turn :=
  [portsTurn "1", portsTurn "2", .advance 0, .advance 1, .advance 0]

theorem racingRun_apart : Apart ["server-1".toList] racingRun where
  named := by
    intro turn member server names
    simp only [racingRun, portsTurn, List.mem_cons, List.not_mem_nil, or_false] at member
    rcases member with rfl | rfl | rfl | rfl | rfl <;> cases names <;> exact List.mem_singleton.mpr rfl
  stales := by decide
  unlike := by decide

theorem server_kept_racing :
    (Exists fun now => (after ⟨(sampleServer false).containers, fun _ => none⟩ racingRun).host.containers
        "server-1".toList = some now /\ OwnedBy now "server-1".toList) \/
      Exists fun task => task ∈ (after ⟨(sampleServer false).containers, fun _ => none⟩ racingRun).tasks /\
        task.server = "server-1".toList /\ task.phase.Underway /\
          Exists fun old => (after ⟨(sampleServer false).containers, fun _ => none⟩ racingRun).host.containers
            task.stale = some old /\ OwnedBy old "server-1".toList := by
  refine server_kept racingRun_apart (List.mem_singleton.mpr rfl) ?_ (by decide) ?_
  · intro server member container present
    rw [List.mem_singleton.mp member] at present ⊢
    cases present
    rfl
  · simp [racingRun, portsTurn]

end Replacing
end Runtime
end Agapornis
